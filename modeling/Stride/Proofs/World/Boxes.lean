import Mathlib
import Stride.Proofs.Sweep.Solids
import Stride.Proofs.World.Layout

namespace Stride

/-!
# Levels of boxes

A box adds six planes and a brush that names them.  In a level that is built of boxes only, planes
and brushes stand in the order of the boxes, so that each brush finds the faces of its own box.

* `Box` — what is added: two corners, in any order, and whether sweeps stop at the box.
* `Builder.ofBoxes` — the builder to which a list of boxes was added.
* `World.ofBoxes` — the level with one leaf that lists all of them.
* `buildSingleLeaf_ofBoxes` — the builder makes that level.
* `exists_solid_ofBoxes_iff` — the solids of the level are the collidable boxes.
-/

variable {α : Type}

/-- A box that is added to a level. -/
structure Box (α : Type) where
  /-- The one corner. -/
  mins : Vec3 α
  /-- The other corner. -/
  maxs : Vec3 α
  /-- Whether sweeps stop at it. -/
  collidable : Bool
deriving DecidableEq, Repr

namespace Box

/-- The outward faces. -/
def faces [Scalar α] (box : Box α) : List (Plane α) := Plane.axisFaces box.mins box.maxs

@[simp] theorem length_faces [Scalar α] (box : Box α) : box.faces.length = 6 := rfl

theorem forall_mem_faces [Scalar α] {box : Box α} {P : Plane α → Prop} : (∀ p ∈ box.faces, P p) ↔
    P ⟨⟨1, 0, 0⟩, box.maxs.x⟩ ∧ P ⟨⟨-1, 0, 0⟩, -box.mins.x⟩ ∧
      P ⟨⟨0, 1, 0⟩, box.maxs.y⟩ ∧ P ⟨⟨0, -1, 0⟩, -box.mins.y⟩ ∧
      P ⟨⟨0, 0, 1⟩, box.maxs.z⟩ ∧ P ⟨⟨0, 0, -1⟩, -box.mins.z⟩ := by
  simp [faces, Plane.axisFaces]

/-- The brush of the box that is added after `i` others. -/
def brush (box : Box α) (i : ℕ) : Brush :=
  ⟨(List.range' (6 * i) 6).map .ofIndex, box.collidable⟩

end Box

/-! ### The builder -/

namespace Builder

/-- Planes are numbered from the number of those that were there. -/
theorem ids_addPlanes (b : Builder α) (ps : List (Plane α)) :
    (b.addPlanes ps).1 = (List.range' b.planes.size ps.length).map .ofIndex := by
  induction ps generalizing b with
  | nil => rfl
  | cons p ps ih =>
    simp only [addPlanes, ih, planes_addPlane, Array.size_push, List.length_cons,
      List.range'_succ, List.map_cons]
    rfl

@[simp] theorem brushes_addPlanes (b : Builder α) (ps : List (Plane α)) :
    (b.addPlanes ps).2.brushes = b.brushes := by
  induction ps generalizing b with
  | nil => rfl
  | cons p ps ih => simp [addPlanes, ih]

@[simp] theorem nodes_addPlanes (b : Builder α) (ps : List (Plane α)) :
    (b.addPlanes ps).2.nodes = b.nodes := by
  induction ps generalizing b with
  | nil => rfl
  | cons p ps ih =>
    simp only [addPlanes, ih]
    rfl

variable [Scalar α]

/-- The builder after one more box. -/
def withBox (b : Builder α) (box : Box α) : Builder α :=
  (b.addBox box.mins box.maxs box.collidable).2

@[simp] theorem planes_withBox (b : Builder α) (box : Box α) :
    (b.withBox box).planes = b.planes ++ box.faces.toArray := b.planes_addPlanes box.faces

@[simp] theorem nodes_withBox (b : Builder α) (box : Box α) : (b.withBox box).nodes = b.nodes :=
  b.nodes_addPlanes box.faces

theorem brushes_withBox (b : Builder α) (box : Box α) :
    (b.withBox box).brushes =
      b.brushes.push ⟨(List.range' b.planes.size 6).map .ofIndex, box.collidable⟩ := by
  have hids := b.ids_addPlanes box.faces
  rw [Box.length_faces] at hids
  rw [← hids, ← b.brushes_addPlanes box.faces]
  rfl

/-- The builder to which boxes were added in order. -/
def ofBoxes (boxes : List (Box α)) : Builder α := boxes.foldl withBox {}

theorem ofBoxes_concat (boxes : List (Box α)) (box : Box α) :
    ofBoxes (boxes ++ [box]) = (ofBoxes boxes).withBox box := by
  rw [ofBoxes, List.foldl_append]
  rfl

/-- **Planes** stand in the order of the boxes, six for each. -/
theorem planes_ofBoxes (boxes : List (Box α)) :
    (ofBoxes boxes).planes = (boxes.flatMap Box.faces).toArray := by
  induction boxes using List.reverseRecOn with
  | nil => rfl
  | append_singleton boxes box ih => simp [ofBoxes_concat, ih]

theorem nodes_ofBoxes (boxes : List (Box α)) : (ofBoxes boxes).nodes = #[] := by
  induction boxes using List.reverseRecOn with
  | nil => rfl
  | append_singleton boxes box ih => rw [ofBoxes_concat, nodes_withBox, ih]

theorem length_flatMap_faces (boxes : List (Box α)) :
    (boxes.flatMap Box.faces).length = 6 * boxes.length := by
  simp [List.length_flatMap, mul_comm]

/-- **Brushes** stand in the order of the boxes, and each names the planes of its own box. -/
theorem brushes_ofBoxes (boxes : List (Box α)) :
    (ofBoxes boxes).brushes = (boxes.mapIdx fun i box => box.brush i).toArray := by
  induction boxes using List.reverseRecOn with
  | nil => rfl
  | append_singleton boxes box ih =>
    rw [ofBoxes_concat, brushes_withBox, ih, planes_ofBoxes, List.mapIdx_concat, List.size_toArray,
      length_flatMap_faces, List.push_toArray]
    rfl

end Builder

/-! ### The level -/

namespace World

variable [Scalar α]

/-- The level of boxes that are all in one leaf. -/
def ofBoxes (boxes : List (Box α)) : World α where
  planes := (boxes.flatMap Box.faces).toArray
  brushes := (boxes.mapIdx fun i box => box.brush i).toArray
  nodes := #[.leaf ((List.range boxes.length).map .ofIndex) .everything]
  root := .ofIndex 0

variable {boxes : List (Box α)}

theorem node?_root_ofBoxes (boxes : List (Box α)) : (ofBoxes boxes).node? (ofBoxes boxes).root =
    some (.leaf ((List.range boxes.length).map .ofIndex) .everything) := rfl

theorem ofBoxes_wellFormed (boxes : List (Box α)) : (ofBoxes boxes).WellFormed where
  faces brush hbrush id hid := by
    simp only [ofBoxes, List.mem_toArray, List.mem_mapIdx] at hbrush
    obtain ⟨i, hi, rfl⟩ := hbrush
    simp only [Box.brush, List.mem_map, List.mem_range'_1] at hid
    obtain ⟨k, hk, rfl⟩ := hid
    simp only [ofBoxes, List.size_toArray, Builder.length_flatMap_faces]
    exact (toNat_ofNat_le k).trans_lt (by omega)
  tree := by
    refine ⟨_, .leaf (node?_root_ofBoxes boxes), List.nodup_singleton _, ?_⟩
    intro id hid node hnode
    obtain rfl := List.mem_singleton.1 hid
    obtain rfl := Option.some.inj ((node?_root_ofBoxes boxes).symm.trans hnode)
    intro id hid
    obtain ⟨i, hi, rfl⟩ := List.mem_map.1 hid
    simp only [ofBoxes, List.size_toArray, List.length_mapIdx]
    exact (toNat_ofNat_le i).trans_lt (List.mem_range.1 hi)

end World

/-- **Boxes with sound faces** are built into the level. -/
theorem Builder.buildSingleLeaf_ofBoxes [Scalar α] {boxes : List (Box α)}
    (h : ∀ box ∈ boxes, ∀ p ∈ box.faces, p.IsSound) :
    (ofBoxes boxes).buildSingleLeaf = .ok (World.ofBoxes boxes) := by
  have hlevel : ((ofBoxes boxes).addLeaf (ofBoxes boxes).brushIds .everything).2.toWorld
      (.ofIndex 0) = World.ofBoxes boxes := by
    simp [toWorld, addLeaf, addNode, brushIds, World.ofBoxes, planes_ofBoxes, brushes_ofBoxes,
      nodes_ofBoxes]
  have hroot : ((ofBoxes boxes).addLeaf (ofBoxes boxes).brushIds .everything).1 = .ofIndex 0 := by
    simp [addLeaf, addNode, nodes_ofBoxes]
  rw [buildSingleLeaf]
  simp only [hroot]
  rw [build_of_defect?_eq_none, hlevel]
  refine defect?_eq_none_iff.2 ⟨fun p hp => ?_, hlevel ▸ World.ofBoxes_wellFormed boxes⟩
  simp only [addLeaf, addNode, planes_ofBoxes, List.mem_toArray, List.mem_flatMap] at hp
  obtain ⟨box, hbox, hp⟩ := hp
  exact h box hbox p hp

/-! ### Its solids -/

theorem PlaneId.index_ofIndex {i : ℕ} (h : i < UInt32.size) : (PlaneId.ofIndex i).index = i :=
  Nat.mod_eq_of_lt h

theorem BrushId.index_ofIndex {i : ℕ} (h : i < UInt32.size) : (BrushId.ofIndex i).index = i :=
  Nat.mod_eq_of_lt h

/-- In a list that is put together from parts of one length, each part is found at its place. -/
theorem getElem?_flatMap_of_length {β γ : Type} {f : β → List γ} {n : ℕ}
    (hf : ∀ a, (f a).length = n) (l : List β) {i j : ℕ} (hj : j < n) :
    (l.flatMap f)[n * i + j]? = l[i]?.bind fun a => (f a)[j]? := by
  induction l generalizing i with
  | nil => simp
  | cons a l ih =>
    rw [List.flatMap_cons]
    cases i with
    | zero =>
      rw [Nat.mul_zero, Nat.zero_add, List.getElem?_append_left (by rwa [hf])]
      rfl
    | succ i =>
      have hplace : n * (i + 1) + j - (f a).length = n * i + j := by
        rw [hf, Nat.mul_succ]
        omega
      rw [List.getElem?_append_right (by rw [hf, Nat.mul_succ]; omega), hplace, ih,
        List.getElem?_cons_succ]

namespace World

/-- The faces of a brush whose planes are found. -/
theorem exists_faces?_of_planes {w : World α} {ids : List PlaneId} {planes : List (Plane α)}
    (h : ids.map w.plane? = planes.map some) (collidable : Bool) :
    ∃ faces, w.faces? ⟨ids, collidable⟩ = some faces ∧ faces.map Face.plane = planes := by
  induction ids generalizing planes with
  | nil =>
    obtain rfl : planes = [] := by simpa using h
    exact ⟨[], rfl, rfl⟩
  | cons id ids ih =>
    cases planes with
    | nil => simp at h
    | cons p planes =>
      rw [List.map_cons, List.map_cons, List.cons.injEq] at h
      obtain ⟨faces, hfaces, hplanes⟩ := ih h.2
      rw [faces?] at hfaces ⊢
      refine ⟨⟨id, p⟩ :: faces, ?_, by rw [List.map_cons, hplanes]⟩
      rw [List.mapM_cons, h.1, hfaces]
      rfl

variable [Scalar α] {boxes : List (Box α)}

/-- As long as the planes can be told apart by number, the planes that a brush names are the faces
    of its box. -/
theorem map_plane?_ofBoxes (hnumbers : 6 * boxes.length ≤ UInt32.size) {i : ℕ} {box : Box α}
    (hbox : boxes[i]? = some box) :
    (box.brush i).planes.map (ofBoxes boxes).plane? = box.faces.map some := by
  obtain ⟨hi, -⟩ := List.getElem?_eq_some_iff.1 hbox
  have hplane (j : ℕ) (hj : j < 6) :
      (ofBoxes boxes).plane? (.ofIndex (6 * i + j)) = box.faces[j]? := by
    rw [plane?, PlaneId.index_ofIndex (by omega), ofBoxes, List.getElem?_toArray,
      getElem?_flatMap_of_length Box.length_faces _ hj, hbox]
    rfl
  rw [Box.brush, List.map_map]
  refine List.ext_getElem (by simp) fun j hj _ => ?_
  have hj' : j < 6 := by simpa using hj
  simp only [List.getElem_map, List.getElem_range', Function.comp_apply, Nat.one_mul]
  rw [hplane j hj', List.getElem?_eq_getElem]

/-- **The solids** of the level are the collidable boxes, as long as the planes can be told apart by
    number. -/
theorem exists_solid_ofBoxes_iff (hnumbers : 6 * boxes.length ≤ UInt32.size)
    {P : Plane α → Prop} :
    (∃ id ∈ (List.range boxes.length).map BrushId.ofIndex, ∃ faces,
        (ofBoxes boxes).HasSolid id faces ∧ faces ≠ [] ∧ ∀ face ∈ faces, P face.plane) ↔
      ∃ box ∈ boxes, box.collidable = true ∧ ∀ plane ∈ box.faces, P plane := by
  have hbrush {i : ℕ} (hi : i < boxes.length) :
      (ofBoxes boxes).brush? (.ofIndex i) = some (boxes[i].brush i) := by
    rw [brush?, BrushId.index_ofIndex (by omega), ofBoxes, List.getElem?_toArray,
      List.getElem?_mapIdx, List.getElem?_eq_getElem hi]
    rfl
  have hfaces {i : ℕ} (hi : i < boxes.length) : ∃ faces,
      (ofBoxes boxes).faces? (boxes[i].brush i) = some faces ∧
        faces.map Face.plane = boxes[i].faces :=
    exists_faces?_of_planes (map_plane?_ofBoxes hnumbers (List.getElem?_eq_getElem hi)) _
  -- the brush with the number of a box finds the faces of that box, and there are no others
  constructor
  · rintro ⟨_, hid, faces, ⟨brush, hsome, hcollidable, hsolid⟩, -, hP⟩
    obtain ⟨i, hi, rfl⟩ := List.mem_map.1 hid
    rw [List.mem_range] at hi
    obtain rfl := Option.some.inj (hsome.symm.trans (hbrush hi))
    obtain ⟨faces', hsolid', hplanes⟩ := hfaces hi
    obtain rfl := Option.some.inj (hsolid.symm.trans hsolid')
    refine ⟨boxes[i], List.getElem_mem hi, hcollidable, ?_⟩
    rw [← hplanes]
    exact List.forall_mem_map.2 hP
  · rintro ⟨box, hbox, hcollidable, hP⟩
    obtain ⟨i, hi, rfl⟩ := List.getElem_of_mem hbox
    obtain ⟨faces, hsolid, hplanes⟩ := hfaces hi
    refine ⟨.ofIndex i, List.mem_map_of_mem (List.mem_range.2 hi), faces,
      ⟨_, hbrush hi, hcollidable, hsolid⟩, ?_, ?_⟩
    · rintro rfl
      cases hplanes
    · rw [← hplanes] at hP
      exact List.forall_mem_map.1 hP

end World

end Stride
