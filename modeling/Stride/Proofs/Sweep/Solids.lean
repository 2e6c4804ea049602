import Stride.Sweep.Trace
import Stride.Proofs.World.Acceptance

namespace Stride

/-!
# The solids of a level

What a sweep meets at a leaf are the faces of the collidable brushes that the leaf lists.  In a
level of the right shape none of the look-ups behind this fails.

* `World.HasSolid` — a collidable brush with its faces.
* `World.solids` — the solids of listed brushes, where no look-up fails.
* `solids?_eq_some`, `mem_solids_iff` — no look-up fails, and which solids are found.
-/

variable {α β γ : Type}

/-! ### Looking up lists -/

/-- Looking up every member of a list succeeds if every single look-up does. -/
theorem exists_mapM_eq_some {f : β → Option γ} {l : List β} (h : ∀ a ∈ l, ∃ c, f a = some c) :
    ∃ m, l.mapM f = some m := by
  induction l with
  | nil => exact ⟨[], rfl⟩
  | cons a l ih =>
    obtain ⟨c, hc⟩ := h a List.mem_cons_self
    obtain ⟨m, hm⟩ := ih fun a ha => h a (List.mem_cons_of_mem _ ha)
    exact ⟨c :: m, by rw [List.mapM_cons, hc, hm]; rfl⟩

/-- What is found is what single look-ups find. -/
theorem mem_of_mapM_eq_some {f : β → Option γ} {l : List β} {m : List γ} (h : l.mapM f = some m)
    (c : γ) : c ∈ m ↔ ∃ a ∈ l, f a = some c := by
  induction l generalizing m with
  | nil =>
    obtain rfl : [] = m := by simpa using h
    simp
  | cons a l ih =>
    rw [List.mapM_cons] at h
    obtain ⟨c', hc', h⟩ := Option.bind_eq_some_iff.1 h
    obtain ⟨m', hm', h⟩ := Option.bind_eq_some_iff.1 h
    obtain rfl : c' :: m' = m := by simpa using h
    rw [List.mem_cons, ih hm', eq_comm, ← Option.some.injEq, ← hc']
    simp only [List.mem_cons, exists_eq_or_imp]

/-- Look-ups that agree on the members of a list find the same. -/
theorem mapM_congr {f g : β → Option γ} {l : List β} (h : ∀ a ∈ l, f a = g a) :
    l.mapM f = l.mapM g := by
  induction l with
  | nil => rfl
  | cons a l ih =>
    rw [List.mapM_cons, List.mapM_cons, h a List.mem_cons_self,
      ih fun b hb => h b (List.mem_cons_of_mem _ hb)]

/-! ### Solids -/

namespace World

variable {w : World α}

/-- A collidable brush of that number, with its faces. -/
def HasSolid (w : World α) (id : BrushId) (faces : List (Face α)) : Prop :=
  ∃ brush, w.brush? id = some brush ∧ brush.collidable = true ∧ w.faces? brush = some faces

/-- The solids of the listed brushes, where no look-up fails. -/
def solids (w : World α) (ids : List BrushId) : List (List (Face α)) := (w.solids? ids).getD []

theorem exists_plane? {id : PlaneId} (h : id.index < w.planes.size) :
    ∃ plane, w.plane? id = some plane :=
  ⟨w.planes[id.index], Array.getElem?_eq_getElem h⟩

theorem exists_brush? {id : BrushId} (h : id.index < w.brushes.size) :
    ∃ brush, w.brush? id = some brush ∧ brush ∈ w.brushes :=
  ⟨w.brushes[id.index], Array.getElem?_eq_getElem h, Array.getElem_mem h⟩

/-- Every face of a solid is a plane of the arena. -/
theorem HasSolid.plane? {id : BrushId} {faces : List (Face α)} (h : w.HasSolid id faces)
    {face : Face α} (hface : face ∈ faces) : w.plane? face.id = some face.plane := by
  obtain ⟨brush, -, -, hfaces⟩ := h
  obtain ⟨id, -, hid⟩ := (mem_of_mapM_eq_some hfaces face).1 hface
  obtain ⟨plane, hplane, rfl⟩ := Option.map_eq_some_iff.1 hid
  exact hplane

/-- The faces of a solid are determined by its number. -/
theorem HasSolid.unique {id : BrushId} {faces faces' : List (Face α)} (h : w.HasSolid id faces)
    (h' : w.HasSolid id faces') : faces = faces' := by
  obtain ⟨brush, hbrush, -, hfaces⟩ := h
  obtain ⟨brush', hbrush', -, hfaces'⟩ := h'
  rw [hbrush, Option.some.injEq] at hbrush'
  rw [← hbrush', hfaces, Option.some.injEq] at hfaces'
  exact hfaces'

namespace WellFormed

variable {ids : List BrushId}

/-- The faces of a brush of the arena are found. -/
theorem exists_faces? (hw : w.WellFormed) {brush : Brush} (h : brush ∈ w.brushes) :
    ∃ faces, w.faces? brush = some faces := by
  refine exists_mapM_eq_some fun id hid => ?_
  obtain ⟨plane, hplane⟩ := exists_plane? (hw.faces brush h id hid)
  exact ⟨⟨id, plane⟩, by rw [hplane]; rfl⟩

/-- The solids of brushes of the arena are found. -/
theorem solids?_eq_some (hw : w.WellFormed) (h : ∀ id ∈ ids, id.index < w.brushes.size) :
    w.solids? ids = some (w.solids ids) := by
  have hsome : ∃ solids, w.solids? ids = some solids := by
    obtain ⟨brushes, hbrushes⟩ := exists_mapM_eq_some (f := w.brush?) (l := ids) fun id hid =>
      (exists_brush? (h id hid)).imp fun _ hb => hb.1
    rw [solids?, hbrushes]
    refine exists_mapM_eq_some fun brush hbrush => hw.exists_faces? ?_
    obtain ⟨id, -, hid⟩ := (mem_of_mapM_eq_some hbrushes brush).1 (List.mem_of_mem_filter hbrush)
    exact Array.mem_of_getElem? hid
  obtain ⟨solids, hsolids⟩ := hsome
  rw [World.solids, hsolids, Option.getD_some]

/-- The solids are looked up brush by brush, and face by face. -/
theorem exists_brushes (hw : w.WellFormed) (h : ∀ id ∈ ids, id.index < w.brushes.size) :
    ∃ brushes, ids.mapM w.brush? = some brushes ∧
      (brushes.filter (·.collidable)).mapM w.faces? = some (w.solids ids) := by
  have hsolids := hw.solids?_eq_some h
  rw [solids?] at hsolids
  exact Option.bind_eq_some_iff.1 hsolids

/-- The solids that are found are those of the listed brushes that are collidable. -/
theorem mem_solids_iff (hw : w.WellFormed) (h : ∀ id ∈ ids, id.index < w.brushes.size)
    (faces : List (Face α)) : faces ∈ w.solids ids ↔ ∃ id ∈ ids, w.HasSolid id faces := by
  obtain ⟨brushes, hbrushes, hfaces⟩ := hw.exists_brushes h
  rw [mem_of_mapM_eq_some hfaces]
  simp only [List.mem_filter, mem_of_mapM_eq_some hbrushes, HasSolid]
  constructor
  · rintro ⟨brush, ⟨⟨id, hid, hbrush⟩, hcoll⟩, hf⟩
    exact ⟨id, hid, brush, hbrush, hcoll, hf⟩
  · rintro ⟨id, hid, brush, hbrush, hcoll, hf⟩
    exact ⟨brush, ⟨⟨id, hid, hbrush⟩, hcoll⟩, hf⟩

/-- Some solid that is found is one of the listed brushes. -/
theorem exists_mem_solids_iff (hw : w.WellFormed) (h : ∀ id ∈ ids, id.index < w.brushes.size)
    {P : List (Face α) → Prop} :
    (∃ faces ∈ w.solids ids, P faces) ↔ ∃ id ∈ ids, ∃ faces, w.HasSolid id faces ∧ P faces := by
  simp only [hw.mem_solids_iff h]
  constructor
  · rintro ⟨faces, ⟨id, hid, hfaces⟩, hP⟩
    exact ⟨id, hid, faces, hfaces, hP⟩
  · rintro ⟨id, hid, faces, hfaces, hP⟩
    exact ⟨faces, ⟨id, hid, hfaces⟩, hP⟩

end WellFormed

end World

end Stride
