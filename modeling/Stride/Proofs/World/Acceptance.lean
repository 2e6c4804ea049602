import Stride.Proofs.Single.Order
import Stride.Proofs.World.Walk

namespace Stride

/-!
# Accepted levels

A builder accepts its contents exactly if the planes are sound, the brushes have existing planes,
and what is reached from the root is a tree without missing parts.  Whatever else the arena holds
has no say in it, and an accepted level is the builder's contents, unchanged.

* `Plane.isSound_iff` — when a plane of singles is sound.
* `World.WellFormed` — the shape of an accepted level, which does not depend on its numbers.
* `exists_tree_iff_ways` — the tree, in terms of the ways through the arena.
* `build_eq_ok_iff` — acceptance, for singles and in terms of ways.
* `wellFormed_of_build` — the shape that every later argument starts from.
-/

variable {α : Type}

/-- A plane of singles is sound iff its normal has a finite length within a thousandth of one, and
    its distance is finite. -/
theorem Plane.isSound_iff (p : Plane Float32) :
    p.IsSound ↔ p.normal.length.isFinite = true ∧ Scalar.abs (p.normal.length - 1) ≤ 1e-3 ∧
      p.distance.isFinite = true := by
  have htol : Scalar.IsNumber (1e-3 : Float32) := by
    show (1e-3 : Float32) ≤ 1e-3
    decide +kernel
  rw [IsSound]
  refine and_congr_right fun hlen => and_congr_left' ?_
  -- a NaN would not be above the bound either, so the difference has to be a number
  have hnum : Scalar.IsNumber (Scalar.abs (p.normal.length - 1)) :=
    Single.isNumber_abs (Single.isNumber_sub hlen (by decide +kernel))
  exact Scalar.not_lt_iff htol hnum

/-! ### The shape of an accepted level -/

/-- The shape of an accepted level: the faces of every brush are planes of the arena, and below the
    root is a tree without repeated nodes whose references are in the arena. -/
structure World.WellFormed (w : World α) : Prop where
  /-- The faces are planes of the arena. -/
  faces : ∀ brush ∈ w.brushes, ∀ id ∈ brush.planes, id.index < w.planes.size
  /-- Below the root is a tree. -/
  tree : ∃ p, w.Unfolds w.root p ∧ p.ids.Nodup ∧
    ∀ id ∈ p.ids, ∀ node, w.node? id = some node → w.Resolves node

namespace World

variable {w : World α} {a id : NodeId} {turns : List Turn}

/-- Where the references of all nodes that are reached are in the arena, these nodes exist. -/
theorem Leads.lt_size (h : w.Leads a turns id) (ha : a.index < w.nodes.size)
    (hres : ∀ turns id node, w.Leads a turns id → w.node? id = some node → w.Resolves node) :
    id.index < w.nodes.size := by
  induction h with
  | stay => exact ha
  | turn node side _ ih =>
    obtain ⟨-, hfront, hback⟩ := hres _ _ _ (.stay _) node
    refine ih ?_ fun s id' node' hs hnode' => hres _ id' node' (.turn node side hs) hnode'
    cases side with
    | front => exact hfront
    | back => exact hback

/-- **Trees and ways.** Below a node is a tree without repeated nodes whose references are in the
    arena iff the node exists, the references of all nodes that are reached from it are in the
    arena, and none of these is reached in two ways. -/
theorem exists_tree_iff_ways :
    (∃ p, w.Unfolds a p ∧ p.ids.Nodup ∧
      ∀ id ∈ p.ids, ∀ node, w.node? id = some node → w.Resolves node) ↔
    a.index < w.nodes.size ∧
      (∀ turns id node, w.Leads a turns id → w.node? id = some node → w.Resolves node) ∧
      (∀ s t id, w.Leads a s id → w.Leads a t id → s = t) := by
  constructor
  · rintro ⟨p, hp, hnodup, hres⟩
    obtain ⟨node, hnode⟩ := hp.node?
    refine ⟨lt_size_of_node? hnode, fun turns id node hleads => ?_, hp.nodup_iff.1 hnodup⟩
    exact hres id (hp.mem_ids_iff.2 ⟨turns, hleads⟩) node
  · rintro ⟨ha, hres, huniq⟩
    obtain ⟨p, hp⟩ := exists_unfolds (fun turns id h => h.lt_size ha hres) huniq
    refine ⟨p, hp, hp.nodup_iff.2 huniq, fun id hid node => ?_⟩
    obtain ⟨turns, hleads⟩ := hp.mem_ids_iff.1 hid
    exact hres turns id node hleads

end World

/-! ### Acceptance -/

namespace Builder

variable {b : Builder α} {root : NodeId} {w : World α}

theorem brushDefect?_eq_none_iff :
    b.brushDefect? = none ↔
      ∀ brush ∈ b.brushes, ∀ id ∈ brush.planes, id.index < b.planes.size := by
  simp only [brushDefect?, List.findSome?_eq_none_iff, Option.map_eq_none_iff,
    List.find?_eq_none, decide_eq_true_eq, Nat.not_le]
  constructor
  · intro h brush hbrush
    obtain ⟨i, hi, rfl⟩ := Array.getElem_of_mem hbrush
    exact h (b.brushes[i], i) (by simp [List.mem_zipIdx_iff_getElem?, hi])
  · rintro h ⟨brush, i⟩ hmem
    exact h brush (Array.mem_toList_iff.1 (List.fst_mem_of_mem_zipIdx hmem))

variable [Scalar α]

theorem planeDefect?_eq_none_iff : b.planeDefect? = none ↔ ∀ p ∈ b.planes, p.IsSound := by
  simp [planeDefect?]

theorem defect?_eq_none_iff :
    b.defect? root = none ↔ (∀ p ∈ b.planes, p.IsSound) ∧ (b.toWorld root).WellFormed := by
  rw [defect?, Option.orElse_eq_none, Option.orElse_eq_none, planeDefect?_eq_none_iff,
    brushDefect?_eq_none_iff, treeDefect?_eq_none_iff]
  exact and_congr_right fun _ => ⟨fun h => ⟨h.1, h.2⟩, fun h => ⟨h.faces, h.tree⟩⟩

/-- Contents without a defect are accepted as they are. -/
theorem build_of_defect?_eq_none (h : b.defect? root = none) :
    b.build root = .ok (b.toWorld root) := by
  rw [build, h]
  rfl

/-- A builder accepts its contents iff the planes are sound and the shape is right, and the level
    is then the builder's contents. -/
theorem build_eq_ok_iff_wellFormed :
    b.build root = .ok w ↔
      w = b.toWorld root ∧ (∀ p ∈ b.planes, p.IsSound) ∧ (b.toWorld root).WellFormed := by
  rw [← defect?_eq_none_iff, build]
  cases b.defect? root with
  | some defect => simp
  | none =>
    simp only [Except.ok.injEq, and_true]
    exact eq_comm

/-- Every level that a builder accepts has the right shape. -/
theorem wellFormed_of_build (h : b.build root = .ok w) : w.WellFormed := by
  obtain ⟨rfl, -, hw⟩ := build_eq_ok_iff_wellFormed.1 h
  exact hw

end Builder

/-- **Acceptance.** A builder accepts its contents, with a root, exactly if the normal of every
    plane has a finite length within a thousandth of one and its distance is finite, every brush
    has existing faces, the root exists, every node that is reached from the root has existing
    children, splitting plane and listed brushes, and none of them is reached in two ways.  The
    level is then the contents, in order and unchanged, with that root. -/
theorem Builder.build_eq_ok_iff (b : Builder Float32) (root : NodeId) (w : World Float32) :
    b.build root = .ok w ↔
      w = ⟨b.planes, b.brushes, b.nodes, root⟩ ∧
      (∀ p ∈ b.planes, p.normal.length.isFinite = true ∧
        Scalar.abs (p.normal.length - 1) ≤ 1e-3 ∧ p.distance.isFinite = true) ∧
      (∀ brush ∈ b.brushes, ∀ id ∈ brush.planes, id.index < b.planes.size) ∧
      root.index < b.nodes.size ∧
      (∀ turns id node, (b.toWorld root).Leads root turns id →
        (b.toWorld root).node? id = some node → (b.toWorld root).Resolves node) ∧
      (∀ s t id, (b.toWorld root).Leads root s id → (b.toWorld root).Leads root t id → s = t) := by
  rw [build_eq_ok_iff_wellFormed]
  simp only [Plane.isSound_iff]
  refine and_congr_right fun _ => and_congr_right fun _ => ?_
  constructor
  · rintro ⟨hfaces, htree⟩
    exact ⟨hfaces, World.exists_tree_iff_ways.1 htree⟩
  · rintro ⟨hfaces, htree⟩
    exact ⟨hfaces, World.exists_tree_iff_ways.2 htree⟩

end Stride
