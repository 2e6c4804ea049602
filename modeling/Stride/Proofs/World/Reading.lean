import Stride.Proofs.World.Acceptance

namespace Stride

/-!
# Reading a level exactly

A level is accepted at the precision it was built with.  The numbers of its planes can then be
read at another scalar, in which nothing is rounded; the arena stays as it is, and with it
everything that acceptance says about references.

* `World.map` — a level read at another scalar.
* `World.Accepted` — a level that was accepted at some precision and then read.
* `World.flat` — the level whose partition is one leaf.
* `Accepted.wellFormed`, `WellFormed.flat` — both have the right shape.
* `accepted_of_defect?_eq_none` — a level that is accepted at the scalar at hand.
-/

variable {α β : Type}

/-- The plane with its numbers read at another scalar. -/
def Plane.map (f : α → β) (p : Plane α) : Plane β := ⟨p.normal.map f, f p.distance⟩

namespace World

/-- The level with the numbers of its planes read at another scalar. -/
def map (f : α → β) (w : World α) : World β :=
  ⟨w.planes.map (Plane.map f), w.brushes, w.nodes, w.root⟩

/-- The level with the same planes and brushes whose partition is one leaf that lists `ids`. -/
def flat (w : World α) (ids : List BrushId) : World α :=
  { w with nodes := #[.leaf ids .everything], root := .ofIndex 0 }

/-- A level that a builder accepted, at any precision, with its planes read at the scalar at
    hand. -/
inductive Accepted : World β → Prop where
  /-- The level `w`, with the value of each number. -/
  | read {α : Type} [Scalar α] {b : Builder α} {root : NodeId} {w : World α}
      (built : b.build root = .ok w) (value : α → β) : Accepted (w.map value)

variable {w : World α} {id : NodeId} {p : Partition} {ids : List BrushId}

/-- What is below a node depends on the nodes only. -/
theorem Unfolds.congr {w' : World β} (h : w.Unfolds id p) (hnodes : w'.nodes = w.nodes) :
    w'.Unfolds id p := by
  have hnode (i : NodeId) : w'.node? i = w.node? i := by rw [World.node?, World.node?, hnodes]
  induction h with
  | leaf node => exact .leaf ((hnode _).trans node)
  | split node _ _ ihf ihb => exact .split ((hnode _).trans node) ihf ihb

/-- Reading a level keeps its shape. -/
theorem WellFormed.map (hw : w.WellFormed) (f : α → β) : (w.map f).WellFormed where
  faces brush hbrush id hid := by
    rw [World.map, Array.size_map]
    exact hw.faces brush hbrush id hid
  tree := by
    obtain ⟨p, hp, hnodup, hres⟩ := hw.tree
    refine ⟨p, hp.congr rfl, hnodup, fun id hid node hnode => ?_⟩
    have h := hres id hid node hnode
    cases node with
    | leaf => exact h
    | split plane front back bounds =>
      obtain ⟨hplane, hfront, hback⟩ := h
      refine ⟨?_, hfront, hback⟩
      rw [World.map, Array.size_map]
      exact hplane

theorem Accepted.wellFormed {w : World β} (h : w.Accepted) : w.WellFormed := by
  cases h with
  | read built value => exact (Builder.wellFormed_of_build built).map value

/-- What was accepted and read may be read again. -/
theorem Accepted.map {w : World α} (h : w.Accepted) (f : α → β) : (w.map f).Accepted := by
  cases h with
  | @read γ _ _ _ w built value =>
    have htwice : (w.map value).map f = w.map (f ∘ value) := by
      simp only [World.map, Array.map_map]
      rfl
    rw [htwice]
    exact .read built _

/-- Reading every number as itself changes nothing. -/
theorem map_self (w : World α) : (w.map fun a => a) = w := by
  have hplanes : w.planes.map (Plane.map fun a => a) = w.planes := Array.map_id' w.planes
  rw [map, hplanes]

/-- A level without a defect is accepted as it is. -/
theorem accepted_of_defect?_eq_none [Scalar α] {b : Builder α} {root : NodeId}
    (h : b.defect? root = none) : (b.toWorld root).Accepted := by
  have hread := Accepted.read (Builder.build_of_defect?_eq_none h) fun a => a
  rwa [map_self] at hread

/-! ### One leaf -/

theorem node?_root_flat (w : World α) (ids : List BrushId) :
    (w.flat ids).node? (w.flat ids).root = some (.leaf ids .everything) := rfl

theorem WellFormed.flat (hw : w.WellFormed) (h : ∀ id ∈ ids, id.index < w.brushes.size) :
    (w.flat ids).WellFormed where
  faces := hw.faces
  tree := by
    refine ⟨_, .leaf (w.node?_root_flat ids), by simp [Partition.ids], fun id hid node hnode => ?_⟩
    obtain rfl : id = (w.flat ids).root := by simpa [Partition.ids] using hid
    obtain rfl : Node.leaf ids .everything = node := Option.some.inj hnode
    exact h

end World

end Stride
