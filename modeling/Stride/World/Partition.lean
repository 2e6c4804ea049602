import Stride.World.Basic

namespace Stride

/-!
# Partitions as trees

The arena stores the partition of space as nodes that name each other by number.  Unfolded from a
node, it is a tree, if no cycle is met.  The sweep never builds the tree; it says what the sweep
goes through.

* `Partition` — the tree.
* `World.Unfolds` — the part of an arena below a node is a given tree.
* `Partition.cells` — the leaves with the turns that lead to them.
-/

variable {α : Type}

/-- A partition of space, each node with its number. -/
inductive Partition where
  /-- A cell that lists brushes. -/
  | leaf (id : NodeId) (brushes : List BrushId) (bounds : Bounds)
  /-- Space split by a plane. -/
  | split (id : NodeId) (plane : PlaneId) (bounds : Bounds) (front back : Partition)
deriving DecidableEq, Repr

/-- A turn to one side at a split. -/
structure Turn where
  /-- The splitting plane. -/
  plane : PlaneId
  /-- The side. -/
  side : Side
deriving DecidableEq, Repr

/-- A leaf and the way to it. -/
structure Cell where
  /-- The turns from the top to the leaf. -/
  turns : List Turn
  /-- The brushes that the leaf lists. -/
  brushes : List BrushId
deriving DecidableEq, Repr

/-- The cell after one more turn at the start of its way. -/
def Cell.after (c : Cell) (t : Turn) : Cell := { c with turns := t :: c.turns }

namespace Partition

/-- The number of the node at the top. -/
def root : Partition → NodeId
  | leaf id _ _ => id
  | split id _ _ _ _ => id

/-- The numbers of all nodes, each before those below it. -/
def ids : Partition → List NodeId
  | leaf id _ _ => [id]
  | split id _ _ front back => id :: (front.ids ++ back.ids)

/-- The leaves, with the ways to them. -/
def cells : Partition → List Cell
  | leaf _ brushes _ => [⟨[], brushes⟩]
  | split _ plane _ front back =>
    front.cells.map (·.after ⟨plane, .front⟩) ++ back.cells.map (·.after ⟨plane, .back⟩)

/-- The brushes that the leaves list, in the order of the leaves. -/
def brushes (p : Partition) : List BrushId := p.cells.flatMap (·.brushes)

theorem root_mem_ids (p : Partition) : p.root ∈ p.ids := by cases p <;> simp [root, ids]

@[simp] theorem brushes_leaf (id : NodeId) (brushes : List BrushId) (bounds : Bounds) :
    (leaf id brushes bounds).brushes = brushes := by
  simp [Partition.brushes, cells]

@[simp] theorem brushes_split (id : NodeId) (plane : PlaneId) (bounds : Bounds)
    (front back : Partition) :
    (split id plane bounds front back).brushes = front.brushes ++ back.brushes := by
  simp [Partition.brushes, cells, List.flatMap_append, List.flatMap_map, Cell.after]

end Partition

/-- The arena holds the given tree below a node. -/
inductive World.Unfolds (w : World α) : NodeId → Partition → Prop where
  /-- A leaf is a tree by itself. -/
  | leaf {id : NodeId} {brushes : List BrushId} {bounds : Bounds}
      (node : w.node? id = some (.leaf brushes bounds)) :
      w.Unfolds id (.leaf id brushes bounds)
  /-- A split has the trees of its children below it. -/
  | split {id front back : NodeId} {plane : PlaneId} {bounds : Bounds} {f b : Partition}
      (node : w.node? id = some (.split plane front back bounds))
      (inFront : w.Unfolds front f) (behind : w.Unfolds back b) :
      w.Unfolds id (.split id plane bounds f b)

namespace World

variable {w : World α} {id : NodeId} {p q : Partition}

theorem Unfolds.root_eq (h : w.Unfolds id p) : p.root = id := by cases h <;> rfl

/-- There is at most one tree below a node. -/
theorem Unfolds.unique (hp : w.Unfolds id p) (hq : w.Unfolds id q) : p = q := by
  induction hp generalizing q with
  | leaf hp =>
    cases hq with
    | leaf hq => simp_all
    | split hq => simp_all
  | split hp _ _ ihf ihb =>
    cases hq with
    | leaf hq => simp_all
    | split hq hf hb =>
      obtain ⟨rfl, rfl, rfl, rfl⟩ : _ ∧ _ ∧ _ ∧ _ := by simpa using hp.symm.trans hq
      rw [ihf hf, ihb hb]

end World

end Stride
