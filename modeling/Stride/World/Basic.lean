import Stride.Bounds
import Stride.Plane

namespace Stride

/-!
# Levels

A level is an arena of planes, convex brushes and partition nodes that refer to each other by
small numbers.  Only the part that is reached from the root takes part in queries; whatever else
the arena holds is kept as it was given.

* `Brush` — the common back half-space of its planes.
* `Node` — a split of space in two, or a leaf that lists brushes.
* `World` — the arena with its root, and the look-ups `plane?`, `brush?`, `node?`.
-/

variable {α : Type}

/-- The number of a plane in its arena. -/
structure PlaneId where
  /-- The position in the arena. -/
  val : UInt32
deriving DecidableEq, Repr

/-- The number of a brush in its arena. -/
structure BrushId where
  /-- The position in the arena. -/
  val : UInt32
deriving DecidableEq, Repr

/-- The number of a node in its arena. -/
structure NodeId where
  /-- The position in the arena. -/
  val : UInt32
deriving DecidableEq, Repr

/-- The position as an index. -/
def PlaneId.index (id : PlaneId) : Nat := id.val.toNat

/-- The position as an index. -/
def BrushId.index (id : BrushId) : Nat := id.val.toNat

/-- The position as an index. -/
def NodeId.index (id : NodeId) : Nat := id.val.toNat

/-- The number of the item that is stored at an index. -/
def PlaneId.ofIndex (i : Nat) : PlaneId := ⟨UInt32.ofNat i⟩

/-- The number of the item that is stored at an index. -/
def BrushId.ofIndex (i : Nat) : BrushId := ⟨UInt32.ofNat i⟩

/-- The number of the item that is stored at an index. -/
def NodeId.ofIndex (i : Nat) : NodeId := ⟨UInt32.ofNat i⟩

/-- A convex solid: the points behind all of its planes. -/
structure Brush where
  /-- The faces, with normals that point out of the solid. -/
  planes : List PlaneId
  /-- Whether sweeps stop at the solid.  Triggers and the like are kept but never met. -/
  collidable : Bool
deriving DecidableEq, Repr

/-- A node of the partition. -/
inductive Node where
  /-- Space split by a plane. -/
  | split (plane : PlaneId) (front back : NodeId) (bounds : Bounds)
  /-- A cell, with the brushes that reach into it. -/
  | leaf (brushes : List BrushId) (bounds : Bounds)
deriving DecidableEq, Repr

/-- Whether the node is a leaf. -/
def Node.isLeaf : Node → Bool
  | split .. => false
  | leaf .. => true

/-- The box that the node carries. -/
def Node.bounds : Node → Bounds
  | split _ _ _ b => b
  | leaf _ b => b

/-- The static level: an arena and the node at the top of its partition. -/
structure World (α : Type) where
  /-- The planes by number. -/
  planes : Array (Plane α)
  /-- The brushes by number. -/
  brushes : Array Brush
  /-- The nodes by number. -/
  nodes : Array Node
  /-- The top of the partition. -/
  root : NodeId
deriving DecidableEq, Repr

namespace World

/-- The plane of that number. -/
def plane? (w : World α) (id : PlaneId) : Option (Plane α) := w.planes[id.index]?

/-- The brush of that number. -/
def brush? (w : World α) (id : BrushId) : Option Brush := w.brushes[id.index]?

/-- The node of that number. -/
def node? (w : World α) (id : NodeId) : Option Node := w.nodes[id.index]?

end World

end Stride
