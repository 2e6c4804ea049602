import Stride.World.Builder

namespace Stride

/-!
# Snapshots of a level

What the map converter writes: planes and brushes as flat lists, and the partition as a tree of
records.  A snapshot becomes a level by flattening the tree, left subtree first, then the right one,
then the record itself, so that the root comes last.

* `Snapshot` — the records.
* `NodeTree.flatten` — the nodes of a tree, or its first defect by record number.
* `Snapshot.build` — the level of a snapshot, or its first defect.
-/

variable {α : Type}

/-- A plane as the converter writes it. -/
structure PlaneRecord (α : Type) where
  /-- The normal. -/
  normal : Vec3 α
  /-- The offset along the normal. -/
  distance : α
deriving DecidableEq, Repr

/-- A brush as the converter writes it. -/
structure BrushRecord where
  /-- Whether sweeps stop at it. -/
  collidable : Bool
  /-- The numbers of its faces. -/
  planes : List Int64
deriving DecidableEq, Repr

/-- A node as the converter writes it, without its children. -/
structure NodeRecord where
  /-- Whether the node is a leaf. -/
  leaf : Bool
  /-- The number of the splitting plane; it means nothing at a leaf. -/
  plane : Int64
  /-- The box that the node carries. -/
  bounds : Bounds
  /-- The numbers of the listed brushes; they mean nothing at a split. -/
  brushes : Option (List Int64)
deriving DecidableEq, Repr

/-- A tree of node records in which any record may be absent. -/
inductive NodeTree where
  /-- No record. -/
  | absent
  /-- A record with its children, the front one first. -/
  | node (record : NodeRecord) (left right : NodeTree)
deriving DecidableEq, Repr

/-- Whether there is no record. -/
def NodeTree.isAbsent : NodeTree → Bool
  | absent => true
  | node .. => false

/-- A level as the converter writes it. -/
structure Snapshot (α : Type) where
  /-- The planes in order. -/
  planes : List (PlaneRecord α)
  /-- The brushes in order. -/
  brushes : List BrushRecord
  /-- The partition. -/
  tree : NodeTree
deriving DecidableEq, Repr

/-- The index that a number of a record stands for, if there are that many items. -/
def index? (v : Int64) (count : Nat) : Option Nat :=
  if 0 ≤ v.toInt ∧ v.toInt < count then some v.toInt.toNat else none

/-- The faces of the brush record with number `i`. -/
def BrushRecord.faces (b : BrushRecord) (i planeCount : Nat) : Except Defect (List PlaneId) :=
  b.planes.mapM fun v =>
    match index? v planeCount with
    | some k => .ok (.ofIndex k)
    | none => .error (.danglingPlane i v.toInt)

/-- The brushes that the leaf record with number `number` lists. -/
def NodeRecord.leafBrushes (r : NodeRecord) (number brushCount : Nat) :
    Except Defect (List BrushId) :=
  (r.brushes.getD []).mapM fun v =>
    match index? v brushCount with
    | some k => .ok (.ofIndex k)
    | none => .error (.danglingBrush number v.toInt)

/-- A flattened subtree. -/
structure Flattened (α : Type) where
  /-- The node at its top. -/
  root : NodeId
  /-- The number of the record after its last one. -/
  next : Nat
  /-- The builder with its nodes added. -/
  builder : Builder α

/-- Adds the nodes of a tree whose top record has the given number, counting records from parent to
    left to right.  A record is checked before its children. -/
def NodeTree.flatten (b : Builder α) (number : Nat) : NodeTree → Except Defect (Flattened α)
  | .absent => .error .missingRoot
  | .node r left right =>
    if r.leaf then
      if left.isAbsent && right.isAbsent then
        match r.leafBrushes number b.brushes.size with
        | .error defect => .error defect
        | .ok brushes =>
          let (root, b) := b.addLeaf brushes r.bounds
          .ok ⟨root, number + 1, b⟩
      else .error (.malformedNode number .leafWithChildren)
    else
      match index? r.plane b.planes.size with
      | none => .error (.danglingNodePlane number r.plane.toInt)
      | some plane =>
        if left.isAbsent || right.isAbsent then .error (.malformedNode number .missingChild)
        else
          match left.flatten b (number + 1) with
          | .error defect => .error defect
          | .ok front =>
            match right.flatten front.builder front.next with
            | .error defect => .error defect
            | .ok back =>
              let (root, b) := back.builder.addSplit (.ofIndex plane) front.root back.root r.bounds
              .ok ⟨root, back.next, b⟩

namespace Snapshot

/-- The builder with the planes of a snapshot. -/
def withPlanes (s : Snapshot α) : Builder α :=
  { planes := (s.planes.map fun p => ⟨p.normal, p.distance⟩).toArray }

/-- The brushes of a snapshot, or the first face that is not a plane. -/
def brushes? (s : Snapshot α) : Except Defect (List Brush) :=
  s.brushes.zipIdx.mapM fun (r, i) =>
    (r.faces i s.planes.length).map fun planes => ⟨planes, r.collidable⟩

/-- The level of a snapshot, or its first defect. -/
def build [Scalar α] (s : Snapshot α) : Except Defect (World α) :=
  if s.tree.isAbsent then .error .missingRoot
  else
    match s.brushes? with
    | .error defect => .error defect
    | .ok brushes =>
      match s.tree.flatten { s.withPlanes with brushes := brushes.toArray } 0 with
      | .error defect => .error defect
      | .ok tree => tree.builder.build tree.root

end Snapshot

end Stride
