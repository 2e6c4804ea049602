import Stride.Saved.Basic
import Stride.World.Snapshot

namespace Stride

/-!
# Saved snapshots

The texts of the map converter.  A field goes by its capitalised name or by the same name in lower
case, and lists and subtrees that are empty may be left out.

* `NodeTree.decode` — a tree of records, as deep as brackets may be nested.
* `World.ofText?` — the level of a text, or why there is none.
-/

open Json Saved

/-- A triple of singles in a snapshot. -/
def snapshotVec : Decoder (Vec3 Float32) := triple "an array of length 3" single

/-- A triple of integers in a snapshot. -/
def snapshotIntVec : Decoder (Vec3 Int32) := triple "an array of length 3" int32

/-- The text of numbers of items. -/
def writeIndices (is : List Int64) : List Char := writeList (fun i => writeInt i.toInt) is

/-- The numbers of items. -/
def indices : Decoder (List Int64) := list fun _ => int64

/-! ### Planes and brushes -/

/-- A field of a plane record. -/
inductive PlaneRecord.Field where
  | normal | distance
deriving DecidableEq, Repr

/-- The type of a field. -/
@[reducible] def PlaneRecord.Field.Value : PlaneRecord.Field → Type
  | normal => Vec3 Float32
  | distance => Float32

/-- Plane records in texts. -/
def PlaneRecord.schema : Schema PlaneRecord.Field PlaneRecord.Field.Value where
  name := "struct PlaneRecord"
  fields := [.normal, .distance]
  key
    | .normal => "Normal"
    | .distance => "Distance"
  aliases
    | .normal => ["normal"]
    | .distance => ["distance"]
  missing _ := none

instance : Saved (PlaneRecord Float32) where
  write p := PlaneRecord.schema.write fun
    | .normal => writeVec p.normal
    | .distance => writeSingle p.distance
  decode := (PlaneRecord.schema.decode fun
    | .normal => snapshotVec
    | .distance => fun _ => single).map fun v => ⟨v .normal, v .distance⟩

/-- A field of a brush record. -/
inductive BrushRecord.Field where
  | collidable | planes
deriving DecidableEq, Repr

/-- The type of a field. -/
@[reducible] def BrushRecord.Field.Value : BrushRecord.Field → Type
  | collidable => Bool
  | planes => List Int64

/-- Brush records in texts. -/
def BrushRecord.schema : Schema BrushRecord.Field BrushRecord.Field.Value where
  name := "struct BrushRecord"
  fields := [.collidable, .planes]
  key
    | .collidable => "Collidable"
    | .planes => "Planes"
  aliases
    | .collidable => ["collidable"]
    | .planes => ["planes"]
  missing
    | .collidable => none
    | .planes => some []

instance : Saved BrushRecord where
  write b := BrushRecord.schema.write fun
    | .collidable => writeBool b.collidable
    | .planes => writeIndices b.planes
  decode := (BrushRecord.schema.decode fun
    | .collidable => fun _ => boolean
    | .planes => indices).map fun v => ⟨v .collidable, v .planes⟩

/-! ### The tree -/

/-- A field of a node record, its children included. -/
inductive NodeRecord.Field where
  | leaf | plane | mins | maxs | left | right | brushes
deriving DecidableEq, Repr

/-- The type of a field. -/
@[reducible] def NodeRecord.Field.Value : NodeRecord.Field → Type
  | leaf => Bool
  | plane => Int64
  | mins => Vec3 Int32
  | maxs => Vec3 Int32
  | left => NodeTree
  | right => NodeTree
  | brushes => Option (List Int64)

/-- Node records in texts. -/
def NodeRecord.schema : Schema NodeRecord.Field NodeRecord.Field.Value where
  name := "struct NodeRecord"
  fields := [.leaf, .plane, .mins, .maxs, .left, .right, .brushes]
  key
    | .leaf => "Leaf"
    | .plane => "Plane"
    | .mins => "Mins"
    | .maxs => "Maxs"
    | .left => "Left"
    | .right => "Right"
    | .brushes => "Brushes"
  aliases
    | .leaf => ["leaf"]
    | .plane => ["plane"]
    | .mins => ["mins"]
    | .maxs => ["maxs"]
    | .left => ["left"]
    | .right => ["right"]
    | .brushes => ["brushes"]
  missing
    | .plane => some (-1)
    | .left => some .absent
    | .right => some .absent
    | .brushes => some none
    | .leaf | .mins | .maxs => none

namespace NodeTree

/-- The text of a tree. -/
def write : NodeTree → List Char
  | absent => writeNull
  | node r left right => NodeRecord.schema.write fun
    | .leaf => writeBool r.leaf
    | .plane => writeInt r.plane.toInt
    | .mins => writeIntVec r.bounds.mins
    | .maxs => writeIntVec r.bounds.maxs
    | .left => left.write
    | .right => right.write
    | .brushes => writeOption writeIndices r.brushes

/-- The tree whose top has the given fields. -/
def ofFields (v : (k : NodeRecord.Field) → k.Value) : NodeTree :=
  .node ⟨v .leaf, v .plane, ⟨v .mins, v .maxs⟩, v .brushes⟩ (v .left) (v .right)

/-- A tree or none. -/
def orAbsent (record : Reader ((k : NodeRecord.Field) → k.Value)) : Reader NodeTree :=
  (nullable record).map fun v => (v.map ofFields).getD absent

/-- A tree from the front of a text. -/
def decode : Decoder NodeTree
  | 0 => orAbsent (NodeRecord.schema.record none)
  | room + 1 => orAbsent <| NodeRecord.schema.record <| some fun
    | .leaf => boolean
    | .plane => int64
    | .mins => snapshotIntVec room
    | .maxs => snapshotIntVec room
    | .left => decode room
    | .right => decode room
    | .brushes => nullable (indices room)

end NodeTree

/-! ### Snapshots -/

/-- A field of a snapshot. -/
inductive Snapshot.Field where
  | planes | brushes | tree
deriving DecidableEq, Repr

/-- The type of a field. -/
@[reducible] def Snapshot.Field.Value : Snapshot.Field → Type
  | planes => List (PlaneRecord Float32)
  | brushes => List BrushRecord
  | tree => NodeTree

/-- Snapshots in texts. -/
def Snapshot.schema : Schema Snapshot.Field Snapshot.Field.Value where
  name := "struct WorldSnapshot"
  fields := [.planes, .brushes, .tree]
  key
    | .planes => "Planes"
    | .brushes => "Brushes"
    | .tree => "Tree"
  aliases
    | .planes => ["planes"]
    | .brushes => ["brushes"]
    | .tree => ["tree"]
  missing
    | .planes => some []
    | .brushes => some []
    | .tree => some .absent

instance : Saved (Snapshot Float32) where
  write s := Snapshot.schema.write fun
    | .planes => writeList Saved.write s.planes
    | .brushes => writeList Saved.write s.brushes
    | .tree => s.tree.write
  decode := (Snapshot.schema.decode fun
    | .planes => list Saved.decode
    | .brushes => list Saved.decode
    | .tree => NodeTree.decode).map fun v => ⟨v .planes, v .brushes, v .tree⟩

/-! ### Levels -/

/-- Why there is no level for a text. -/
inductive LoadError where
  /-- The text is no snapshot. -/
  | unreadable (fault : Fault)
  /-- The snapshot is no level. -/
  | defective (defect : Defect)
deriving DecidableEq

/-- The level of a text. -/
def World.ofText? (s : String) : Except LoadError (World Float32) :=
  match (Saved.ofText? s : Except Fault (Snapshot Float32)) with
  | .error fault => .error (.unreadable fault)
  | .ok snapshot => snapshot.build.mapError .defective

end Stride
