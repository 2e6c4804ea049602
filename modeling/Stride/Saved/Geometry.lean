import Stride.Saved.Basic

namespace Stride

/-!
# Saved parts of a level

Planes, bounds, brushes and nodes as they are kept by the library itself.  All their fields must be
given, and each goes by one name only.
-/

open Json Saved

/-! ### Planes -/

/-- A field of a plane. -/
inductive Plane.Field where
  | normal | distance
deriving DecidableEq, Repr

/-- The type of a field. -/
@[reducible] def Plane.Field.Value : Plane.Field → Type
  | normal => Vec3 Float32
  | distance => Float32

/-- Planes in texts. -/
def Plane.schema : Schema Plane.Field Plane.Field.Value where
  name := "struct Plane"
  fields := [.normal, .distance]
  key
    | .normal => "normal"
    | .distance => "distance"
  missing _ := none

instance : Saved (Plane Float32) where
  write p := Plane.schema.write fun
    | .normal => writeVec p.normal
    | .distance => writeSingle p.distance
  decode := (Plane.schema.decode fun
    | .normal => vec
    | .distance => fun _ => single).map fun v => ⟨v .normal, v .distance⟩

/-! ### Bounds -/

/-- A field of a box. -/
inductive Bounds.Field where
  | mins | maxs
deriving DecidableEq, Repr

/-- The type of a field. -/
@[reducible] def Bounds.Field.Value : Bounds.Field → Type
  | mins => Vec3 Int32
  | maxs => Vec3 Int32

/-- Bounds in texts. -/
def Bounds.schema : Schema Bounds.Field Bounds.Field.Value where
  name := "struct Bounds"
  fields := [.mins, .maxs]
  key
    | .mins => "mins"
    | .maxs => "maxs"
  missing _ := none

instance : Saved Bounds where
  write b := Bounds.schema.write fun
    | .mins => writeIntVec b.mins
    | .maxs => writeIntVec b.maxs
  decode := (Bounds.schema.decode fun
    | .mins => intVec
    | .maxs => intVec).map fun v => ⟨v .mins, v .maxs⟩

/-! ### Brushes -/

/-- A field of a brush. -/
inductive Brush.Field where
  | planes | collidable
deriving DecidableEq, Repr

/-- The type of a field. -/
@[reducible] def Brush.Field.Value : Brush.Field → Type
  | planes => List PlaneId
  | collidable => Bool

/-- Brushes in texts. -/
def Brush.schema : Schema Brush.Field Brush.Field.Value where
  name := "struct Brush"
  fields := [.planes, .collidable]
  key
    | .planes => "planes"
    | .collidable => "collidable"
  missing _ := none

instance : Saved Brush where
  write b := Brush.schema.write fun
    | .planes => writeList (fun id => writeId id.val) b.planes
    | .collidable => writeBool b.collidable
  decode := (Brush.schema.decode fun
    | .planes => list planeId
    | .collidable => fun _ => boolean).map fun v => ⟨v .planes, v .collidable⟩

/-! ### Nodes -/

/-- A field of a split. -/
inductive Node.SplitField where
  | plane | front | back | bounds
deriving DecidableEq, Repr

/-- The type of a field. -/
@[reducible] def Node.SplitField.Value : Node.SplitField → Type
  | plane => PlaneId
  | front => NodeId
  | back => NodeId
  | bounds => Bounds

/-- Splits in texts. -/
def Node.splitSchema : Schema Node.SplitField Node.SplitField.Value where
  name := "struct variant Node::Internal"
  fields := [.plane, .front, .back, .bounds]
  key
    | .plane => "plane"
    | .front => "front"
    | .back => "back"
    | .bounds => "bounds"
  missing _ := none

/-- A field of a leaf. -/
inductive Node.LeafField where
  | brushes | bounds
deriving DecidableEq, Repr

/-- The type of a field. -/
@[reducible] def Node.LeafField.Value : Node.LeafField → Type
  | brushes => List BrushId
  | bounds => Bounds

/-- Leaves in texts. -/
def Node.leafSchema : Schema Node.LeafField Node.LeafField.Value where
  name := "struct variant Node::Leaf"
  fields := [.brushes, .bounds]
  key
    | .brushes => "brushes"
    | .bounds => "bounds"
  missing _ := none

/-- A split. -/
def Node.decodeSplit : Decoder Node :=
  (splitSchema.decode fun
    | .plane => planeId
    | .front => nodeId
    | .back => nodeId
    | .bounds => Saved.decode).map fun v => .split (v .plane) (v .front) (v .back) (v .bounds)

/-- A leaf. -/
def Node.decodeLeaf : Decoder Node :=
  (leafSchema.decode fun
    | .brushes => list brushId
    | .bounds => Saved.decode).map fun v => .leaf (v .brushes) (v .bounds)

instance : Saved Node where
  write
    | .split plane front back bounds =>
      writeVariant "Internal" <| Node.splitSchema.write fun
        | .plane => writeId plane.val
        | .front => writeId front.val
        | .back => writeId back.val
        | .bounds => Saved.write bounds
    | .leaf brushes bounds =>
      writeVariant "Leaf" <| Node.leafSchema.write fun
        | .brushes => writeList (fun id => writeId id.val) brushes
        | .bounds => Saved.write bounds
  decode := choice
    [⟨"Internal", .holds "struct variant" Node.decodeSplit⟩,
     ⟨"Leaf", .holds "struct variant" Node.decodeLeaf⟩]

end Stride
