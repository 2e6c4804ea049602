import Stride.Json.Writer
import Stride.World.Basic

namespace Stride

/-!
# Saved values

Values that are kept as JSON texts.  Each type says how a value is written and how it is read, and
what it is built from is declared here.

* `Saved` — a type of such values.
* `Saved.text`, `Saved.ofText?` — a value as a whole text, and back.
* `writeVec`, `vec` — vectors.
* `planeId`, `brushId`, `nodeId` — the numbers of the items of an arena.
-/

/-- A type whose values are kept as texts. -/
class Saved (β : Type) where
  /-- The text of a value. -/
  write : β → List Char
  /-- A value from the front of a text. -/
  decode : Json.Decoder β

namespace Saved

/-- A value as a text. -/
def text {β : Type} [Saved β] (v : β) : String := String.ofList (write v)

/-- The value of a text. -/
def ofText? {β : Type} [Saved β] (s : String) : Except Json.Fault β := Json.read decode s.toList

open Json

/-- A vector of singles. -/
def writeVec (v : Vec3 Float32) : List Char := writeTriple writeSingle v

/-- A vector of singles. -/
def vec : Decoder (Vec3 Float32) := triple "a sequence of 3 f32 values" single

/-- A vector of integers. -/
def writeIntVec (v : Vec3 Int32) : List Char := writeTriple (fun n => writeInt n.toInt) v

/-- A vector of integers. -/
def intVec : Decoder (Vec3 Int32) := triple "a sequence of 3 i32 values" int32

/-- The number of an item. -/
def writeId (id : UInt32) : List Char := writeInt id.toNat

/-- The number of a plane. -/
def planeId : Decoder PlaneId := fun _ => nat32.map PlaneId.mk

/-- The number of a brush. -/
def brushId : Decoder BrushId := fun _ => nat32.map BrushId.mk

/-- The number of a node. -/
def nodeId : Decoder NodeId := fun _ => nat32.map NodeId.mk

instance : Saved PlaneId where
  write id := writeId id.val
  decode := planeId

end Saved

end Stride
