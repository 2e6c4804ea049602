import Stride.Motion.Tuning
import Stride.Saved.Basic

namespace Stride

/-!
# Saved tunings

A tuning goes by the names of its parameters.  A parameter that is left out has the value that it
has in `Tuning.classic`.
-/

open Json Saved

namespace Tuning

/-- Tunings in texts. -/
def schema : Schema Key (Key.Value Float32) where
  name := "struct MovementConfig"
  fields := Key.all
  key := Key.name
  missing k := some ((classic : Tuning Float32).get k)

/-- The text of a parameter. -/
def writeValue : (k : Key) → k.Value Float32 → List Char
  | .maxBumps, n => writeInt n.toNat
  | .playerRadius, a | .maxSpeed, a | .gravity, a | .friction, a | .stopSpeed, a
  | .groundAcceleration, a | .airAcceleration, a | .stepHeight, a | .minGroundNormal, a
  | .groundCheckEpsilon, a | .groundSeparationSpeed, a | .overclip, a | .maxFrameTime, a =>
    writeSingle a

/-- The value of a parameter. -/
def decodeValue : (k : Key) → Reader (k.Value Float32)
  | .maxBumps => count
  | .playerRadius | .maxSpeed | .gravity | .friction | .stopSpeed | .groundAcceleration
  | .airAcceleration | .stepHeight | .minGroundNormal | .groundCheckEpsilon
  | .groundSeparationSpeed | .overclip | .maxFrameTime => single

end Tuning

instance : Saved (Tuning Float32) where
  write t := Tuning.schema.write fun k => Tuning.writeValue k (t.get k)
  decode := (Tuning.schema.decode fun k _ => Tuning.decodeValue k).map Tuning.ofValues

end Stride
