import Stride.Scalar

namespace Stride

/-!
# Single precision

The scalars that the library runs on, and the conversions between them, integers and double
precision.  Each conversion works on the sign, mantissa and exponent of its argument, so
that it is exact where the result is representable and rounds to the nearest value, ties to
even, where it is not.

* `Single.floor`, `Single.ceil` — the neighbouring integers, limited to 32 bits.
* `Single.ofInt32`, `Single.ofInt`, `Single.ofDouble` — rounding into single precision.
-/

instance : Scalar Float32 where
  zero := 0
  one := 1
  sqrt := Float32.sqrt
  isFinite := Float32.isFinite
  decLt := fun a b => Float32.decLt a b
  decLe := fun a b => Float32.decLe a b

namespace Single

open Float.Model (UnpackedFloat Format)
open Float.Model.UnpackedFloat (Sign)

/-- The greatest integer that is at most `±mantissa · 2 ^ exponent`. -/
def floorOf (sign : Sign) (mantissa : Nat) (exponent : Int) : Int :=
  let m : Int := sign.apply mantissa
  let scale : Int := Nat.pow 2 exponent.natAbs
  if 0 ≤ exponent then m * scale else m.fdiv scale

/-- The greatest integer that is at most `a`, limited to 32 bits.  A NaN gives zero. -/
def floor (a : Float32) : Int32 :=
  match a.toModel.unpack with
  | .notANumber => 0
  | .infinity .positive => Int32.maxValue
  | .infinity .negative => Int32.minValue
  | .zero _ => 0
  | .finite sign mantissa exponent _ => Int32.ofIntClamp (floorOf sign mantissa exponent)

/-- The least integer that is at least `a`, limited to 32 bits.  A NaN gives zero. -/
def ceil (a : Float32) : Int32 :=
  match a.toModel.unpack with
  | .notANumber => 0
  | .infinity .positive => Int32.maxValue
  | .infinity .negative => Int32.minValue
  | .zero _ => 0
  | .finite sign mantissa exponent _ =>
    Int32.ofIntClamp (-floorOf (-sign) mantissa exponent)

/-- The single nearest to an integer. -/
def ofInt (n : Int) : Float32 := .ofModel (Float32.Model.ofInt n)

/-- The single nearest to a 32-bit integer. -/
def ofInt32 (n : Int32) : Float32 := ofInt n.toInt

/-- The single nearest to a double; beyond the range it is an infinity. -/
def ofDouble (d : Float) : Float32 :=
  .ofModel <| Float32.Model.pack <|
    match d.toModel.unpack with
    | .finite sign mantissa exponent _ => UnpackedFloat.round .binary32 sign mantissa exponent
    | special => special

end Single

end Stride
