namespace Stride

/-!
# Scalars

The numbers that distances, times and velocities are made of.  Every computation of the
library is written once over `Scalar`, in a fixed order of operations, and is run at
single precision.  At an ordered field the same definitions are the exact reading of the
same formulas, so that rounding and geometry can be told apart.

* `Scalar` — the operations: field arithmetic, an order that may be partial (a NaN compares
  with nothing), square root, finiteness, and decimal literals.
* `minNum`, `maxNum` — extrema that ignore an operand that is not a number.
* `clamp`, `mix` — limiting and interpolation.
-/

/-- The operations that geometry and motion are written in. -/
class Scalar (α : Type) extends Add α, Sub α, Mul α, Div α, Neg α, LT α, LE α, Zero α, One α,
    OfScientific α where
  /-- The square root. -/
  sqrt : α → α
  /-- Whether the value is an ordinary number, neither infinite nor a NaN. -/
  isFinite : α → Bool
  /-- The order is decidable. -/
  decLt : DecidableLT α
  /-- The order is decidable. -/
  decLe : DecidableLE α

namespace Scalar

variable {α : Type} [Scalar α]

instance (a b : α) : Decidable (a < b) := decLt a b

instance (a b : α) : Decidable (a ≤ b) := decLe a b

/-- Equality as numbers: the two zeros are the same, and a NaN is not the same as anything. -/
def same (a b : α) : Bool := a ≤ b && b ≤ a

/-- The absolute value. -/
@[specialize] def abs (a : α) : α := if a < 0 then -a else a

/-- The smaller number.  An operand that is not a number (it fails `b ≤ b`) is passed over;
    of two equal numbers the second is taken. -/
@[specialize] def minNum (a b : α) : α := if a < b then a else if b ≤ b then b else a

/-- The greater number, with the same rules as `minNum`. -/
@[specialize] def maxNum (a b : α) : α := if b < a then a else if b ≤ b then b else a

/-- The nearest point of `[lo, hi]`; what is not a number stays as it is. -/
@[specialize] def clamp (lo hi a : α) : α := if a < lo then lo else if hi < a then hi else a

/-- The point a fraction `t` of the way from `a` to `b`. -/
@[specialize] def mix (a b t : α) : α := a + (b - a) * t

end Scalar

end Stride
