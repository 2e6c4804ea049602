namespace Stride

/-!
# Shortest decimals

The decimal with the fewest digits that rounds to a given binary number, and of those the nearest
to it.  All comparisons are between natural numbers, so nothing is approximated.

* `Dyadic` — a positive binary number with the gap to its lower neighbour.
* `Dyadic.Reads` — a decimal rounds to the number.
* `Tie` — what is done half way between two decimals.
* `Dyadic.shortest` — the coarsest decimal grid that has a point which rounds to the number, and
  the nearest such point.
-/

/-- A positive decimal number `digits · 10 ^ exponent`. -/
structure Decimal where
  /-- The digits, read as one number. -/
  digits : Nat
  /-- The power of ten of the last digit. -/
  exponent : Int
deriving DecidableEq, Repr

/-- A positive number `mantissa · 2 ^ exponent` of a binary format whose neighbours are one unit of
    the mantissa away, except that the lower one may be half as far. -/
structure Dyadic where
  /-- The binary digits, read as one number. -/
  mantissa : Nat
  /-- The power of two of the last binary digit. -/
  exponent : Int
  /-- Whether the gap below is half of the gap above. -/
  narrowBelow : Bool
deriving DecidableEq, Repr

/-- Which of two decimals is taken that are equally near to a number. -/
inductive Tie where
  /-- The one with an even last digit. -/
  | toEven
  /-- The greater one. -/
  | up
deriving DecidableEq, Repr

/-- The decision between the grid points `lo` and `lo + 1`. -/
def Tie.choose (lo : Nat) : Tie → Nat
  | toEven => if lo % 2 = 0 then lo else lo + 1
  | up => lo + 1

namespace Dyadic

/-- Factors that bring `· · 10 ^ k` and `· · 2 ^ r` to one scale: `d · 10 ^ k` compares with
    `c · 2 ^ r` as `d` times the first factor with `c` times the second. -/
def scales (k r : Int) : Nat × Nat :=
  (Nat.pow 10 k.toNat * Nat.pow 2 (-r).toNat, Nat.pow 10 (-k).toNat * Nat.pow 2 r.toNat)

/-- In quarters of a unit: the number itself. -/
def quarters (v : Dyadic) : Nat := 4 * v.mantissa

/-- In quarters of a unit: half way to the lower neighbour. -/
def lowerQuarters (v : Dyadic) : Nat := v.quarters - if v.narrowBelow then 1 else 2

/-- In quarters of a unit: half way to the upper neighbour. -/
def upperQuarters (v : Dyadic) : Nat := v.quarters + 2

/-- The decimal `d · 10 ^ k` rounds to the number: it lies between the half-way points, which
    themselves round to it only if the mantissa is even. -/
def Reads (v : Dyadic) (d : Nat) (k : Int) : Prop :=
  let (a, b) := scales k (v.exponent - 2)
  if v.mantissa % 2 = 0 then v.lowerQuarters * b ≤ d * a ∧ d * a ≤ v.upperQuarters * b
  else v.lowerQuarters * b < d * a ∧ d * a < v.upperQuarters * b

instance (v : Dyadic) (d : Nat) (k : Int) : Decidable (v.Reads d k) := by
  unfold Reads; exact inferInstance

/-- The point of the grid of multiples of `10 ^ k` that is nearest to the number, if it rounds to
    the number. -/
def onGrid? (v : Dyadic) (tie : Tie) (k : Int) : Option Nat :=
  let (a, b) := scales k (v.exponent - 2)
  let target := v.quarters * b
  let lo := target / a
  let hi := lo + 1
  if v.Reads lo k then
    if v.Reads hi k then
      let below := target - lo * a
      let above := hi * a - target
      some (if below < above then lo else if above < below then hi else tie.choose lo)
    else some lo
  else if v.Reads hi k then some hi
  else none

/-- The power of ten of a grid on which the number itself lies. -/
def finestGrid (v : Dyadic) : Int := min v.exponent 0

/-- The digits of the number on its finest grid. -/
def exactDigits (v : Dyadic) : Nat :=
  if v.exponent < 0 then v.mantissa * Nat.pow 5 (-v.exponent).toNat
  else v.mantissa * Nat.pow 2 v.exponent.toNat

/-- The power of ten of a grid whose least positive point is beyond the number: a little over the
    number of binary digits times the logarithm of two. -/
def coarsestGrid (v : Dyadic) : Int :=
  ((v.mantissa.log2 : Int) + 1 + v.exponent) * 30103 / 100000 + 2

/-- The search from the grid `10 ^ (finestGrid + steps)` towards finer ones. -/
def search (v : Dyadic) (tie : Tie) : (steps : Nat) → Decimal
  | 0 => ⟨v.exactDigits, v.finestGrid⟩
  | steps + 1 =>
    let k := v.finestGrid + (steps + 1 : Nat)
    match v.onGrid? tie k with
    | some d => ⟨d, k⟩
    | none => v.search tie steps

/-- The shortest decimal that rounds to the number, and the nearest such. -/
def shortest (v : Dyadic) (tie : Tie) : Decimal :=
  v.search tie (v.coarsestGrid - v.finestGrid).toNat

end Dyadic

end Stride
