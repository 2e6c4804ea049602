import Stride.Decimal.Shortest

namespace Stride.Decimal

/-!
# Writing decimals

A decimal is written plainly, with zeros up to the point, or with a power of ten.  A `Layout` says
which, by the power of ten of the leading digit.

* `Layout` — the decisions of a number format.
* `Decimal.write` — the text of a positive decimal in a layout.
-/

/-- The decisions of a number format. -/
structure Layout where
  /-- The powers of ten of the leading digit for which the number is written plainly, or `none` for
      all of them. -/
  plain : Option (Int × Int)
  /-- Whether a plainly written whole number ends in `.0`. -/
  fraction : Bool
  /-- Which of two shortest decimals is taken that are equally near. -/
  tie : Tie
deriving DecidableEq, Repr

/-- Whether the layout writes a number with this leading power of ten plainly. -/
def Layout.IsPlain (l : Layout) (lead : Int) : Prop :=
  match l.plain with
  | none => True
  | some (lo, hi) => lo ≤ lead ∧ lead ≤ hi

instance (l : Layout) (lead : Int) : Decidable (l.IsPlain lead) := by
  unfold Layout.IsPlain; split <;> exact inferInstance

/-- The characters of an integer, with a minus sign if it is negative. -/
def writeInt (n : Int) : List Char :=
  if n < 0 then '-' :: Nat.toDigits 10 n.natAbs else Nat.toDigits 10 n.natAbs

/-- The power of ten of the leading digit. -/
def lead (d : Decimal) : Int := d.exponent + ((Nat.toDigits 10 d.digits).length - 1 : Nat)

/-- The decimal with its point in place. -/
def writePlain (d : Decimal) (fraction : Bool) : List Char :=
  let ds := Nat.toDigits 10 d.digits
  if 0 ≤ d.exponent then
    ds ++ List.replicate d.exponent.toNat '0' ++ (if fraction then ['.', '0'] else [])
  else if 0 ≤ d.lead then
    ds.take (d.lead.toNat + 1) ++ '.' :: ds.drop (d.lead.toNat + 1)
  else
    '0' :: '.' :: List.replicate (-d.lead - 1).toNat '0' ++ ds

/-- The decimal with one digit before the point and a signed power of ten. -/
def writeScientific (d : Decimal) : List Char :=
  let ds := Nat.toDigits 10 d.digits
  ds.take 1 ++ (if ds.length = 1 then [] else '.' :: ds.drop 1) ++
    'e' :: (if d.lead < 0 then writeInt d.lead else '+' :: writeInt d.lead)

/-- The text of a positive decimal. -/
def write (l : Layout) (d : Decimal) : List Char :=
  if l.IsPlain d.lead then d.writePlain l.fraction else d.writeScientific

end Stride.Decimal
