import Stride.Json.Lexis
import Stride.Single

namespace Stride.Json

/-!
# Values of numbers

The value of a number as it is written.  An integer that fits 64 bits is kept as it is.  All other
numbers are doubles: a significand of up to 64 bits, multiplied or divided once by a power of ten,
so that the result may be off the nearest double in the last place.

* `absorb` — as many digits as fit into 64 bits.
* `scale?` — a significand times a power of ten.
* `Literal.number` — the value, or its fault if it is beyond all doubles.
-/

/-- The value of a number. -/
inductive Number where
  /-- An integer of at most 64 bits. -/
  | integer (value : Int)
  /-- Any other number. -/
  | double (value : Float)
deriving DecidableEq

/-- The value as it is reported where it was not expected. -/
def Number.found : Number → Found
  | integer value => .integer value
  | double value => .double value

/-- The value in single precision.  A double is rounded a second time. -/
def Number.single : Number → Float32
  | integer value => Single.ofInt value
  | double value => Single.ofDouble value

/-- The value of a digit. -/
def digitValue (c : Char) : Nat := c.toNat - '0'.toNat

/-- Appends digits to a value as long as it stays below `2 ^ 64`, and returns the digits left
    over. -/
def absorb : (value : Nat) → List Char → Nat × List Char
  | value, [] => (value, [])
  | value, c :: cs =>
    if 10 * value + digitValue c < UInt64.size then absorb (10 * value + digitValue c) cs
    else (value, c :: cs)

/-- The number that digits make up. -/
def digitsValue (ds : List Char) : Nat := ds.foldl (fun n c => 10 * n + digitValue c) 0

/-- The double nearest to a natural number. -/
def doubleOfNat (n : Nat) : Float := .ofModel (Float.Model.ofInt n)

/-- The double nearest to a power of ten. -/
def tenPow (n : Nat) : Float := Float.ofScientific 1 false n

/-- The greatest power of ten that is a finite double. -/
def greatestTenPow : Nat := 308

/-- A significand times a power of ten, if it is a finite double.  A division by more than the
    greatest power of ten is done in two steps, after which nothing is left. -/
def scale? (significand : Nat) (exponent : Int) : Option Float :=
  let f := doubleOfNat significand
  let n := exponent.natAbs
  if 0 ≤ exponent then
    if n ≤ greatestTenPow then
      let d := f * tenPow n
      if d.isInf then none else some d
    else if significand = 0 then some f
    else none
  else if n ≤ greatestTenPow then some (f / tenPow n)
  else
    let f := f / tenPow greatestTenPow
    let n := n - greatestTenPow
    if n ≤ greatestTenPow then some (f / tenPow n) else some 0

/-- The value of an integer of at most 64 bits.  A negative one that does not fit a signed word is a
    double, and so is a negative zero. -/
def Number.ofWhole (negative : Bool) (value : Nat) : Number :=
  if negative then
    if value = 0 ∨ Int64.maxValue.toInt + 1 < value then .double (-doubleOfNat value)
    else .integer (-value)
  else .integer value

namespace Literal

/-- The exponent as it is written. -/
def exponentValue (l : Literal) : Int :=
  match l.exponent with
  | none => 0
  | some (negative, digits) => if negative then -digitsValue digits else digitsValue digits

/-- Whether the number is written without a point and without an exponent. -/
def isWhole (l : Literal) : Bool := l.fraction.isEmpty && l.exponent.isNone

/-- The value of a number.  Digits that do not fit the significand are dropped; those before the
    point still count as places. -/
def number (l : Literal) : Except Fault Number :=
  let (whole, places) := absorb 0 l.whole
  if l.isWhole && places.isEmpty then .ok (.ofWhole l.negative whole)
  else
    let (significand, dropped) := absorb whole l.fraction
    let taken := l.fraction.length - dropped.length
    match scale? significand (places.length - taken + l.exponentValue) with
    | some d => .ok (.double (if l.negative then -d else d))
    | none => .error .malformed

end Literal

/-- A number in a place where its value counts. -/
def scanNumber : Reader Number := fun cs => do
  let (literal, cs) ← scanLiteral .truncated cs
  let n ← literal.number
  return (n, cs)

end Stride.Json
