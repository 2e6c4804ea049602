import Stride.Decimal.Layout

namespace Stride

/-!
# Texts of binary numbers

The number formats of the library.  Each writes a binary number by its shortest decimal in a layout
of its own, and has its own words for zero and for what is not finite.

* `Numeral.display` — a single in a message: always plain, whole numbers without a point.
* `Numeral.json?` — a single in a JSON text: powers of ten from `-6` to `12` plainly, always with a
  fraction; there is no text for what is not finite.
* `Numeral.jsonDouble` — a double in a message about a JSON text: powers from `-5` to `15` plainly.
-/

/-- A binary number taken apart, as far as its text needs it. -/
inductive Numeral where
  /-- Not a number. -/
  | nan
  /-- An infinity. -/
  | infinite (negative : Bool)
  /-- A zero. -/
  | zero (negative : Bool)
  /-- A number that is finite and not zero. -/
  | finite (negative : Bool) (magnitude : Dyadic)
deriving DecidableEq, Repr

namespace Numeral

open Float.Model (UnpackedFloat Format)

/-- The number in a format.  At a power of two the gap below is half of the gap above, unless the
    exponent is already the least of the format. -/
def ofUnpacked (format : Format) : UnpackedFloat → Numeral
  | .notANumber => .nan
  | .infinity sign => .infinite (sign == .negative)
  | .zero sign => .zero (sign == .negative)
  | .finite sign mantissa exponent _ =>
    .finite (sign == .negative)
      { mantissa, exponent
        narrowBelow :=
          mantissa == Nat.pow 2 format.mantissaBitsWithoutImplicit &&
            format.minExponent < exponent }

/-- A single taken apart. -/
def ofSingle (a : Float32) : Numeral := ofUnpacked .binary32 a.toModel.unpack

/-- A double taken apart. -/
def ofDouble (a : Float) : Numeral := ofUnpacked .binary64 a.toModel.unpack

/-- A text with a minus sign in front if the number is negative. -/
def signed (negative : Bool) (text : List Char) : List Char :=
  if negative then '-' :: text else text

/-- The text of a finite number in a layout, with `zero` for the zeros. -/
def write? (l : Decimal.Layout) (zero : List Char) : Numeral → Option (List Char)
  | .nan => none
  | .infinite _ => none
  | .zero negative => some (signed negative zero)
  | .finite negative magnitude => some (signed negative ((magnitude.shortest l.tie).write l))

/-- Numbers in messages are written plainly, whole numbers without a point; a tie goes up. -/
def displayLayout : Decimal.Layout := ⟨none, false, .up⟩

/-- Singles in JSON texts are written plainly from `10 ^ -6` to below `10 ^ 13`. -/
def jsonLayout : Decimal.Layout := ⟨some (-6, 12), true, .toEven⟩

/-- Doubles in messages about JSON texts are written plainly from `10 ^ -5` to below `10 ^ 16`. -/
def jsonDoubleLayout : Decimal.Layout := ⟨some (-5, 15), true, .toEven⟩

/-- The text of a single in a message. -/
def display (a : Float32) : String :=
  match ofSingle a with
  | .nan => "NaN"
  | .infinite negative => String.ofList (signed negative ['i', 'n', 'f'])
  | n => String.ofList ((n.write? displayLayout ['0']).getD [])

/-- The text of a single in a JSON text, if it is finite. -/
def json? (a : Float32) : Option (List Char) := (ofSingle a).write? jsonLayout ['0', '.', '0']

/-- The text of a finite double in a message about a JSON text. -/
def jsonDouble (a : Float) : String :=
  String.ofList (((ofDouble a).write? jsonDoubleLayout ['0', '.', '0']).getD [])

end Numeral

end Stride
