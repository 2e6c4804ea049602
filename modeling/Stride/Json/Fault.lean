import Stride.Decimal.Binary
import Stride.Text.Quoted

namespace Stride.Json

/-!
# Faults of a text

Why a JSON text is not the value that was asked for.  A text is read strictly from left to right
and the first problem is its fault, so what follows a problem is never looked at.

* `Found` — what stood in a place where something else was expected.
* `Problem` — a well-formed part that does not fit the type, with its `message`.
* `Fault` — the three kinds: the text ends too early, is malformed, or does not fit.
-/

/-- What stood in a place where something else was expected. -/
inductive Found where
  /-- The word `null`. -/
  | null
  /-- One of the words `true` and `false`. -/
  | boolean (value : Bool)
  /-- A number that was read as an integer. -/
  | integer (value : Int)
  /-- A number that was read as a double. -/
  | double (value : Float)
  /-- A string. -/
  | string (value : List Char)
  /-- An array. -/
  | sequence
  /-- An object. -/
  | map
  /-- The bare name of a variant. -/
  | unitVariant
deriving DecidableEq

/-- What was found, in words. -/
def Found.message : Found → String
  | null => "null"
  | boolean value => s!"boolean `{value}`"
  | integer value => s!"integer `{value}`"
  | double value => s!"floating point `{Numeral.jsonDouble value}`"
  | string value => s!"string {String.ofList (Text.quote value)}"
  | sequence => "sequence"
  | map => "map"
  | unitVariant => "unit variant"

/-- Why a well-formed part of a text does not fit the type it is read as. -/
inductive Problem where
  /-- A member that must be given is not. -/
  | missingField (name : String)
  /-- A member is given twice. -/
  | duplicateField (name : String)
  /-- A value of another kind stands there. -/
  | invalidType (found : Found) (expected : String)
  /-- An integer is out of range. -/
  | invalidValue (found : Int) (expected : String)
  /-- An array is too short. -/
  | invalidLength (length : Nat) (expected : String)
  /-- There is no variant of that name. -/
  | unknownVariant (name : List Char) (known : List String)
deriving DecidableEq

/-- The names that would have been right, in words. -/
def oneOf : List String → String
  | [] => "nothing"
  | [a] => s!"`{a}`"
  | [a, b] => s!"`{a}` or `{b}`"
  | names => "one of " ++ ", ".intercalate (names.map fun a => s!"`{a}`")

/-- The problem in words. -/
def Problem.message : Problem → String
  | missingField name => s!"missing field `{name}`"
  | duplicateField name => s!"duplicate field `{name}`"
  | invalidType found expected => s!"invalid type: {found.message}, expected {expected}"
  | invalidValue found expected => s!"invalid value: integer `{found}`, expected {expected}"
  | invalidLength length expected => s!"invalid length {length}, expected {expected}"
  | unknownVariant name known =>
    s!"unknown variant `{String.ofList name}`, expected {oneOf known}"

/-- Why a text is refused. -/
inductive Fault where
  /-- The text ends before the value does. -/
  | truncated
  /-- The text is not well formed, or is nested too deeply. -/
  | malformed
  /-- A part of the text does not fit the type. -/
  | mismatch (problem : Problem)
deriving DecidableEq

end Stride.Json
