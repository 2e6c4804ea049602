import Stride.Json.Record

namespace Stride.Json

/-!
# Writing values

Texts without white space.  A number that is not finite has no text and is written as `null`.

* `writeSingle`, `writeInt`, `writeBool`, `writeOption` — values without brackets.
* `writeList`, `writeTriple`, `writeObject` — values with brackets.
* `writeVariant` — a variant that holds a value.
-/

/-- The word for no value. -/
def writeNull : List Char := ['n', 'u', 'l', 'l']

/-- A single. -/
def writeSingle (a : Float32) : List Char := (Numeral.json? a).getD writeNull

/-- An integer. -/
def writeInt (n : Int) : List Char := Decimal.writeInt n

/-- A truth value. -/
def writeBool (b : Bool) : List Char :=
  if b then ['t', 'r', 'u', 'e'] else ['f', 'a', 'l', 's', 'e']

/-- A value or none. -/
def writeOption {β : Type} (write : β → List Char) (v : Option β) : List Char :=
  match v with
  | none => writeNull
  | some v => write v

/-- A name between quotes.  Names hold no characters that need an escape. -/
def writeName (name : String) : List Char := '"' :: name.toList ++ ['"']

/-- Texts with commas between them. -/
def separated (texts : List (List Char)) : List Char := [','].intercalate texts

/-- An array of texts. -/
def writeArray (texts : List (List Char)) : List Char := '[' :: separated texts ++ [']']

/-- A list. -/
def writeList {β : Type} (write : β → List Char) (vs : List β) : List Char :=
  writeArray (vs.map write)

/-- A triple. -/
def writeTriple {β : Type} (write : β → List Char) (v : Vec3 β) : List Char :=
  writeList write v.toList

/-- A member of an object. -/
def writeMember (key : String) (text : List Char) : List Char := writeName key ++ ':' :: text

/-- An object of named texts. -/
def writeObject (members : List (String × List Char)) : List Char :=
  '\x7b' :: separated (members.map fun (key, text) => writeMember key text) ++ ['\x7d']

/-- A variant that holds a value. -/
def writeVariant (name : String) (text : List Char) : List Char := writeObject [(name, text)]

/-- A record, given the text of each field. -/
def Schema.write {ι : Type} {V : ι → Type} (s : Schema ι V) (text : ι → List Char) : List Char :=
  writeObject (s.fields.map fun k => (s.key k, text k))

end Stride.Json
