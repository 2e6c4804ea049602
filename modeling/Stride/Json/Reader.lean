import Stride.Json.Number
import Stride.Json.Skip
import Stride.Vec3

namespace Stride.Json

/-!
# Reading values

Readers of single values, lists and choices.  Brackets of values that count may only be nested to a
limited depth, so a reader of nested values is told how much `room` there is: the number of brackets
that may still be opened.

* `mismatch` — the fault of a value of the wrong kind.
* `single`, `integer`, `boolean`, `nullable` — values without brackets.
* `list`, `triple` — arrays.
* `choice` — one of several variants.
* `read` — a whole text.
-/

/-- A reader of values that may be nested, given the number of brackets that may still be opened. -/
abbrev Decoder (β : Type) := (room : Nat) → Reader β

/-- How many brackets may be open at once. -/
def depthLimit : Nat := 127

/-- What a text begins with, if it is well formed. -/
def found (cs : List Char) : Except Fault Found :=
  match cs with
  | [] => .error .malformed
  | c :: rest =>
    if c = 'n' then do let _ ← word ['u', 'l', 'l'] rest; return .null
    else if c = 't' then do let _ ← word ['r', 'u', 'e'] rest; return .boolean true
    else if c = 'f' then do let _ ← word ['a', 'l', 's', 'e'] rest; return .boolean false
    else if c = '"' then do let (s, _) ← stringRest rest; return .string s
    else if startsNumber c then do let (n, _) ← scanNumber cs; return n.found
    else if c = '[' then .ok .sequence
    else if c = '{' then .ok .map
    else .error .malformed

/-- The fault of a text that begins with something else than what is expected.  If that is malformed
    itself, then this is the fault. -/
def mismatch (expected : String) (cs : List Char) : Fault :=
  match found cs with
  | .ok f => .mismatch (.invalidType f expected)
  | .error fault => fault

/-! ### Values without brackets -/

/-- A number, passed on to `value`, which may refuse it. -/
def numeric {β : Type} (expected : String) (value : Number → Except Fault β) : Reader β := fun cs =>
  match skipBlank cs with
  | [] => .error .truncated
  | c :: cs =>
    if startsNumber c then do
      let (n, rest) ← scanNumber (c :: cs)
      let v ← value n
      return (v, rest)
    else .error (mismatch expected (c :: cs))

/-- A single; any number will do. -/
def single : Reader Float32 := numeric "f32" fun n => .ok n.single

/-- An integer between `lo` and `hi`. -/
def integer (expected : String) (lo hi : Int) : Reader Int :=
  numeric expected fun n =>
    match n with
    | .integer value =>
      if lo ≤ value ∧ value ≤ hi then .ok value
      else .error (.mismatch (.invalidValue value expected))
    | .double value => .error (.mismatch (.invalidType (.double value) expected))

/-- Applies a function to what a reader reads. -/
def Reader.map {β γ : Type} (f : β → γ) (r : Reader β) : Reader γ := fun cs =>
  (r cs).map fun (v, rest) => (f v, rest)

/-- Applies a function to what a reader of nested values reads. -/
def Decoder.map {β γ : Type} (f : β → γ) (d : Decoder β) : Decoder γ := fun room => (d room).map f

/-- A signed integer of 32 bits. -/
def int32 : Reader Int32 :=
  (integer "i32" Int32.minValue.toInt Int32.maxValue.toInt).map Int32.ofInt

/-- A signed integer of 64 bits. -/
def int64 : Reader Int64 :=
  (integer "i64" Int64.minValue.toInt Int64.maxValue.toInt).map Int64.ofInt

/-- A natural number of 32 bits. -/
def nat32 : Reader UInt32 := (integer "u32" 0 (UInt32.size - 1)).map fun n => .ofNat n.toNat

/-- A count, of 64 bits. -/
def count : Reader UInt64 := (integer "usize" 0 (UInt64.size - 1)).map fun n => .ofNat n.toNat

/-- One of the words `true` and `false`. -/
def boolean : Reader Bool := fun cs =>
  match skipBlank cs with
  | [] => .error .truncated
  | c :: cs =>
    if c = 't' then do return (true, ← word ['r', 'u', 'e'] cs)
    else if c = 'f' then do return (false, ← word ['a', 'l', 's', 'e'] cs)
    else .error (mismatch "a boolean" (c :: cs))

/-- The word `null`. -/
def nothing : Reader Unit := fun cs =>
  match skipBlank cs with
  | [] => .error .truncated
  | c :: cs =>
    if c = 'n' then do return ((), ← word ['u', 'l', 'l'] cs)
    else .error (mismatch "unit" (c :: cs))

/-- The word `null` or a value. -/
def nullable {β : Type} (value : Reader β) : Reader (Option β) := fun cs =>
  match skipBlank cs with
  | [] => .error .truncated
  | c :: cs =>
    if c = 'n' then do return (none, ← word ['u', 'l', 'l'] cs)
    else value.map some (c :: cs)

/-! ### Arrays -/

/-- What is left in front of the next element of an array, or `none` in front of the closing
    bracket. -/
def nextElement (first : Bool) (cs : List Char) : Except Fault (Option (List Char)) :=
  match skipBlank cs with
  | [] => .error .truncated
  | c :: cs =>
    if c = ']' then .ok none
    else if first then .ok (some (c :: cs))
    else if c = ',' then
      match skipBlank cs with
      | [] => .error .truncated
      | d :: ds => if d = ']' then .error .malformed else .ok (some (d :: ds))
    else .error .malformed

/-- What is left after a closing bracket, which must follow. -/
def closing (b : Bracket) (cs : List Char) : Except Fault (List Char) :=
  match skipBlank cs with
  | [] => .error .truncated
  | c :: cs => if c = b.close then .ok cs else .error .malformed

/-- The elements of an array up to its closing bracket, after those already read, which are given in
    reverse.  Every element takes at least one character, so a fuel as long as the text lasts to the
    text's end. -/
def elements {β : Type} (element : Reader β) :
    (fuel : List Char) → (read : List β) → Reader (List β)
  | [], _, _ => .error .truncated
  | _ :: fuel, read, cs => do
    match ← nextElement read.isEmpty cs with
    | none => return (read.reverse, ← closing .array cs)
    | some cs =>
      let (v, cs) ← element cs
      elements element fuel (v :: read) cs

/-- What follows the opening bracket of an array, if there is room for it. -/
def insideArray {β : Type} (expected : String) (inside : Decoder β) : Decoder β := fun room cs =>
  match skipBlank cs with
  | [] => .error .truncated
  | c :: cs =>
    if c = '[' then
      match room with
      | 0 => .error .malformed
      | room + 1 => inside room cs
    else .error (mismatch expected (c :: cs))

/-- An array of any length. -/
def list {β : Type} (element : Decoder β) : Decoder (List β) :=
  insideArray "a sequence" fun room cs => elements (element room) cs [] cs

/-- The element of an array at a position, of which there must be more. -/
def elementAt {β : Type} (expected : String) (element : Reader β) (index : Nat) : Reader β :=
  fun cs => do
    match ← nextElement (index == 0) cs with
    | none => .error (.mismatch (.invalidLength index expected))
    | some cs => element cs

/-- An array of exactly three elements. -/
def triple {β : Type} (expected : String) (element : Reader β) : Decoder (Vec3 β) :=
  insideArray expected fun _ cs => do
    let (x, cs) ← elementAt expected element 0 cs
    let (y, cs) ← elementAt expected element 1 cs
    let (z, cs) ← elementAt expected element 2 cs
    return (⟨x, y, z⟩, ← closing .array cs)

/-! ### Choices -/

/-- What a variant holds. -/
inductive Content (β : Type) where
  /-- Nothing: its name stands for a value. -/
  | unit (value : β)
  /-- A value of its own.  `kind` is what a message calls a variant of this sort. -/
  | holds (kind : String) (value : Decoder β)

/-- A variant of a choice. -/
structure Variant (β : Type) where
  /-- Its name in texts. -/
  name : String
  /-- What it holds. -/
  content : Content β

/-- The variant of a name. -/
def variantOf {β : Type} (variants : List (Variant β)) (name : List Char) :
    Except Fault (Variant β) :=
  match variants.find? fun v => v.name.toList == name with
  | some v => .ok v
  | none => .error (.mismatch (.unknownVariant name (variants.map (·.name))))

/-- The name of a variant in the place of a key, which must be a string.  Like any key it is looked
    for by its quote, so that a number, `null` or a bracket in its place is malformed, and is no
    mismatch of types. -/
def variantName : Reader (List Char) := fun cs =>
  match skipBlank cs with
  | [] => .error .truncated
  | c :: cs => if c = '"' then stringRest cs else .error .malformed

/-- The value of a variant whose bare name was read. -/
def Variant.bare {β : Type} (v : Variant β) : Except Fault β :=
  match v.content with
  | .unit value => .ok value
  | .holds kind _ => .error (.mismatch (.invalidType .unitVariant kind))

/-- The value of a variant from what stands after its name and a colon. -/
def Variant.inside {β : Type} (v : Variant β) : Decoder β := fun room cs =>
  match v.content with
  | .unit value => do return (value, (← nothing cs).2)
  | .holds _ decode => decode room cs

/-- One of several variants: the bare name of a variant that holds nothing, or an object whose only
    member is the variant. -/
def choice {β : Type} (variants : List (Variant β)) : Decoder β := fun room cs =>
  match skipBlank cs with
  | [] => .error .truncated
  | c :: cs =>
    if c = '"' then do
      let (name, cs) ← stringRest cs
      let v ← variantOf variants name
      return (← v.bare, cs)
    else if c = '{' then
      match room with
      | 0 => .error .malformed
      | room + 1 => do
        let (name, cs) ← variantName cs
        let v ← variantOf variants name
        let (value, cs) ← v.inside room (← colon cs)
        return (value, ← closing .object cs)
    else .error .malformed

/-! ### Whole texts -/

/-- The value of a whole text, around which there may be white space only. -/
def read {β : Type} (decode : Decoder β) (text : List Char) : Except Fault β := do
  let (value, rest) ← decode depthLimit text
  if (skipBlank rest).isEmpty then return value else .error .malformed

end Stride.Json
