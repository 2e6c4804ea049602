import Stride.Json.Fault

namespace Stride.Json

/-!
# Words of a text

The smallest parts of a JSON text.  Every function here takes what is left of the text and returns
what it read together with what is left after it.

* `skipBlank` — white space.
* `word` — the rest of a fixed word.
* `scanString` — a string after its opening quote, with its escapes resolved.
* `scanLiteral` — the parts of a number.
-/

/-- A function that reads a value from the front of a text. -/
abbrev Reader (β : Type) := List Char → Except Fault (β × List Char)

/-- White space between the parts of a text. -/
def isBlank (c : Char) : Bool := c == ' ' || c == '\n' || c == '\t' || c == '\r'

/-- What is left after white space. -/
def skipBlank (cs : List Char) : List Char := cs.dropWhile isBlank

/-- What is left after a fixed word. -/
def word : (expected : List Char) → List Char → Except Fault (List Char)
  | [], cs => .ok cs
  | _ :: _, [] => .error .truncated
  | w :: ws, c :: cs => if c = w then word ws cs else .error .malformed

theorem skipBlank_cons {c : Char} (h : isBlank c = false) (cs : List Char) :
    skipBlank (c :: cs) = c :: cs := by
  simp [skipBlank, h]

/-- White space in front of a text does not matter. -/
theorem skipBlank_append {bs : List Char} (h : ∀ b ∈ bs, isBlank b = true) (cs : List Char) :
    skipBlank (bs ++ cs) = skipBlank cs := by
  induction bs with
  | nil => rfl
  | cons b bs ih => simp_all [skipBlank]

@[simp] theorem word_append (ws cs : List Char) : word ws (ws ++ cs) = .ok cs := by
  induction ws with
  | nil => rfl
  | cons w ws ih => simp [word, ih]

/-! ### Strings -/

/-- The character that an escape of one letter stands for. -/
def escaped? (c : Char) : Option Char :=
  match c with
  | '"' => some '"'
  | '\\' => some '\\'
  | '/' => some '/'
  | 'b' => some '\x08'
  | 'f' => some '\x0c'
  | 'n' => some '\n'
  | 'r' => some '\r'
  | 't' => some '\t'
  | _ => none

/-- The value of a hexadecimal digit. -/
def hexDigit? (c : Char) : Option Nat :=
  if '0' ≤ c ∧ c ≤ '9' then some (c.toNat - '0'.toNat)
  else if 'a' ≤ c ∧ c ≤ 'f' then some (c.toNat - 'a'.toNat + 10)
  else if 'A' ≤ c ∧ c ≤ 'F' then some (c.toNat - 'A'.toNat + 10)
  else none

/-- Controls may not stand in a string as they are. -/
def isControl (c : Char) : Bool := c.toNat < 0x20

/-- The fault of a numeric escape with `count` digits before `cs`, which does not go on with a
    digit: an escape that has fewer than four bytes left is cut off rather than wrong. -/
def codeFault (count : Nat) (cs : List Char) : Fault :=
  if count + (String.ofList (cs.take (4 - count))).utf8ByteSize < 4 then .truncated else .malformed

/-- What a numeric escape stands for. -/
inductive Code where
  /-- A character. -/
  | char (c : Char)
  /-- The first half of a pair, still without its second half. -/
  | firstHalf (value : Nat)
  /-- A half of a pair that stands in the wrong place. -/
  | lone
deriving DecidableEq, Repr

/-- What a numeric escape stands for, after the first half of a pair if there is one. -/
def Code.ofValue : (first : Option Nat) → (value : Nat) → Code
  | none, value =>
    if 0xD800 ≤ value ∧ value ≤ 0xDBFF then .firstHalf value
    else if 0xDC00 ≤ value ∧ value ≤ 0xDFFF then .lone
    else .char (Char.ofNat value)
  | some first, value =>
    if 0xDC00 ≤ value ∧ value ≤ 0xDFFF then
      .char (Char.ofNat (0x10000 + (first - 0xD800) * 0x400 + (value - 0xDC00)))
    else .lone

/-- Where the reading of a string stands. -/
inductive StringState where
  /-- Between two characters. -/
  | plain
  /-- After a backslash. -/
  | escape
  /-- Within a numeric escape, of which `count` digits make up `value`. -/
  | code (first : Option Nat) (count value : Nat)
  /-- After the first half of a pair. -/
  | half (first : Nat)
  /-- After the first half of a pair and a backslash. -/
  | halfEscape (first : Nat)
deriving DecidableEq, Repr

/-- The characters of a string up to its closing quote, after those already read, which are given in
    reverse. -/
def scanString : StringState → (read : List Char) → Reader (List Char)
  | _, _, [] => .error .truncated
  | .plain, read, c :: cs =>
    if c = '"' then .ok (read.reverse, cs)
    else if c = '\\' then scanString .escape read cs
    else if isControl c then .error .malformed
    else scanString .plain (c :: read) cs
  | .escape, read, c :: cs =>
    if c = 'u' then scanString (.code none 0 0) read cs
    else
      match escaped? c with
      | some d => scanString .plain (d :: read) cs
      | none => .error .malformed
  | .code first count value, read, c :: cs =>
    match hexDigit? c with
    | none => .error (codeFault count (c :: cs))
    | some digit =>
      let value := 16 * value + digit
      if count < 3 then scanString (.code first (count + 1) value) read cs
      else
        match Code.ofValue first value with
        | .char d => scanString .plain (d :: read) cs
        | .firstHalf first => scanString (.half first) read cs
        | .lone => .error .malformed
  | .half first, read, c :: cs =>
    if c = '\\' then scanString (.halfEscape first) read cs else .error .malformed
  | .halfEscape first, read, c :: cs =>
    if c = 'u' then scanString (.code (some first) 0 0) read cs else .error .malformed

/-- A string after its opening quote. -/
def stringRest : Reader (List Char) := scanString .plain []

/-- A character that stands for itself in a string. -/
def isPlain (c : Char) : Bool := c != '"' && c != '\\' && !isControl c

theorem scanString_plain {s : List Char} (h : ∀ c ∈ s, isPlain c = true)
    (read cs : List Char) :
    scanString .plain read (s ++ '"' :: cs) = .ok (read.reverse ++ s, cs) := by
  induction s generalizing read with
  | nil => simp [scanString]
  | cons c s ih =>
    have hc : c ≠ '"' ∧ c ≠ '\\' ∧ isControl c = false := by
      simpa [isPlain, and_assoc] using h c (by simp)
    simp [scanString, hc.1, hc.2.1, hc.2.2, ih fun d hd => h d (by simp [hd])]

/-- A string without escapes is what stands before its closing quote. -/
theorem stringRest_plain {s : List Char} (h : ∀ c ∈ s, isPlain c = true) (cs : List Char) :
    stringRest (s ++ '"' :: cs) = .ok (s, cs) := by
  simpa [stringRest] using scanString_plain h [] cs

/-! ### Numbers -/

/-- A number as it is written. -/
structure Literal where
  /-- Whether it starts with a minus sign. -/
  negative : Bool
  /-- The digits before the point. -/
  whole : List Char
  /-- The digits after the point; there are none if there is no point. -/
  fraction : List Char
  /-- The digits of the exponent and whether they follow a minus sign. -/
  exponent : Option (Bool × List Char)
deriving DecidableEq, Repr

/-- At least one digit, where `atEnd` is the fault of a text that ends instead. -/
def someDigits (atEnd : Fault) : Reader (List Char) := fun cs =>
  match cs.takeWhile Char.isDigit, cs.dropWhile Char.isDigit with
  | [], [] => .error atEnd
  | [], _ :: _ => .error .malformed
  | ds, rest => .ok (ds, rest)

/-- The digits before the point.  A zero in front of other digits is refused. -/
def wholeDigits (atEnd : Fault) : Reader (List Char)
  | '0' :: cs =>
    if cs.head?.any Char.isDigit then .error .malformed else .ok (['0'], cs)
  | cs => someDigits atEnd cs

/-- The digits after the point, if a point follows. -/
def fractionDigits (atEnd : Fault) : Reader (List Char)
  | '.' :: cs => someDigits atEnd cs
  | cs => .ok ([], cs)

/-- The sign of an exponent. -/
def exponentSign : List Char → Bool × List Char
  | '+' :: cs => (false, cs)
  | '-' :: cs => (true, cs)
  | cs => (false, cs)

/-- The exponent, if there is one. -/
def exponentDigits (atEnd : Fault) (cs : List Char) :
    Except Fault (Option (Bool × List Char) × List Char) :=
  match cs with
  | [] => .ok (none, [])
  | c :: rest =>
    if c = 'e' ∨ c = 'E' then do
      let (negative, rest) := exponentSign rest
      let (digits, rest) ← someDigits atEnd rest
      return (some (negative, digits), rest)
    else .ok (none, cs)

/-- The sign of a number. -/
def literalSign : List Char → Bool × List Char
  | '-' :: cs => (true, cs)
  | cs => (false, cs)

/-- A number, where `atEnd` is the fault of a text that ends where a digit is due. -/
def scanLiteral (atEnd : Fault) : Reader Literal := fun cs => do
  let (negative, cs) := literalSign cs
  let (whole, cs) ← wholeDigits atEnd cs
  let (fraction, cs) ← fractionDigits atEnd cs
  let (exponent, cs) ← exponentDigits atEnd cs
  return (⟨negative, whole, fraction, exponent⟩, cs)

/-- Whether a number starts with this character. -/
def startsNumber (c : Char) : Bool := c == '-' || c.isDigit

end Stride.Json
