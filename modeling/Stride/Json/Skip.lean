import Stride.Json.Lexis

namespace Stride.Json

/-!
# Values that do not count

The value of an unknown member is passed over.  It has to be well formed, but its numbers may have
any size, the halves of its pairs need not match, and its brackets may be nested to any depth.

* `skipString` — a string after its opening quote.
* `skipValue` — a value.
-/

/-- Where the passing over of a string stands. -/
inductive SkipState where
  /-- Between two characters. -/
  | plain
  /-- After a backslash. -/
  | escape
  /-- Within a numeric escape, after `count` digits. -/
  | code (count : Nat)
deriving DecidableEq, Repr

/-- What is left after the closing quote of a string. -/
def skipStringFrom : SkipState → List Char → Except Fault (List Char)
  | _, [] => .error .truncated
  | .plain, c :: cs =>
    if c = '"' then .ok cs
    else if c = '\\' then skipStringFrom .escape cs
    else if isControl c then .error .malformed
    else skipStringFrom .plain cs
  | .escape, c :: cs =>
    if c = 'u' then skipStringFrom (.code 0) cs
    else if (escaped? c).isSome then skipStringFrom .plain cs
    else .error .malformed
  | .code count, c :: cs =>
    if (hexDigit? c).isNone then .error (codeFault count (c :: cs))
    else if count < 3 then skipStringFrom (.code (count + 1)) cs
    else skipStringFrom .plain cs

/-- What is left after a string whose opening quote has been read. -/
def skipString : List Char → Except Fault (List Char) := skipStringFrom .plain

/-- What is left after a colon. -/
def colon (cs : List Char) : Except Fault (List Char) :=
  match skipBlank cs with
  | [] => .error .truncated
  | c :: cs => if c = ':' then .ok cs else .error .malformed

/-- A bracket that is still open. -/
inductive Bracket where
  /-- The bracket of an array. -/
  | array
  /-- The bracket of an object. -/
  | object
deriving DecidableEq, Repr

/-- The character that closes a bracket. -/
def Bracket.close : Bracket → Char
  | array => ']'
  | object => '}'

/-- What is left in front of the next value within a bracket: in an object, the key is passed
    over. -/
def Bracket.enter : Bracket → List Char → Except Fault (List Char)
  | array, cs => .ok cs
  | object, cs =>
    match skipBlank cs with
    | [] => .error .truncated
    | c :: cs => if c = '"' then do colon (← skipString cs) else .error .malformed

/-- The value that starts with `c`, if it is not a bracket. -/
def skipPlain (c : Char) (cs : List Char) : Except Fault (List Char) :=
  if c = 'n' then word ['u', 'l', 'l'] cs
  else if c = 't' then word ['r', 'u', 'e'] cs
  else if c = 'f' then word ['a', 'l', 's', 'e'] cs
  else if c = '"' then skipString cs
  else if startsNumber c then (scanLiteral .malformed (c :: cs)).map (·.2)
  else .error .malformed

/-- The bracket that a character opens. -/
def Bracket.opened? (c : Char) : Option Bracket :=
  if c = '[' then some .array else if c = '{' then some .object else none

/-- What is left after a value and after all that is open around it.  If `done` is set, the value
    has been read already.  Every step takes at least one character, so a fuel as long as the text
    lasts to the text's end. -/
def skipNested : (fuel : List Char) → (done : Bool) → (stack : List Bracket) → List Char →
    Except Fault (List Char)
  | _, true, [], cs => .ok cs
  | [], _, _, _ => .error .truncated
  | _ :: fuel, true, top :: stack, cs =>
    match skipBlank cs with
    | [] => .error .truncated
    | c :: cs =>
      if c = top.close then skipNested fuel true stack cs
      else if c = ',' then do skipNested fuel false (top :: stack) (← top.enter cs)
      else .error .malformed
  | _ :: fuel, false, stack, cs =>
    match skipBlank cs with
    | [] => .error .truncated
    | c :: cs =>
      match Bracket.opened? c with
      | none => do skipNested fuel true stack (← skipPlain c cs)
      | some top =>
        match skipBlank cs with
        | [] => .error .truncated
        | d :: ds =>
          if d = top.close then skipNested fuel true stack ds
          else do skipNested fuel false (top :: stack) (← top.enter (d :: ds))

/-- What is left after a value. -/
def skipValue (cs : List Char) : Except Fault (List Char) := skipNested cs false [] cs

end Stride.Json
