import Stride.Text.Unprintable

namespace Stride.Text

/-!
# Quoted texts

A text between quotes in a message.  Quotes, backslashes and the usual controls are written with a
backslash, and any other character that would not be seen by its number.

* `quoteChar` — one character of a quoted text.
* `quote` — the whole text.
-/

/-- One character of a quoted text. -/
def quoteChar (c : Char) : List Char :=
  if c = '"' then ['\\', '"']
  else if c = '\\' then ['\\', '\\']
  else if c = '\n' then ['\\', 'n']
  else if c = '\r' then ['\\', 'r']
  else if c = '\t' then ['\\', 't']
  else if c.toNat = 0 then ['\\', '0']
  else if Unprintable c then ['\\', 'u', '\x7b'] ++ Nat.toDigits 16 c.toNat ++ ['\x7d']
  else [c]

/-- The text between quotes. -/
def quote (s : List Char) : List Char := '"' :: s.flatMap quoteChar ++ ['"']

end Stride.Text
