import TableRules.Text.Printable
import TableRules.Text.Search

/-!
# The quoted form of a text

A text is shown between quotes with everything unprintable escaped, so that the quoted form is one
printable line.

* The quote is `'`, unless the text holds `'` and no `"`.
* A backslash and the quote in use are written after a backslash; tab, line feed and carriage
  return as `\t`, `\n` and `\r`.
* Any other unprintable character is written by its code point in hexadecimal, in the shortest of
  the forms `\xNN`, `\uNNNN` and `\UNNNNNNNN` that holds it.
-/

namespace TableRules.Text

/-- The quote that a text is shown between. -/
def quoteFor (cs : List Char) : Char :=
  if cs.contains '\x27' && !cs.contains '\x22' then '\x22' else '\x27'

/-- A number in hexadecimal, filled with zeros to a width. -/
def hexadecimal (width n : Nat) : List Char :=
  let ds := Nat.toDigits 16 n
  List.replicate (width - ds.length) '0' ++ ds

/-- The escaped form of one character between quotes `q`. -/
def escapeChar (q c : Char) : List Char :=
  let n := c.toNat
  if c == q || c == '\\' then ['\\', c]
  else if c == '\t' then ['\\', 't']
  else if c == '\n' then ['\\', 'n']
  else if c == '\r' then ['\\', 'r']
  else if isPrintable c then [c]
  else if n ≤ 0xFF then '\\' :: 'x' :: hexadecimal 2 n
  else if n ≤ 0xFFFF then '\\' :: 'u' :: hexadecimal 4 n
  else '\\' :: 'U' :: hexadecimal 8 n

/-- The quoted form of a text. -/
def quotedChars (cs : List Char) : List Char :=
  let q := quoteFor cs
  q :: cs.flatMap (escapeChar q) ++ [q]

/-- The quoted form of a text. -/
def quoted (s : String) : String := String.ofList (quotedChars s.toList)

/-- Quoted texts between brackets, with commas. -/
def quotedList (xs : List String) : String := "[" ++ joinWith ", " (xs.map quoted) ++ "]"

end TableRules.Text
