import TableRules.Table.Basic
import TableRules.Text.Digit
import TableRules.Text.LetterCase

/-!
# Delimited texts

A delimited text is a table line by line. Cells stand between delimiters; a cell in double quotes
may hold delimiters, and a backslash in it takes the next character as it is. The first line is the
header, and lines without characters are left out.
-/

namespace TableRules.Delimited

/-- The quote around a cell. -/
def quote : Char := '"'

/-- Reads the rest of a cell in quotes: its text and what follows the closing quote. Without a
closing quote the cell reaches to the end of the line. -/
def quotedCell : List Char → List Char × List Char
  | [] => ([], [])
  | '\\' :: c :: rest =>
    let (cell, after) := quotedCell rest
    (c :: cell, after)
  | c :: rest =>
    if c == quote then ([], rest)
    else
      let (cell, after) := quotedCell rest
      (c :: cell, after)

/-- Puts a character in front of the first of some cells. -/
def prepend (c : Char) : List (List Char) → List (List Char)
  | [] => [[c]]
  | cell :: cells => (c :: cell) :: cells

/-- The cells of a line; `start` says whether a cell starts here, and `skip` counts the characters
that belong to a cell in quotes. -/
def cellsFrom (delimiter : Char) (start : Bool) : Nat → List Char → List (List Char)
  | _, [] => [[]]
  | skip + 1, _ :: cs => cellsFrom delimiter false skip cs
  | 0, c :: cs =>
    if c == delimiter then [] :: cellsFrom delimiter true 0 cs
    else if start && c == quote then
      let (cell, after) := quotedCell cs
      cell.foldr prepend (cellsFrom delimiter false (cs.length - after.length) cs)
    else prepend c (cellsFrom delimiter false 0 cs)

/-- The cells of a line. -/
def cells (delimiter : Char) (line : List Char) : List (Option String) :=
  (cellsFrom delimiter true 0 line).map fun cell =>
    if cell.isEmpty then none else some (String.ofList cell)

/-- The names of the columns under a header. A column without a name is named for its position, and
a name that occurs more than once, in any letter case, gets its position. -/
def columnNames (header : List (Option String)) : List String :=
  let folded := header.map fun cell => Text.lower (cell.getD "")
  header.zipIdx.map fun (cell, i) =>
    match cell with
    | none => "_c" ++ Text.decimal i
    | some name => if 1 < folded.count (Text.lower name) then name ++ Text.decimal i else name

/-- The table of a delimited text. -/
def table (delimiter : Char) (text source : String) : Table :=
  let lines := (Text.splitAtChars (· == '\n') text.toList).filter fun l => !l.isEmpty
  match lines with
  | [] => ⟨[], [], some source⟩
  | header :: rows =>
    let names := columnNames (cells delimiter header)
    ⟨names, rows.map fun row => names.zip (cells delimiter row), some source⟩

end TableRules.Delimited
