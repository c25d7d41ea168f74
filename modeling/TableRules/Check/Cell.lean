import TableRules.Table.Basic
import TableRules.Value.Coercion

/-!
# Cells

A cell is a raw cell as the rules see it: its row, its trimmed text, whether it is null, and what
was read of it if its column declares a type.

Two cells have the same key (`Cell.sameKey`) when both were read as values, and these and their date
formats are equal, or when neither was and their texts are.
-/

namespace TableRules

/-- A cell as the rules see it. -/
structure Cell where
  row : Nat
  raw : Option String
  text : String
  isNull : Bool
  reading : Option Reading
  deriving DecidableEq

namespace Cell

/-- Reads a cell; without a type nothing is read of it. -/
def read (settings : Settings) (catalog : Catalog) (type : Option ValueType) (row : Nat)
    (raw : Option String) : Except NumberFault Cell :=
  let cell (reading : Option Reading) : Cell :=
    ⟨row, raw, Text.trim (raw.getD ""), TableRules.isNull raw settings, reading⟩
  match type with
  | none => .ok (cell none)
  | some t => (coerce raw t settings catalog).map fun r => cell (some r)

/-- Reads cells, numbering their rows from `row` on. -/
def readFrom (settings : Settings) (catalog : Catalog) (type : Option ValueType) (row : Nat) :
    List (Option String) → Except NumberFault (List Cell)
  | [] => .ok []
  | raw :: rest => do
    let cell ← read settings catalog type row raw
    return cell :: (← readFrom settings catalog type (row + 1) rest)

/-- Reads the cells of a column. -/
def readColumn (settings : Settings) (catalog : Catalog) (type : Option ValueType) (table : Table)
    (column : String) : Except NumberFault (List Cell) :=
  readFrom settings catalog type 1 (table.column column)

/-- The typed value of a cell, if it was read as one. -/
def typed? (c : Cell) : Option TypedValue := c.reading.bind Reading.value?

/-- Whether a cell does not fit the type of its column. -/
def isMisfit (c : Cell) : Bool := c.reading.any Reading.isMisfit

/-- The value and the date format of a cell that was read as a value. -/
def valueKey? (c : Cell) : Option (Value × Option String) :=
  c.typed?.bind fun v => v.value.map fun x => (x, v.format)

/-- Whether two cells have the same key. -/
def sameKey (c d : Cell) : Bool :=
  match c.valueKey?, d.valueKey? with
  | some (x, f), some (y, g) => x.equal y && f == g
  | none, none => c.text == d.text
  | _, _ => false

/-- The number of cells of a column that are not null and have the key of a cell. -/
def occurrences (column : List Cell) (c : Cell) : Nat :=
  (column.filter fun d => !d.isNull && c.sameKey d).length

end Cell

end TableRules
