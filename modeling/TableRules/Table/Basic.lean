import TableRules.Number.Notation
import TableRules.Text.Search

/-!
# Tables

A table is a header and rows of raw cells. A cell that is absent from its row, or present without a
value, is `none`. A row is kept as its entries; where a column occurs twice in it, the last entry
counts.
-/

namespace TableRules

/-- The content of a cell as a reader of files delivers it. -/
inductive Datum
  | absent
  | text (s : String)
  | integer (n : Int)
  | real (x : Double)
  | boolean (b : Bool)
  deriving DecidableEq

/-- The raw text of a cell. -/
def Datum.raw? : Datum → Option String
  | .absent => none
  | .text s => some s
  | .integer n => some (Text.decimalInt n)
  | .real x => some x.text
  | .boolean b => some (if b then "True" else "False")

/-- The entries of a row. -/
abbrev Row : Type := List (String × Option String)

/-- The raw cell of a row in a column. -/
def Row.cell (row : Row) (column : String) : Option String :=
  ((row.reverse.find? fun e => e.1 == column).map (·.2)).join

/-- A header and rows of raw cells, and where they came from. -/
structure Table where
  header : List String
  rows : List Row
  source : Option String
  deriving DecidableEq, Repr

namespace Table

/-- The number of rows. -/
def rowCount (t : Table) : Nat := t.rows.length

/-- The number of columns in the header. -/
def columnCount (t : Table) : Nat := t.header.length

/-- Whether the header has a column. -/
def hasColumn (t : Table) (column : String) : Bool := t.header.contains column

/-- The raw cells of a column, row by row. -/
def column (t : Table) (column : String) : List (Option String) :=
  t.rows.map fun r => r.cell column

/-- A table of rows that list their cells in the order of the header. Missing cells at the end of a
row are absent, cells beyond the header are dropped. -/
def ofCells (header : List String) (rows : List (List Datum)) (source : Option String) : Table :=
  ⟨header, rows.map fun cells => header.zip (cells.map Datum.raw?), source⟩

/-- A table of records. Without a header its columns are those of the records, in order of first
occurrence. -/
def ofRecords (records : List (List (String × Datum))) (header : Option (List String)) : Table :=
  let rows : List Row := records.map fun r => r.map fun e => (e.1, e.2.raw?)
  ⟨header.getD (Text.distinct (rows.flatMap fun r => r.map (·.1))), rows, none⟩

end Table

end TableRules
