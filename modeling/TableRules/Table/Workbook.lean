import TableRules.Table.Basic
import TableRules.Text.Digit

/-!
# Workbooks

A workbook is a list of named sheets, and a sheet is rows of cells that hold a text or nothing. The
first row of a sheet is its header:

* a column without a name is called `Unnamed:` and its position, from 0;
* a repeated name gets a point and a number, so that all names of a header are different. Named
  columns are numbered before unnamed ones.

Empty rows at the end and empty columns on the right do not belong to the table. A sheet without any
text is a table without columns.
-/

namespace TableRules

/-- A named sheet of cells. -/
structure Sheet where
  name : String
  rows : List (List (Option String))
  deriving DecidableEq, Repr

/-- The sheets of a workbook, in order. -/
abbrev Workbook : Type := List Sheet

/-- Which sheet of a workbook is meant: the one at a position, from 0 or back from the end, or the
one with a name. -/
inductive SheetChoice
  | position (n : Int)
  | named (name : String)
  deriving DecidableEq, Repr

/-- The sheet that is meant. -/
def Workbook.sheet? (w : Workbook) : SheetChoice → Option Sheet
  | .position n => if 0 ≤ n then w[n.toNat]? else w.reverse[(-n - 1).toNat]?
  | .named s => w.find? fun sheet => sheet.name == s

namespace Sheet

/-! ### The used part of a sheet -/

/-- The text of a cell. A text without characters is nothing. -/
def cellText (cell : Option String) : Option String := cell.filter (· != "")

/-- A list without the members at its end that satisfy a test. -/
def dropLastWhile {α : Type} (test : α → Bool) (xs : List α) : List α :=
  (xs.reverse.dropWhile test).reverse

/-- A row up to its last text. -/
def usedCells (row : List (Option String)) : List (Option String) :=
  dropLastWhile Option.isNone (row.map cellText)

/-- The rows up to the last one with a text, all of one width. -/
def usedRows (s : Sheet) : List (List (Option String)) :=
  let rows := dropLastWhile List.isEmpty (s.rows.map usedCells)
  let width := (rows.map List.length).foldl max 0
  rows.map fun row => row ++ List.replicate (width - row.length) none

/-! ### The names of columns -/

/-- The name of the column at a position. -/
def columnName (position : Nat) : Option String → String
  | some name => name
  | none => "Unnamed: " ++ Text.decimal position

/-- The names of a header row; repeated ones are still alike. -/
def plainNames (header : List (Option String)) : List String :=
  header.zipIdx.map fun (cell, i) => columnName i cell

/-- A name with a number. -/
def numbered (name : String) (n : Nat) : String := name ++ "." ++ Text.decimal n

/-- The names of a header while repeated ones are being told apart, and the next number of each name
that has occurred. -/
structure Naming where
  names : List String
  counts : List (String × Nat)

/-- The next number of a name; 0 if it has not occurred. -/
def Naming.count (n : Naming) (name : String) : Nat := (n.counts.lookup name).getD 0

/-- Settles the name at a position: a repeated name gets the first number, from its next one on,
that makes a name not in the header. -/
def Naming.settle (n : Naming) (position : Nat) : Naming :=
  match n.names[position]? with
  | none => n
  | some name =>
    let next := n.count name
    if next = 0 then ⟨n.names, (name, 1) :: n.counts⟩
    else
      let free := (List.range' next (n.names.length + 1)).find? fun k =>
        !n.names.contains (numbered name k)
      let k := free.getD next
      ⟨n.names.set position (numbered name k), (numbered name k, 1) :: (name, k + 1) :: n.counts⟩

/-- The names of the columns under a header row. -/
def columnNames (header : List (Option String)) : List String :=
  let (unnamed, named) := header.zipIdx.partition fun (cell, _) => cell.isNone
  let start : Naming := ⟨plainNames header, []⟩
  ((named ++ unnamed).foldl (fun (n : Naming) e => n.settle e.2) start).names

end Sheet

/-- The table that a sheet holds. -/
def Sheet.table (s : Sheet) (source : String) : Table :=
  match s.usedRows with
  | [] => ⟨[], [], some source⟩
  | header :: rows =>
    let names := Sheet.columnNames header
    ⟨names, rows.map names.zip, some source⟩

end TableRules
