import TableRules.Files.Path
import TableRules.Text.LetterCase

/-!
# Kinds of data files

The suffix of a data file, in any letter case, says how the file is read.
-/

namespace TableRules

/-- How a data file is read. -/
inductive FileKind
  | delimited
  | spreadsheet
  deriving DecidableEq, Repr

namespace FileKind

/-- The identifier of a kind. -/
def name : FileKind → String
  | .delimited => "delimited"
  | .spreadsheet => "spreadsheet"

/-- The suffixes of data files, in the order in which they are listed. -/
def suffixes : List (String × FileKind) :=
  [(".csv", .delimited), (".tsv", .delimited), (".txt", .delimited), (".xlsm", .spreadsheet),
   (".xlsx", .spreadsheet)]

/-- The suffix of a path, in small letters. -/
def suffixOf (p : Path) : String := Text.lower p.suffix

/-- The kind of the file at a path. -/
def ofPath? (p : Path) : Option FileKind := suffixes.lookup (suffixOf p)

/-- The wording for a suffix that no data file has. -/
def refusal (suffix : String) : String :=
  "unsupported file type '" ++ suffix ++ "' (expected one of: " ++
    Text.joinWith ", " (suffixes.map (·.1)) ++ ")"

end FileKind

end TableRules
