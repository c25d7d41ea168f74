import TableRules.Calendar.CatalogText
import TableRules.Files.Entry
import TableRules.Table.Delimited
import TableRules.Table.FileKind

/-!
# Access to the files of a run

A run reads three files: rules, data and a date-format reference. An `AccessFault` says which of
them cannot be read, and why. Anything that keeps a file from being there is put down to a missing
file for rules and data; for the reference the obstacle itself is told.
-/

namespace TableRules

/-- A file of a run. -/
inductive InputFile
  | rules
  | data
  | reference
  deriving DecidableEq, Repr

/-- The word for a file. -/
def InputFile.word : InputFile → String
  | .rules => "rules"
  | .data => "data"
  | .reference => "reference"

/-- Why a file cannot be read. -/
inductive AccessCause
  | notFound
  | text (fault : TextAccessFault)
  | unsupported (suffix : String)
  | badReference (fault : Catalog.TextFault)
  | notWorkbook
  | noSheet (choice : SheetChoice)
  deriving Repr

/-- The wording of a cause. -/
def AccessCause.message : AccessCause → String
  | .notFound => "file not found"
  | .text f => f.message
  | .unsupported suffix => FileKind.refusal suffix
  | .badReference f => f.message
  | .notWorkbook => "file is not a workbook"
  | .noSheet (.position n) => "no worksheet at index " ++ Text.decimalInt n
  | .noSheet (.named name) => "no worksheet named '" ++ name ++ "'"

/-- A file that cannot be read, by the spelling of its path. -/
structure AccessFault where
  file : InputFile
  path : String
  cause : AccessCause
  deriving Repr

/-- The wording of a fault. -/
def AccessFault.message (f : AccessFault) : String :=
  "Cannot read " ++ f.file.word ++ " file '" ++ f.path ++ "': " ++ f.cause.message

/-- How the tables in data files are read: the sheet of a workbook, and the delimiter of a delimited
text if it is not the usual one. -/
structure TableChoice where
  sheet : SheetChoice
  delimiter : Option Char
  deriving DecidableEq, Repr

/-- The usual delimiter of a file. -/
def usualDelimiter (p : Path) : Char := if FileKind.suffixOf p == ".tsv" then '\t' else ','

/-- The table in a data file. -/
def TableChoice.read (choice : TableChoice) (path : Path) (kind : FileKind) (content : Content) :
    Except AccessCause Table :=
  match kind, content with
  | .spreadsheet, .workbook w =>
    match w.sheet? choice.sheet with
    | some sheet => .ok (sheet.table path.text)
    | none => .error (.noSheet choice.sheet)
  | .spreadsheet, .octets _ => .error .notWorkbook
  | .delimited, content =>
    match (Entry.file content).text with
    | .ok text =>
      .ok (Delimited.table (choice.delimiter.getD (usualDelimiter path)) text path.text)
    | .error f => .error (.text f)

end TableRules
