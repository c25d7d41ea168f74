import TableRules.Files.Path
import TableRules.Table.Workbook
import TableRules.Text.Utf8

/-!
# Entries of folders

What is found at a path: a file, a folder, or an obstacle on the way. A file is a sequence of octets
or a workbook. A text is read from its octets as UTF-8, and all its line breaks become line feeds.
-/

namespace TableRules

/-- What a file holds. -/
inductive Content
  | octets (bs : List Nat)
  | workbook (w : Workbook)
  deriving DecidableEq, Repr

/-- Why a path leads to no file. -/
inductive Obstacle
  | missing
  | insideFile
  | isFolder
  | isFile
  | nameTooLong
  | nulInPath
  deriving DecidableEq, Repr

/-- The wording of an obstacle. -/
def Obstacle.message : Obstacle → String
  | .missing => "No such file or directory"
  | .insideFile => "Not a directory"
  | .isFolder => "Is a directory"
  | .isFile => "File exists"
  | .nameTooLong => "File name too long"
  | .nulInPath => "embedded null byte"

/-- What is found at a path. -/
inductive Entry
  | file (content : Content)
  | folder
  | nothing (why : Obstacle)
  deriving DecidableEq, Repr

/-- Whether a file is found. -/
def Entry.isFile : Entry → Bool
  | .file _ => true
  | _ => false

/-- Line breaks of every kind as line feeds. -/
def unifyBreaks : List Char → List Char
  | [] => []
  | '\r' :: '\n' :: rest => '\n' :: unifyBreaks rest
  | c :: rest => (if c == '\r' then '\n' else c) :: unifyBreaks rest

/-- The text of a sequence of octets. -/
def textOfOctets (bs : List Nat) : Except Text.Utf8Fault String :=
  (Text.decodeUtf8 bs).map fun s => String.ofList (unifyBreaks s.toList)

/-- Why no text is read at a path. -/
inductive TextAccessFault
  | obstacle (o : Obstacle)
  | notText (fault : Text.Utf8Fault)
  deriving DecidableEq, Repr

/-- The wording of a fault. -/
def TextAccessFault.message : TextAccessFault → String
  | .obstacle o => o.message
  | .notText f => "not valid UTF-8 (" ++ f.message ++ ")"

/-- The text of what is found at a path. A workbook is not one. -/
def Entry.text : Entry → Except TextAccessFault String
  | .file (.octets bs) => (textOfOctets bs).mapError .notText
  | .file (.workbook _) => .error (.notText .invalidStart)
  | .folder => .error (.obstacle .isFolder)
  | .nothing o => .error (.obstacle o)

end TableRules
