import TableRules.Evaluation.Run
import TableRules.RulesText.Reader
import TableRules.Table.Access

/-!
# Sessions

A session is an engine made from files: the rules of a rules file, read against the catalog of a
reference file. It reads tables from data files and validates them. The reference is read before
the rules.
-/

namespace TableRules

/-- What a session is made from, apart from the files themselves: the paths of the rules and of the
reference as they are given, the number of workers, and how data files are read. Without a
reference the standard catalog counts. -/
structure SessionOptions where
  rules : String
  reference : Option String
  workers : Int
  choice : TableChoice
  deriving DecidableEq, Repr

/-- Why a session cannot be made, cannot read a data file, or breaks off. -/
inductive SessionFault
  | access (fault : AccessFault)
  | rules (fault : RulesFault)
  | engine (fault : EngineFault)
  | obstacle (o : Obstacle)
  | evaluation (fault : EvaluationFault)

/-- The wording of a fault. -/
def SessionFault.message : SessionFault → String
  | .access f => f.message
  | .rules f => f.message
  | .engine f => f.message
  | .obstacle o => o.message
  | .evaluation (.check f) => f.message
  | .evaluation (.assembly f) => f.message

/-- An engine, and how it comes to tables. -/
structure Session where
  engine : Engine
  choice : TableChoice

namespace Session

/-- A path that may be given; an empty one is not. -/
def givenPath? (given : Option String) : Option String := given.filter (· != "")

/-- The path of a given spelling. -/
def pathText (given : String) : String := (Path.ofText given).text

/-- The catalog of a reference file. A path that is no path at all is not put down to the file. -/
def catalogOf (given : String) (entry : Entry) : Except SessionFault Catalog :=
  let refuse (cause : AccessCause) : Except SessionFault Catalog :=
    .error (.access ⟨.reference, pathText given, cause⟩)
  match entry.text with
  | .error (.obstacle .nulInPath) => .error (.obstacle .nulInPath)
  | .error f => refuse (.text f)
  | .ok text =>
    match Catalog.ofText text with
    | .ok c => .ok c
    | .error f => refuse (.badReference f)

/-- What stands in the way of a file that has to be there. Only a name that is too long is not put
down to the file. -/
def requireFile (file : InputFile) (given : String) (entry : Entry) : Except SessionFault Unit :=
  match entry with
  | .file _ => .ok ()
  | .nothing .nameTooLong => .error (.obstacle .nameTooLong)
  | _ => .error (.access ⟨file, given, .notFound⟩)

/-- The ruleset of a rules file. -/
def rulesetOf (catalog : Catalog) (given : String) (entry : Entry) :
    Except SessionFault Ruleset := do
  requireFile .rules given entry
  match entry.text with
  | .error f => .error (.access ⟨.rules, pathText given, .text f⟩)
  | .ok text => (Ruleset.parse (some catalog) text).mapError .rules

/-- Makes a session from what is found at the paths of the reference and of the rules. -/
def make (o : SessionOptions) (reference rules : Entry) : Except SessionFault Session := do
  let catalog ← match givenPath? o.reference with
    | some given => catalogOf given reference
    | none => pure Catalog.standard
  let ruleset ← rulesetOf catalog o.rules rules
  let engine ← (Engine.make ruleset (some catalog) o.workers).mapError .engine
  return ⟨engine, o.choice⟩

/-- The table in what is found at the path of a data file. -/
def readTable (s : Session) (given : String) (entry : Entry) : Except SessionFault Table := do
  let path := Path.ofText given
  requireFile .data given entry
  match FileKind.ofPath? path, entry with
  | none, _ =>
    .error (.access ⟨.data, path.text, .unsupported (FileKind.suffixOf path)⟩)
  | some kind, .file content =>
    (s.choice.read path kind content).mapError fun cause => .access ⟨.data, given, cause⟩
  | some _, _ => .error (.access ⟨.data, given, .notFound⟩)

/-- Validates a table. -/
def validate (s : Session) (table : Table) : Except SessionFault Report :=
  (s.engine.evaluate table).mapError .evaluation

end Session

/-! ### Summaries -/

/-- A report in numbers, and the names of what failed in it. -/
structure Summary where
  rows : Nat
  columns : Nat
  errors : Nat
  warnings : Nat
  failedColumns : List String
  failedConditionals : List String
  deriving DecidableEq, Repr

namespace Report

/-- The summary of a report. -/
def summary (r : Report) : Summary :=
  ⟨r.rowCount, r.columnCount, r.count .error, r.count .warning, r.failedColumns,
    r.failedConditionals⟩

end Report

namespace Summary

/-- A summary in lines; lists without members are left out. -/
def lines (s : Summary) : List String :=
  let listed (title : String) (names : List String) : List String :=
    if names.isEmpty then [] else [title ++ ": " ++ Text.joinWith ", " names]
  (Text.decimal s.rows ++ " rows, " ++ Text.decimal s.columns ++ " columns: " ++
      Text.decimal s.errors ++ " errors, " ++ Text.decimal s.warnings ++ " warnings") ::
    (listed "Failed columns" s.failedColumns ++
      listed "Failed conditional rules" s.failedConditionals)

end Summary

end TableRules
