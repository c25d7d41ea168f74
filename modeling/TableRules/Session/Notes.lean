import TableRules.Log.Record
import TableRules.Session.Basic

/-!
# The log of a session

What a session tells in its log: the rules it read, the data file it reads, the progress of a
validation, and where the report was written.
-/

namespace TableRules

/-- A note and where it comes from. -/
abbrev SessionNote : Type := LogSource × LogNote

namespace SessionNote

/-- The source with a logger below the root and a function. -/
def source (logger function : String) : LogSource :=
  let file := (logger.toList.reverse.takeWhile (· != '.')).reverse
  ⟨Logger.root ++ "." ++ logger, String.ofList file, function⟩

/-- A note about something that is as it should be. -/
def plain (level : LogLevel) (message : String) (fields : LogFields) : LogNote :=
  ⟨level, message, fields, false⟩

/-- A number as a field. -/
def count (n : Nat) : JsonValue := .integer n

/-- A text that may be missing as a field. -/
def optional (s : Option String) : JsonValue := (s.map JsonValue.text).getD .null

/-- The notes about rules that were read from a file. -/
def rulesRead (given : String) (r : Ruleset) : List SessionNote :=
  let blocks := r.blocks.length
  let conditionals := r.conditionals.length
  let path := Session.pathText given
  [(source "core.rules.parser" "parse",
    plain .debug ("Parsed ruleset: " ++ Text.decimal r.columns.names.length ++ " columns, " ++
      Text.decimal blocks ++ " column blocks, " ++ Text.decimal conditionals ++
      " conditional rules") []),
   (source "core.rules.rule_config" "load",
    plain .info ("Loaded rules from " ++ path)
      [("rules_file", .text path), ("column_blocks", count blocks),
       ("conditional_rules", count conditionals)])]

/-- The note before a data file is read. -/
def readingData (given : String) : SessionNote :=
  (source "batch.pipeline" "validate_file",
    plain .info ("Reading data file: " ++ given) [])

/-- The notes about a data file that was read, or is there and could not be read. -/
def dataRead (given : String) (choice : TableChoice) : Except SessionFault Table → List SessionNote
  | .ok table =>
    let path := Path.ofText given
    let message := "Read " ++ Text.decimal table.rowCount ++ " rows from " ++ path.text
    match FileKind.ofPath? path with
    | some .delimited =>
      [(source "batch.readers.csv_reader" "read",
        plain .info message [("columns", count table.columnCount)])]
    | _ =>
      let sheet := match choice.sheet with
        | .position n => Text.decimalInt n
        | .named name => name
      [(source "batch.readers.spreadsheet_reader" "read",
        plain .info message [("sheet", .text sheet)])]
  | .error (.access ⟨_, _, .notFound⟩) => []
  | .error (.access ⟨_, _, .unsupported _⟩) => []
  | .error (.access f) =>
    [(source "batch.readers.file_reader" "read",
      ⟨.error, "Failed to read data file " ++ Session.pathText given ++ ": " ++ f.cause.message, [],
        true⟩)]
  | .error _ => []

/-- The name of the operation of validating. -/
def validating : String := "Evaluating ruleset"

/-- The note about the warnings of linking, if there are any. -/
def linked (r : Ruleset) : List SessionNote :=
  match r.linkFindings.length with
  | 0 => []
  | n => [(source "core.rules.linker" "link",
      plain .debug ("Linker produced " ++ Text.decimal n ++ " warnings") [])]

/-- The note about the outcome of a column. -/
def columnEvaluated (o : ColumnOutcome) : SessionNote :=
  (source "core.rules.rule_engine" "evaluate_column",
    plain .debug ("Column '" ++ o.column ++ "': " ++ (if o.allPassed then "all OK" else "failed"))
      [("column", .text o.column), ("failed_rows", count o.failedRows.length)])

/-- The notes about a validation that gave a report. -/
def validated (e : Engine) (table : Table) (r : Report) : List SessionNote :=
  let own : LogFields := [("source", optional table.source)]
  let operation := source "batch.pipeline"
  (operation "enter", LogNote.started validating own) ::
    (linked e.ruleset ++ r.columns.map columnEvaluated ++
      [(source "core.rules.rule_engine" "evaluate",
        plain .info ("Evaluated " ++ Text.decimal (e.presentBlocks table).length ++
            " columns and " ++ Text.decimal e.ruleset.conditionals.length ++
            " conditional rules over " ++ Text.decimal table.rowCount ++ " rows")
          [("source", optional table.source), ("errors", count (r.count .error)),
           ("warnings", count (r.count .warning))]),
       (operation "exit", LogNote.completed validating own)])

/-- The note about a report that was written. -/
def reportWritten (path : Path) : SessionNote :=
  (source "observability.report_log" "write",
    plain .info ("Wrote validation report to " ++ path.text) [("report_file", .text path.text)])

/-- The note about a failure that ends a run. -/
def runFailed (what message : String) : SessionNote :=
  (source "cli.validate_cli" "run", ⟨.error, what ++ ": " ++ message, [], true⟩)

end SessionNote

end TableRules
