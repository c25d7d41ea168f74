import TableRules.Keyed
import TableRules.Report.Basic
import TableRules.Ruleset.Basic
import TableRules.Table.Basic

/-!
# Assembling a report

An assembly has one place for the outcome of every block and of every conditional rule. Outcomes
may be recorded in any order; the report lists them in the order of declaration, after the summary
and the findings that were added.

* A block without an outcome is reported as absent from the data, a block without rules not at all.
* A column whose rules all passed gives one finding, any other one finding for each failed rule,
  with the first of the rule's messages.
-/

namespace TableRules

/-- Why an outcome cannot be recorded, or a report not be assembled. -/
inductive AssemblyFault
  | noBlock (column : String)
  | noConditional (name : String)
  | noMessage
  deriving DecidableEq, Repr

/-- The wording of a fault. -/
def AssemblyFault.message : AssemblyFault → String
  | .noBlock c => "No rule block for column '" ++ c ++ "'"
  | .noConditional n => "No conditional rule named '" ++ n ++ "'"
  | .noMessage => "a failed rule has no message"

/-- The number of rows that a message lists. -/
def listedRows : Nat := 10

/-- Row numbers in a message, the tail of a long list only counted. -/
def rowsText (rows : List Nat) : String :=
  let label := if rows.length = 1 then "row " else "rows "
  let shown := label ++ Text.joinWith ", " ((rows.take listedRows).map Text.decimal)
  let extra := rows.length - listedRows
  if 0 < extra then shown ++ " (+" ++ Text.decimal extra ++ " more)" else shown

/-- A report that is being assembled. -/
structure Assembly where
  ruleset : Ruleset
  table : Table
  findings : List Finding
  missingValues : List (String × Nat)
  columns : List (String × Option ColumnOutcome)
  conditionals : List (String × Option ConditionalOutcome)

namespace Assembly

/-- An assembly without outcomes. -/
def start (ruleset : Ruleset) (table : Table) : Assembly :=
  ⟨ruleset, table, [], [], ruleset.blocks.map fun b => (b.column, none),
    ruleset.conditionals.map fun c => (c.name, none)⟩

/-- Adds findings. -/
def addFindings (a : Assembly) (findings : List Finding) : Assembly :=
  { a with findings := a.findings ++ findings }

/-- Sets the numbers of missing values. -/
def setMissing (a : Assembly) (counts : List (String × Nat)) : Assembly :=
  { a with missingValues := Keyed.ofList counts }

/-- Records the outcome of a block. -/
def recordColumn (a : Assembly) (o : ColumnOutcome) : Except AssemblyFault Assembly :=
  if a.columns.any fun e => e.1 == o.column then
    .ok { a with columns := Keyed.put o.column (some o) a.columns }
  else .error (.noBlock o.column)

/-- Records the outcome of a conditional rule. -/
def recordConditional (a : Assembly) (o : ConditionalOutcome) : Except AssemblyFault Assembly :=
  if a.conditionals.any fun e => e.1 == o.name then
    .ok { a with conditionals := Keyed.put o.name (some o) a.conditionals }
  else .error (.noConditional o.name)

/-! ### Findings -/

/-- A column, by its name, before what is said about it. -/
def columnLabel (name : String) : String := "column '" ++ name ++ "'"

/-- What a summary says about the ruleset. -/
def rulesLine (r : Ruleset) : String :=
  "rules file OK: " ++ Text.decimal r.columns.names.length ++ " declared columns, " ++
    Text.decimal r.blocks.length ++ " column blocks, " ++
    Text.decimal r.conditionals.length ++ " conditional rules"

/-- What a summary says about the table. -/
def tableLine (t : Table) : String :=
  Text.decimal t.rowCount ++ " rows, " ++ Text.decimal t.columnCount ++ " columns"

/-- The findings that sum up what was validated. -/
def summary (a : Assembly) : List Finding :=
  .about .info .summary (rulesLine a.ruleset) none ::
  .about .info .summary (tableLine a.table) none ::
  a.missingValues.map fun (column, count) =>
    .about .info .summary
      (columnLabel column ++ ": " ++ Text.decimal count ++ " missing values") (some column)

/-- The finding about a failed rule. -/
def ruleFinding (column : String) (o : RuleOutcome) : Except AssemblyFault Finding :=
  let start := columnLabel column ++ ": rule '" ++ o.rule ++ "' failed"
  let finding (message : String) : Finding :=
    ⟨.error, .valueRule, message, some column, some o.rule, o.failedRows⟩
  let note := o.note.getD ""
  if note.isEmpty then
    match o.messages with
    | [] => .error .noMessage
    | m :: _ => .ok (finding (start ++ " for " ++ rowsText o.failedRows ++ " (" ++ m ++ ")"))
  else .ok (finding (start ++ ": " ++ note))

/-- The findings about a block. -/
def columnFindings (column : String) (outcome : Option ColumnOutcome) :
    Except AssemblyFault (List Finding) :=
  match outcome with
  | none =>
    .ok [.about .warning .valueRule
      (columnLabel column ++ " not found in data; its rules were not evaluated") (some column)]
  | some o =>
    if o.rules.isEmpty then .ok []
    else if o.allPassed then
      .ok [.about .info .valueRule (columnLabel column ++ ": all OK") (some column)]
    else (o.rules.filter fun r => !r.passed).mapM (ruleFinding column)

/-- The severity and the wording of the outcome of a conditional rule. -/
def conditionalMessage (name : String) (o : ConditionalOutcome) : Severity × String :=
  let rule := "conditional rule '" ++ name ++ "'"
  let note := o.note.getD "None"
  match o.status with
  | .ok => (.info, rule ++ ": all OK (" ++ Text.decimal o.matchedRows.length ++ " rows matched)")
  | .vacuous => (.info, rule ++ ": all OK (" ++ note ++ ")")
  | .failed => (.error, rule ++ " failed for " ++ rowsText o.failedRows)
  | .notEvaluated => (.warning, rule ++ " not evaluated: " ++ note)

/-- The finding about a conditional rule; none without an outcome. -/
def conditionalFindings (name : String) (outcome : Option ConditionalOutcome) : List Finding :=
  match outcome with
  | none => []
  | some o =>
    let (severity, message) := conditionalMessage name o
    [⟨severity, .conditional, message, none, some name, o.failedRows⟩]

/-- The findings of the report. -/
def allFindings (a : Assembly) : Except AssemblyFault (List Finding) :=
  (a.columns.mapM fun e => columnFindings e.1 e.2).map fun perColumn =>
    a.summary ++ a.findings ++ perColumn.flatten ++
      a.conditionals.flatMap fun e => conditionalFindings e.1 e.2

/-- The finished report. -/
def build (a : Assembly) : Except AssemblyFault Report :=
  a.allFindings.map fun findings =>
    { source := a.table.source
      rowCount := a.table.rowCount
      columnCount := a.table.columnCount
      findings := findings
      columns := a.columns.filterMap (·.2)
      conditionals := a.conditionals.filterMap (·.2)
      missingValues := a.missingValues }

end Assembly

end TableRules
