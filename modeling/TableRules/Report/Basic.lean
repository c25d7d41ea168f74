import TableRules.Report.Finding
import TableRules.Report.Outcome
import TableRules.Text.Digit

/-!
# Reports

A report is the complete result of validating a table: its findings in order, the outcomes of
columns and conditional rules, and the number of missing values in each column. `Report.lines` is
its written form, one line for each finding and a last line that counts.
-/

namespace TableRules

/-- The result of validating a table. -/
structure Report where
  source : Option String
  rowCount : Nat
  columnCount : Nat
  findings : List Finding
  columns : List ColumnOutcome
  conditionals : List ConditionalOutcome
  missingValues : List (String × Nat)
  deriving DecidableEq, Repr

namespace Report

/-- The findings of a severity. -/
def bySeverity (r : Report) (s : Severity) : List Finding :=
  r.findings.filter fun f => f.severity = s

/-- The number of findings of a severity. -/
def count (r : Report) (s : Severity) : Nat := (r.bySeverity s).length

/-- Whether a report has an error. -/
def hasErrors (r : Report) : Bool := r.findings.any fun f => f.severity = .error

/-- The outcome of a column. -/
def column? (r : Report) (name : String) : Option ColumnOutcome :=
  r.columns.find? fun o => o.column == name

/-- The outcome of a conditional rule. -/
def conditional? (r : Report) (name : String) : Option ConditionalOutcome :=
  r.conditionals.find? fun o => o.name == name

/-- The columns with a rule that did not pass. -/
def failedColumns (r : Report) : List String :=
  (r.columns.filter fun o => !o.allPassed).map ColumnOutcome.column

/-- The conditional rules that failed. -/
def failedConditionals (r : Report) : List String :=
  (r.conditionals.filter fun o => o.status = .failed).map ConditionalOutcome.name

/-- The last line of a written report. -/
def closingLine (r : Report) : String :=
  "Info: validation finished with " ++ Text.decimal (r.count .error) ++ " errors and " ++
    Text.decimal (r.count .warning) ++ " warnings"

/-- The lines of a written report. -/
def lines (r : Report) : List String := r.findings.map Finding.line ++ [r.closingLine]

end Report

end TableRules
