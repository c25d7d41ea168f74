import TableRules.Evaluation.Conditional
import TableRules.Evaluation.Header
import TableRules.Report.Assembly
import TableRules.Ruleset.Link

/-!
# Validating a table

A validation checks the header, then every block whose column is in the data, then the conditional
rules, and assembles a report of all findings. It is complete: no failure keeps anything from being
evaluated. It breaks off only where a cell holds an integer that is too large.
-/

namespace TableRules

/-- Why a validation breaks off. -/
inductive EvaluationFault
  | check (fault : CheckFault)
  | assembly (fault : AssemblyFault)
  deriving DecidableEq, Repr

namespace Engine

/-- The blocks whose columns are in a table. -/
def presentBlocks (e : Engine) (table : Table) : List Block :=
  e.ruleset.blocks.filter fun b => table.hasColumn b.column

/-- Evaluates all blocks whose columns are in a table. -/
def evaluateColumns (e : Engine) (table : Table) : Except CheckFault (List ColumnOutcome) :=
  (e.presentBlocks table).mapM (e.evaluateColumn table)

/-- Evaluates all conditional rules. -/
def evaluateConditionals (e : Engine) (table : Table) :
    Except CheckFault (List ConditionalOutcome) :=
  e.ruleset.conditionals.mapM (e.evaluateConditional table)

/-- The assembly of a validation before any outcome is recorded. -/
def opening (e : Engine) (table : Table) : Assembly :=
  (((Assembly.start e.ruleset table).addFindings e.ruleset.linkFindings).setMissing
    (e.missingValues table)).addFindings (e.ruleset.columns.checkHeader table.header)

/-- The report of given outcomes. -/
def assemble (e : Engine) (table : Table) (columns : List ColumnOutcome)
    (conditionals : List ConditionalOutcome) : Except AssemblyFault Report := do
  let a ← columns.foldlM Assembly.recordColumn (e.opening table)
  let a ← conditionals.foldlM Assembly.recordConditional a
  a.build

/-- Validates a table. -/
def evaluate (e : Engine) (table : Table) : Except EvaluationFault Report := do
  let columns ← (e.evaluateColumns table).mapError .check
  let conditionals ← (e.evaluateConditionals table).mapError .check
  (e.assemble table columns conditionals).mapError .assembly

end Engine

end TableRules
