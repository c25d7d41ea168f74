import TableRules.Evaluation.Engine
import TableRules.Report.Outcome

/-!
# Evaluating the rules of a column

Every rule of a block is checked against every cell of its column; nothing is skipped because
something else failed. A rule that needs typed values fails as a whole, with a note, if the block
declares no type.
-/

namespace TableRules.Engine

/-- How each cell of a column violates a check. -/
def violations (e : Engine) (check : Check) (cells : List Cell) :
    Except NumberFault (List (Option Violation)) :=
  cells.mapM (check.violation? e.settings e.catalog cells)

/-- The failed rows and their messages, given how each cell violates a rule. -/
def failures (cells : List Cell) (found : List (Option Violation)) : List (Nat × String) :=
  (cells.zip found).filterMap fun (cell, v) =>
    v.map fun v => (cell.row, v.message cell.text)

/-- The outcome of a rule with a given phrase. -/
def ruleOutcome (rule : Rule) (phrase : String) (cells : List Cell)
    (found : List (Option Violation)) : RuleOutcome :=
  let failed := failures cells found
  { rule := phrase
    kind := rule.kind.name
    line := rule.line
    passedCount := cells.length - failed.length
    failedRows := failed.map (·.1)
    messages := failed.map (·.2)
    note := none }

/-- The outcome of a rule that needs a type where none is declared. -/
def untypedOutcome (rule : Rule) (phrase : String) (cells : List Cell) : RuleOutcome :=
  { rule := phrase
    kind := rule.kind.name
    line := rule.line
    passedCount := 0
    failedRows := cells.map Cell.row
    messages := cells.map fun _ => Violation.noTypeMessage
    note := some Violation.noTypeMessage }

/-- A result of reading or comparing numbers, among the results of checking. -/
def ofNumber {α : Type} (r : Except NumberFault α) : Except CheckFault α := r.mapError .number

/-- Evaluates a rule on the cells of a column; `typed` says whether its block declares a type. -/
def evaluateRule (e : Engine) (cells : List Cell) (typed : Bool) (rule : Rule) :
    Except CheckFault RuleOutcome := do
  let check ← e.check rule
  match rule.describe? with
  | none => .error (.number .tooLarge)
  | some phrase =>
    if rule.kind.family.needsType && !typed then return untypedOutcome rule phrase cells
    else
      let found ← ofNumber (e.violations check cells)
      return ruleOutcome rule phrase cells found

/-- Evaluates the rules of a block. -/
def evaluateColumn (e : Engine) (table : Table) (b : Block) : Except CheckFault ColumnOutcome := do
  let cells ← ofNumber (e.cells table b.column b.valueType)
  let rules ← b.rules.mapM (e.evaluateRule cells b.valueType.isSome)
  return ⟨b.column, rules, (cells.filter Cell.isNull).length⟩

end TableRules.Engine
