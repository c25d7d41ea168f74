import TableRules.Evaluation.Column

/-!
# Evaluating conditional rules

A conditional rule is evaluated in two passes. The first finds the rows that fulfil the condition,
the second checks the consequence in those rows only, looking up the cell of each row by its place.

A cell that is null, or does not fit its type, never fulfils a condition, except that a null cell
fulfils the condition of being null. A clause that declares a type is checked with that type, any
other with the type that the block of its column declares.
-/

namespace TableRules.Engine

/-- The remark on a conditional rule whose condition no row fulfils. -/
def noRowsMatched : String := "no rows matched condition"

/-- The type that the cells of a clause are read with. -/
def clauseType (e : Engine) (c : Clause) : Option ValueType :=
  c.rule.constraint.declaredType?.or (e.ruleset.declaredType c.column)

/-- Whether a cell fulfils a condition. -/
def fulfils (e : Engine) (rule : Rule) (check : Check) (column : List Cell) (cell : Cell) :
    Except NumberFault Bool :=
  if cell.isMisfit then .ok false
  else if cell.isNull && rule.kind != .isNull then .ok false
  else (check.violation? e.settings e.catalog column cell).map Option.isNone

/-- The rows of a column that fulfil a condition. -/
def matchedRows (e : Engine) (rule : Rule) (check : Check) (column : List Cell) :
    Except NumberFault (List Nat) := do
  let matched ← column.filterM (e.fulfils rule check column)
  return matched.map Cell.row

/-- The columns of a conditional rule that a table lacks. -/
def absentColumns (table : Table) (c : Conditional) : List String :=
  (Text.distinct [c.antecedent.column, c.consequent.column]).filter fun n => !table.hasColumn n

/-- The outcome of a conditional rule with a column that is not in the data. -/
def notEvaluated (name : String) (absent : List String) : ConditionalOutcome :=
  let note := Text.joinWith ", " (absent.map fun c => "column '" ++ c ++ "' not found in data")
  ⟨name, .notEvaluated, [], [], some note⟩

/-- The outcome of a conditional rule with given matched and failed rows. -/
def conditionalOutcome (name : String) (matched failed : List Nat) : ConditionalOutcome :=
  if matched.isEmpty then ⟨name, .vacuous, matched, failed, some noRowsMatched⟩
  else if failed.isEmpty then ⟨name, .ok, matched, failed, none⟩
  else ⟨name, .failed, matched, failed, none⟩

/-- The rows that fulfil the condition of a conditional rule. -/
def antecedentRows (e : Engine) (table : Table) (c : Clause) : Except CheckFault (List Nat) := do
  let type := e.clauseType c
  let cells ← ofNumber (e.cells table c.column type)
  let check ← e.check c.rule
  if c.rule.kind.family.needsType && type.isNone then return []
  else ofNumber (e.matchedRows c.rule check cells)

/-- The cell at the place of a row. Rows are numbered from one; what would stand before the first
cell is counted from the end. -/
def cellAt? (cells : List Cell) (row : Nat) : Option Cell :=
  if row = 0 then cells.getLast? else cells[row - 1]?

/-- Whether the cell of a row violates a check. -/
def failsAt (e : Engine) (check : Check) (cells : List Cell) (row : Nat) : Except CheckFault Bool :=
  match cellAt? cells row with
  | none => .error .noCell
  | some cell => ofNumber ((check.violation? e.settings e.catalog cells cell).map Option.isSome)

/-- Those of some rows that fail the consequence of a conditional rule. -/
def consequentFailures (e : Engine) (table : Table) (c : Clause) (rows : List Nat) :
    Except CheckFault (List Nat) := do
  let cells ← ofNumber (e.cells table c.column (e.clauseType c))
  let check ← e.check c.rule
  rows.filterM (e.failsAt check cells)

/-- Evaluates a conditional rule. -/
def evaluateConditional (e : Engine) (table : Table) (c : Conditional) :
    Except CheckFault ConditionalOutcome := do
  match absentColumns table c with
  | [] =>
    let matched ← e.antecedentRows table c.antecedent
    let failed ← e.consequentFailures table c.consequent matched
    return conditionalOutcome c.name matched failed
  | absent => return notEvaluated c.name absent

end TableRules.Engine
