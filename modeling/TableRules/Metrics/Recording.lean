import TableRules.Evaluation.Run
import TableRules.Metrics.Increment

/-!
# Counting a validation

What a validation counts (`Engine.recordings`): the rows of the table, the reading of every typed
column, every evaluated rule and conditional rule, and the findings of the report. A validation that
breaks off has counted what it did before; side by side, all columns or conditional rules are
counted although one of them broke off.
-/

namespace TableRules

/-- Something that a validation counts. -/
inductive Recording
  | rows (n : Nat)
  | increment (i : Increment)
  | phase (name : String)

/-- The state of a register after a recording. -/
def Register.record {S H : Type} (R : Register S H) (state : S) : Recording → S
  | .increment i => (R.increment state i).1
  | .rows _ => state
  | .phase _ => state

/-- The state of the counters after a recording. -/
def Metrics.record (m : Metrics) : Recording → Metrics
  | .rows n => m.setRows n
  | .increment i => (m.increment i).1
  | .phase name => m.timePhase name

namespace Engine

/-- The results up to the first failure. -/
def successes {ε α : Type} : List (Except ε α) → List α
  | .ok a :: rest => a :: successes rest
  | _ => []

/-- What the reading of the cells of a typed column counts. -/
def coercionIncrements (type : ValueType) (cells : List Cell) : List Increment :=
  let misfits := (cells.filter Cell.isMisfit).length
  let nulls := (cells.filter Cell.isNull).length
  Increment.ofCoercions type.name (cells.length - misfits - nulls) misfits nulls

/-- What the evaluation of a block counts. -/
def columnIncrements (e : Engine) (table : Table) (b : Block) : List Increment :=
  match e.cells table b.column b.valueType with
  | .error _ => []
  | .ok cells =>
    let reading := match b.valueType with
      | some t => coercionIncrements t cells
      | none => []
    let evaluated := b.rules.map fun r =>
      (e.evaluateRule cells b.valueType.isSome r).map fun o => (r.kind.family, o)
    reading ++ (successes evaluated).flatMap fun (family, o) =>
      Increment.ofRule family.name b.column cells.length o.failedCount

/-- What the evaluation of a conditional rule counts. -/
def conditionalIncrements (e : Engine) (table : Table) (c : Conditional) : List Increment :=
  match e.evaluateConditional table c with
  | .error _ => []
  | .ok o => [.ofConditional o.status]

/-- The items that are evaluated: side by side all of them, otherwise those up to and including the
first that breaks off. -/
def attempted {ε α β : Type} (e : Engine) (f : α → Except ε β) (items : List α) : List α :=
  if 1 < e.workers && 1 < items.length then items
  else items.take ((successes (items.map f)).length + 1)

/-- What is counted after the outcomes of columns and conditional rules. -/
def reportRecordings (e : Engine) (table : Table) : List Recording :=
  match e.evaluate table with
  | .error _ => []
  | .ok r => r.findings.map fun f => .increment (.ofFinding f)

/-- What the evaluation of the conditional rules counts, and what follows it. -/
def conditionalRecordings (e : Engine) (table : Table) : List Recording :=
  let counted := (e.attempted (e.evaluateConditional table) e.ruleset.conditionals).flatMap
    (e.conditionalIncrements table)
  counted.map .increment ++ .phase "conditionals" :: e.reportRecordings table

/-- What the evaluation of the columns counts. -/
def columnRecordings (e : Engine) (table : Table) : List Recording :=
  let counted := (e.attempted (e.evaluateColumn table) (e.presentBlocks table)).flatMap
    (e.columnIncrements table)
  counted.map .increment ++ [.phase "value_rules"]

/-- What a validation counts, in order. -/
def recordings (e : Engine) (table : Table) : List Recording :=
  let rest := match e.evaluateColumns table with
    | .error _ => []
    | .ok _ => e.conditionalRecordings table
  .rows table.rowCount :: .phase "structure" :: e.columnRecordings table ++ rest ++ [.phase "total"]

end Engine

/-- The state of the counters after a validation. -/
def Metrics.recordAll (m : Metrics) (recordings : List Recording) : Metrics :=
  recordings.foldl Metrics.record m

end TableRules
