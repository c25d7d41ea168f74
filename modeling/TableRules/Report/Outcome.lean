import TableRules.Text.Search

/-!
# Outcomes

What the evaluation of a rule, of a column and of a conditional rule came to. Rows are numbered
from one.
-/

namespace TableRules

/-- The outcome of a rule over all rows of its column. Each failed row has its message; a note
stands for a fault of the rule as a whole. -/
structure RuleOutcome where
  rule : String
  kind : String
  line : Option Int
  passedCount : Nat
  failedRows : List Nat
  messages : List String
  note : Option String
  deriving DecidableEq, Repr

/-- Whether a rule passed. -/
def RuleOutcome.passed (o : RuleOutcome) : Bool := o.failedRows.isEmpty && o.note.isNone

/-- The number of failed rows. -/
def RuleOutcome.failedCount (o : RuleOutcome) : Nat := o.failedRows.length

/-- The outcome of the rules of a column, in the order of the rules. -/
structure ColumnOutcome where
  column : String
  rules : List RuleOutcome
  missingValues : Nat
  deriving DecidableEq, Repr

namespace ColumnOutcome

/-- Whether all rules passed. -/
def allPassed (o : ColumnOutcome) : Bool := o.rules.all RuleOutcome.passed

/-- The rows that failed some rule, in increasing order. -/
def failedRows (o : ColumnOutcome) : List Nat :=
  (Text.distinct (o.rules.flatMap RuleOutcome.failedRows)).mergeSort

/-- The outcome of the first rule with a given phrase. -/
def rule? (o : ColumnOutcome) (phrase : String) : Option RuleOutcome :=
  o.rules.find? fun r => r.rule == phrase

end ColumnOutcome

/-- What a conditional rule came to. It is vacuous when no row fulfils its condition, and not
evaluated when a column of it is not in the data. -/
inductive ConditionalStatus
  | ok
  | failed
  | vacuous
  | notEvaluated
  deriving DecidableEq, Repr

namespace ConditionalStatus

/-- The statuses. -/
def all : List ConditionalStatus := [.ok, .failed, .vacuous, .notEvaluated]

/-- The identifier of a status. -/
def name : ConditionalStatus → String
  | .ok => "ok"
  | .failed => "failed"
  | .vacuous => "vacuous"
  | .notEvaluated => "not_evaluated"

/-- The status with a given identifier. -/
def ofName? (s : String) : Option ConditionalStatus := all.find? fun x => x.name == s

end ConditionalStatus

/-- The outcome of a conditional rule: the rows that fulfil its condition, and those among them that
fail. -/
structure ConditionalOutcome where
  name : String
  status : ConditionalStatus
  matchedRows : List Nat
  failedRows : List Nat
  note : Option String
  deriving DecidableEq, Repr

namespace ConditionalOutcome

/-- The rows that fulfil the condition and do not fail. -/
def passedRows (o : ConditionalOutcome) : List Nat :=
  o.matchedRows.filter fun row => !o.failedRows.contains row

/-- Whether a conditional rule holds; one that was not evaluated does not. -/
def allPassed (o : ConditionalOutcome) : Bool := o.status = .ok || o.status = .vacuous

end ConditionalOutcome

end TableRules
