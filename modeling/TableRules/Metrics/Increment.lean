import TableRules.Metrics.Counter
import TableRules.Report.Finding
import TableRules.Report.Outcome
import TableRules.ValueType

/-!
# What is counted

The amounts that a single result adds to the counters: the outcome of a rule, the reading of a
typed column, the outcome of a conditional rule, and a finding.
-/

namespace TableRules.Increment

/-- The amounts for a rule of a family that was evaluated on some cells of a column. -/
def ofRule (family column : String) (cells failures : Int) : List Increment :=
  let status := if failures = 0 then "passed" else "failed"
  [⟨.rulesEvaluated, .integer 1, [("rule_type", family), ("status", status)]⟩,
   ⟨.cellsEvaluated, .integer cells, [("rule_type", family)]⟩,
   ⟨.ruleFailures, .integer failures, [("column", column), ("rule_type", family)]⟩]

/-- The amounts for the reading of a column of a type. -/
def ofCoercions (type : String) (success failure null : Int) : List Increment :=
  let one (status : String) (n : Int) : Increment :=
    ⟨.typeCoercions, .integer n, [("status", status), ("to_type", type)]⟩
  [one "success" success, one "failure" failure, one "null" null]

/-- The amount for a conditional rule. -/
def ofConditional (status : ConditionalStatus) : Increment :=
  ⟨.conditionalOutcomes, .integer 1, [("status", status.name)]⟩

/-- The amount for a finding. -/
def ofFinding (f : Finding) : Increment :=
  ⟨.findings, .integer 1, [("category", f.category.name), ("severity", f.severity.name)]⟩

end TableRules.Increment
