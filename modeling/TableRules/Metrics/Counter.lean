import TableRules.Keyed
import TableRules.Number.Notation
import TableRules.Rule.Constraint
import TableRules.Text.Search

/-!
# Counters

A counter has one series for each combination of values of its labels. A series starts at zero when
it is first named and never decreases.

The series are kept by a register (`Register`), which gives the series for some labels and adds an
amount to it. The counters of a program are kept in a list of series with values that are doubles
(`Register.double`), so they are exact only as long as doubles are.

Besides the counters, `Metrics` holds the number of rows of the last table and, for each phase of
work, how often it was timed.
-/

namespace TableRules

/-- The counters. -/
inductive Counter
  | rulesEvaluated
  | cellsEvaluated
  | ruleFailures
  | typeCoercions
  | conditionalOutcomes
  | findings
  deriving DecidableEq, Repr

namespace Counter

/-- The counters, in the order in which they are listed. -/
def all : List Counter :=
  [.rulesEvaluated, .cellsEvaluated, .ruleFailures, .typeCoercions, .conditionalOutcomes, .findings]

/-- The identifier of a counter. -/
def name : Counter → String
  | .rulesEvaluated => "rules_evaluated_total"
  | .cellsEvaluated => "cells_evaluated_total"
  | .ruleFailures => "rule_failures_total"
  | .typeCoercions => "type_coercion_total"
  | .conditionalOutcomes => "conditional_outcomes_total"
  | .findings => "findings_total"

/-- The name under which a counter is shown. -/
def sampleName (c : Counter) : String := "ruleval_" ++ c.name

/-- What a counter counts. -/
def help : Counter → String
  | .rulesEvaluated => "Total number of value rules evaluated"
  | .cellsEvaluated => "Total number of cell evaluations across all value rules"
  | .ruleFailures => "Total number of failing cells per rule type and column"
  | .typeCoercions => "Total number of type coercion attempts"
  | .conditionalOutcomes => "Total number of conditional rule outcomes by status"
  | .findings => "Total number of report findings"

/-- The names of the labels of a counter, in increasing order. -/
def labels : Counter → List String
  | .rulesEvaluated => ["rule_type", "status"]
  | .cellsEvaluated => ["rule_type"]
  | .ruleFailures => ["column", "rule_type"]
  | .typeCoercions => ["status", "to_type"]
  | .conditionalOutcomes => ["status"]
  | .findings => ["category", "severity"]

/-- The counter with a given identifier. -/
def ofName? (s : String) : Option Counter := all.find? fun c => c.name == s

end Counter

/-- The values of labels, in increasing order of their names. -/
abbrev Labels : Type := List (String × String)

namespace Number

/-- Whether a number is zero. -/
def isZero : Number → Bool
  | .integer n => n == 0
  | .real x => x.isZero

/-- Whether a number is less than zero. -/
def isNegative : Number → Bool
  | .integer n => n < 0
  | .real x => x.lt (Double.zero false)

end Number

/-- A double is a number. -/
instance : Coe Double Number := ⟨.real⟩

/-- An amount to be added to a series of a counter. -/
structure Increment where
  counter : Counter
  amount : Number
  labels : Labels
  deriving DecidableEq

/-- Why an amount cannot be added. -/
inductive MetricsFault
  | negative
  | wrongLabels
  | noLabels
  | tooLarge
  deriving DecidableEq, Repr

/-- The wording of a fault. -/
def MetricsFault.message : MetricsFault → String
  | .negative => "Counters can only be incremented by non-negative amounts."
  | .wrongLabels => "Incorrect label names"
  | .noLabels => "Incorrect label count"
  | .tooLarge => "int too large to convert to float"

/-- Labels in increasing order of their names. -/
def sortLabels (labels : Labels) : Labels := labels.mergeSort fun a b => !decide (b.1 < a.1)

/-- What keeps the series of the counters, with a state and with handles of series: the state before
anything was counted, the series of a counter for some values of its labels, and the addition of an
amount to a series. Both steps may change the state although they fail. -/
structure Register (S H : Type) where
  start : S
  labels : S → Counter → Labels → S × Except MetricsFault H
  inc : S → H → Number → S × Option MetricsFault

/-- Adds an amount to the series of a counter for some labels. An amount of zero changes nothing and
starts no series. -/
def Register.increment {S H : Type} (R : Register S H) (state : S) (i : Increment) :
    S × Option MetricsFault :=
  if i.amount.isZero then (state, none)
  else
    match R.labels state i.counter i.labels with
    | (next, .error fault) => (next, some fault)
    | (next, .ok series) => R.inc next series i.amount

/-! ### Lists of series -/

/-- The series of all counters, in the order in which they were started. -/
abbrev Series (V : Type) : Type := List ((Counter × Labels) × V)

namespace Register

/-- A register with lists of series. Asking for a series starts it, and a negative amount is
refused; `add` gives nothing where the sum cannot be formed. -/
def listed {V : Type} (zero : V) (add : V → Number → Option V) :
    Register (Series V) (Counter × Labels) where
  start := []
  labels series c labels :=
    let labels := sortLabels labels
    if labels.isEmpty then (series, .error .noLabels)
    else if labels.map (·.1) != c.labels then (series, .error .wrongLabels)
    else (Keyed.update (c, labels) (fun value => value.getD zero) series, .ok (c, labels))
  inc series key amount :=
    if amount.isNegative then (series, some .negative)
    else
      match add ((series.lookup key).getD zero) amount with
      | none => (series, some .tooLarge)
      | some value => (Keyed.put key value series, none)

/-- Values that are doubles. -/
def double : Register (Series Double) (Counter × Labels) :=
  listed (Double.zero false) fun value amount => amount.toDouble?.map value.add

end Register

/-- The state of all counters. -/
structure Metrics where
  series : Series Double
  rows : Double
  phases : List (String × Nat)

namespace Metrics

/-- The state before anything was counted. -/
def empty : Metrics := ⟨[], Double.zero false, []⟩

/-- The value of a series. -/
def value? (m : Metrics) (c : Counter) (labels : Labels) : Option Double :=
  m.series.lookup (c, labels)

/-- Adds an amount to a series. -/
def increment (m : Metrics) (i : Increment) : Metrics × Option MetricsFault :=
  let (series, fault) := Register.double.increment m.series i
  ({ m with series }, fault)

/-- Adds amounts one after another, up to the first that is refused. -/
def incrementAll (m : Metrics) : List Increment → Metrics × Option MetricsFault
  | [] => (m, none)
  | i :: rest =>
    match m.increment i with
    | (next, none) => next.incrementAll rest
    | (next, some f) => (next, some f)

/-- Sets the number of rows of the last table. -/
def setRows (m : Metrics) (rows : Nat) : Metrics :=
  { m with rows := (Double.ofInt? rows).getD (.infinite false) }

/-- Counts a timing of a phase. -/
def timePhase (m : Metrics) (phase : String) : Metrics :=
  { m with phases := Keyed.update phase (fun n => n.getD 0 + 1) m.phases }

end Metrics

end TableRules
