/-!
# Findings

A finding is one message of a report, tagged with its severity and with the part of the validation
it comes from. It may name the column, the rule and the rows it is about; rows are numbered from
one.
-/

namespace TableRules

/-- How serious a finding is. -/
inductive Severity
  | info
  | warning
  | error
  deriving DecidableEq, Repr

namespace Severity

/-- The severities, from the least serious one on. -/
def all : List Severity := [.info, .warning, .error]

/-- The identifier of a severity. -/
def name : Severity → String
  | .info => "info"
  | .warning => "warning"
  | .error => "error"

/-- The word that starts the line of a finding. -/
def label : Severity → String
  | .info => "Info"
  | .warning => "Warning"
  | .error => "Error"

/-- The severity with a given identifier. -/
def ofName? (s : String) : Option Severity := all.find? fun x => x.name == s

end Severity

/-- The part of a validation that a finding comes from. -/
inductive Category
  | summary
  | link
  | header
  | valueRule
  | conditional
  deriving DecidableEq, Repr

namespace Category

/-- The categories. -/
def all : List Category := [.summary, .link, .header, .valueRule, .conditional]

/-- The identifier of a category. -/
def name : Category → String
  | .summary => "summary"
  | .link => "link"
  | .header => "structure"
  | .valueRule => "value_rule"
  | .conditional => "conditional"

/-- The category with a given identifier. -/
def ofName? (s : String) : Option Category := all.find? fun x => x.name == s

end Category

/-- One message of a report. -/
structure Finding where
  severity : Severity
  category : Category
  message : String
  column : Option String
  rule : Option String
  rows : List Nat
  deriving DecidableEq, Repr

namespace Finding

/-- A finding that names neither a rule nor rows. -/
def about (severity : Severity) (category : Category) (message : String) (column : Option String) :
    Finding :=
  ⟨severity, category, message, column, none, []⟩

/-- The line of a finding in a report. -/
def line (f : Finding) : String := f.severity.label ++ ": " ++ f.message

end Finding

end TableRules
