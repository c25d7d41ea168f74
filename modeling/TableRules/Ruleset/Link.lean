import TableRules.Report.Finding
import TableRules.Ruleset.Basic
import TableRules.Text.Digit

/-!
# Links between declarations

`Ruleset.linkFindings` compares the columns that rules are about with the declared columns. All it
finds are warnings, in this order: repeated names, columns without rules, blocks and then clauses
for columns that are not declared, and a ruleset without any rule.
-/

namespace TableRules.Ruleset

/-- A warning about the declarations of a ruleset. -/
def linkWarning (message : String) (column rule : Option String) : Finding :=
  ⟨.warning, .link, message, column, rule, []⟩

/-- A column, by its name. -/
def columnNamed (name : String) : String := "column '" ++ name ++ "'"

/-- The warnings about names that are declared more than once. -/
def repeatedWarnings (names : List String) : List Finding :=
  (Text.distinct names).filterMap fun n =>
    let count := names.count n
    if 1 < count then
      some (linkWarning (columnNamed n ++ " is declared " ++ Text.decimal count ++ " times") n none)
    else none

/-- Whether a column has rules in a block. -/
def hasRules (r : Ruleset) (column : String) : Bool :=
  (r.block? column).any fun b => !b.rules.isEmpty

/-- The warnings about declared columns without rules. -/
def idleWarnings (r : Ruleset) : List Finding :=
  ((Text.distinct r.columns.names).filter fun n => !r.hasRules n).map fun n =>
    linkWarning (columnNamed n ++ " has no associated value rules") n none

/-- The wording of rules for a column that is not declared. -/
def undeclared (column : String) : String := "rules for undeclared column '" ++ column ++ "'"

/-- The warnings about blocks for columns that are not declared. -/
def blockWarnings (r : Ruleset) : List Finding :=
  ((r.blocks.map Block.column).filter fun c => !r.columns.names.contains c).map fun c =>
    linkWarning (undeclared c) c none

/-- The warnings about the clauses of a conditional rule. -/
def clauseWarnings (names : List String) (c : Conditional) : List Finding :=
  ((c.clauses.map Clause.column).filter fun column => !names.contains column).map fun column =>
    linkWarning (undeclared column ++ " in conditional rule '" ++ c.name ++ "'") column c.name

/-- The wording of a ruleset without rules. -/
def noRules : String := "no value rules present"

/-- The warnings about the declarations of a ruleset. -/
def linkFindings (r : Ruleset) : List Finding :=
  repeatedWarnings r.columns.names ++ r.idleWarnings ++ r.blockWarnings ++
    r.conditionals.flatMap (clauseWarnings r.columns.names) ++
    if r.ruleCount = 0 then [linkWarning noRules none none] else []

end TableRules.Ruleset
