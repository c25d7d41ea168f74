import TableRules.Report.Finding
import TableRules.Ruleset.Basic
import TableRules.Text.Quoted

/-!
# Checking a header

The header of a table is compared with the declared columns: missing columns and extra columns are
errors if the ruleset says so, and an order of the columns that differs from the declared one is a
warning. Names count once, at their first place.
-/

namespace TableRules.ColumnSpec

/-- The errors about declared columns that a header lacks. -/
def missingColumns (declared header : List String) : List Finding :=
  (declared.filter fun c => !header.contains c).map fun c =>
    .about .error .header ("missing required column '" ++ c ++ "'") (some c)

/-- The errors about columns of a header that are not declared. -/
def extraColumns (declared header : List String) : List Finding :=
  ((Text.distinct header).filter fun c => !declared.contains c).map fun c =>
    .about .error .header ("extra column '" ++ c ++ "' is not allowed") (some c)

/-- The warning about columns that stand in another order than declared. -/
def orderMismatch (declared header : List String) : List Finding :=
  let found := (Text.distinct header).filter declared.contains
  let expected := declared.filter header.contains
  if found = expected then []
  else
    [.about .warning .header
      ("column order mismatch: expected " ++ Text.quotedList expected ++ ", found " ++
        Text.quotedList found) none]

/-- The findings about a header. -/
def checkHeader (spec : ColumnSpec) (header : List String) : List Finding :=
  let declared := Text.distinct spec.names
  (if spec.allRequired then missingColumns declared header else []) ++
    (if spec.noExtra then extraColumns declared header else []) ++
    if spec.checkOrder then orderMismatch declared header else []

end TableRules.ColumnSpec
