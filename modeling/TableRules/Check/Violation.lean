import TableRules.Rule.Constraint
import TableRules.Value.Basic

/-!
# Violations

A violation is the reason why a cell fails a rule. `Violation.message` words it for a cell of a
given text.
-/

namespace TableRules

/-- Why a cell fails a rule. -/
inductive Violation
  | nullValue
  | noType
  | misfit (reason : String)
  | notOfType (reason : String) (type : ValueType)
  | notInFormat (name : String)
  | missing
  | nullLiteral
  | notNull
  | repeated (count : Nat)
  | unmatched (pattern : String)
  | notReal (type : ValueType)
  | unrelated (op : Comparison) (bound : Double)
  | notAllowed
  | excluded
  | different (expected : Wording)
  | same (expected : Wording)
  | length (bound : LengthBound) (actual limit : Nat)
  | part (condition : PartCondition) (piece : Wording)
  | notDecimal
  | digits (kind : DigitKind) (actual expected : Nat)

namespace Violation

/-- The remark on a rule that needs a type where none is declared. -/
def noTypeMessage : String := "no type declared"

/-- The wording of a length out of bounds. -/
def lengthMessage (bound : LengthBound) (actual limit : Nat) : String :=
  let what := match bound with
    | .exactly => " is not "
    | .atLeast => " is less than minimum "
    | .atMost => " exceeds maximum "
  "length " ++ Text.decimal actual ++ what ++ Text.decimal limit

/-- The wording of a missing or excluded part. -/
def partMessage (condition : PartCondition) (value piece : String) : String :=
  let what := match condition with
    | .starts => " does not start with '"
    | .ends => " does not end with '"
    | .includes => " does not include '"
    | .excludes => " includes excluded text '"
  value ++ what ++ piece ++ "'"

/-- The name of the digits that are counted. -/
def digitName : DigitKind → String
  | .significant => " significant digits"
  | .decimalPlaces => " decimal places"

/-- The wording of a violation by a cell with a given text. -/
def message (text : String) (v : Violation) : String :=
  let value := "value '" ++ text ++ "'"
  match v with
  | .nullValue => "value is null"
  | .noType => noTypeMessage
  | .misfit reason => "'" ++ text ++ "': " ++ reason
  | .notOfType reason t => "'" ++ text ++ "': " ++ reason ++ " (" ++ t.name ++ ")"
  | .notInFormat name => "'" ++ text ++ "' does not match format '" ++ name ++ "'"
  | .missing => "value is missing"
  | .nullLiteral => value ++ " is a null literal"
  | .notNull => "expected null, got '" ++ text ++ "'"
  | .repeated n => "duplicate " ++ value ++ " (" ++ Text.decimal n ++ " occurrences)"
  | .unmatched pattern => value ++ " does not match pattern /" ++ pattern ++ "/"
  | .notReal t => value ++ " is not a real number (" ++ t.name ++ ")"
  | .unrelated op bound => "value " ++ text ++ " is not " ++ op.operator ++ " " ++ bound.plain
  | .notAllowed => value ++ " is not one of the allowed values"
  | .excluded => value ++ " is one of the excluded values"
  | .different w => value ++ " is not '" ++ w.shown ++ "'"
  | .same w => "value must not be '" ++ w.shown ++ "'"
  | .length bound actual limit => lengthMessage bound actual limit
  | .part condition piece => partMessage condition value piece.shown
  | .notDecimal => value ++ " is not a decimal number"
  | .digits kind actual expected =>
    value ++ " has " ++ Text.decimal actual ++ digitName kind ++ ", expected " ++
      Text.decimal expected

end Violation

end TableRules
