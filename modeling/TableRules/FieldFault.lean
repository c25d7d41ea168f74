/-!
# Faults of a record's fields

A record such as the settings or a column block is checked field by field when it is made. A
`FieldFault` says which field breaks which condition; a record may break several at once.
-/

namespace TableRules

/-- A field of a record that breaks a condition. `rejected` is a condition of the record's own, on
one field or on the record as a whole. -/
inductive FieldFault
  | emptyText (field : String)
  | noItems (field : String)
  | notNumber (field : String)
  | notPositive (field : String)
  | below (field : String) (least : String)
  | above (field : String) (greatest : String)
  | notInteger (field : String)
  | notOneOf (field : String) (choices : List String)
  | missing (field : String)
  | rejected (field : Option String) (reason : String)
  deriving DecidableEq, Repr

namespace FieldFault

/-- The field a fault is about; none when it is about the whole record. -/
def location : FieldFault → List String
  | .emptyText f => [f]
  | .noItems f => [f]
  | .notNumber f => [f]
  | .notPositive f => [f]
  | .below f _ => [f]
  | .above f _ => [f]
  | .notInteger f => [f]
  | .notOneOf f _ => [f]
  | .missing f => [f]
  | .rejected (some f) _ => [f]
  | .rejected none _ => []

/-- The kind of a fault. -/
def kind : FieldFault → String
  | .emptyText _ => "string_too_short"
  | .noItems _ => "too_short"
  | .notNumber _ => "float_type"
  | .notPositive _ => "greater_than"
  | .below _ _ => "greater_than_equal"
  | .above _ _ => "less_than_equal"
  | .notInteger _ => "int_parsing"
  | .notOneOf _ _ => "literal_error"
  | .missing _ => "missing"
  | .rejected _ _ => "value_error"

/-- Quoted alternatives, the last one after `or`. -/
def alternatives : List String → String
  | [] => ""
  | [a] => "'" ++ a ++ "'"
  | [a, b] => "'" ++ a ++ "' or '" ++ b ++ "'"
  | a :: rest => "'" ++ a ++ "', " ++ alternatives rest

/-- The wording of a fault. -/
def message : FieldFault → String
  | .emptyText _ => "String should have at least 1 character"
  | .noItems _ => "Tuple should have at least 1 item after validation, not 0"
  | .notNumber _ => "Input should be a valid number"
  | .notPositive _ => "Input should be greater than 0"
  | .below _ n => "Input should be greater than or equal to " ++ n
  | .above _ n => "Input should be less than or equal to " ++ n
  | .notInteger _ => "Input should be a valid integer, unable to parse string as an integer"
  | .notOneOf _ choices => "Input should be " ++ alternatives choices
  | .missing _ => "Field required"
  | .rejected _ reason => "Value error, " ++ reason

/-- The fault of a result, if it is one. -/
def ofResult {α : Type} : Except FieldFault α → List FieldFault
  | .ok _ => []
  | .error f => [f]

end FieldFault

end TableRules
