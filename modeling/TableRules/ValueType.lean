/-!
# Value types

The types that a column can declare for its values. `ValueType.name` is the name a rules text uses;
`ValueType.ofPhrase?` also knows the short names `float` and `datetime`.
-/

namespace TableRules

/-- The types of values in a column. -/
inductive ValueType
  | integer
  | floatingPoint
  | scientific
  | complex
  | boolean
  | dateTime
  | string
  deriving DecidableEq, Repr

namespace ValueType

/-- The value types, in the order in which they are listed to the user. -/
def all : List ValueType :=
  [.integer, .floatingPoint, .scientific, .complex, .boolean, .dateTime, .string]

/-- The name of a value type. -/
def name : ValueType → String
  | .integer => "integer"
  | .floatingPoint => "floating point"
  | .scientific => "scientific"
  | .complex => "complex"
  | .boolean => "boolean"
  | .dateTime => "date-time"
  | .string => "string"

/-- The symbol that stands for a value type where a text was expected. -/
def symbol : ValueType → String
  | .integer => "ValueType.INTEGER"
  | .floatingPoint => "ValueType.FLOATING_POINT"
  | .scientific => "ValueType.SCIENTIFIC"
  | .complex => "ValueType.COMPLEX"
  | .boolean => "ValueType.BOOLEAN"
  | .dateTime => "ValueType.DATE_TIME"
  | .string => "ValueType.STRING"

/-- The value type with a given name. -/
def ofName? (s : String) : Option ValueType := all.find? fun t => t.name == s

/-- The value type that a phrase of a rules text names. -/
def ofPhrase? (s : String) : Option ValueType :=
  if s == "float" then some .floatingPoint
  else if s == "datetime" then some .dateTime
  else ofName? s

/-- Whether the values of a type are numbers. -/
def isNumeric : ValueType → Bool
  | .integer => true
  | .floatingPoint => true
  | .scientific => true
  | .complex => true
  | _ => false

/-- Whether the values of a type are real numbers. -/
def isReal : ValueType → Bool
  | .integer => true
  | .floatingPoint => true
  | .scientific => true
  | _ => false

/-- Different types have different names. -/
theorem name_injective {s t : ValueType} (h : s.name = t.name) : s = t := by
  revert h
  cases s <;> cases t <;> decide

end ValueType

end TableRules
