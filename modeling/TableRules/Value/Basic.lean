import TableRules.Calendar.DateFormat
import TableRules.Number.Notation
import TableRules.ValueType

/-!
# Typed values

A **value** is what a cell stands for once its column's type is known. A `TypedValue` adds the
type, the text that was read after normalization, and for a date-time the name of the format that
read it; a null cell has no value.

Two typed values are equal (`TypedValue.equal`) when their values, types and formats are; the text
takes no part. Values are compared as numbers, so the two zeros are equal.
-/

namespace TableRules

/-- A number that cannot be worked with: an integer with more digits than are read, or an integer
beyond the largest double. -/
inductive NumberFault
  | tooManyDigits
  | tooLarge
  deriving DecidableEq, Repr

/-- The value of a cell. -/
inductive Value
  | integer (n : Int)
  | real (x : Double)
  | complex (re im : Double)
  | boolean (b : Bool)
  | dateTime (d : DateTime)
  | text (s : String)
  deriving DecidableEq

namespace Value

/-- Whether two values are equal. -/
def equal : Value → Value → Bool
  | .integer m, .integer n => m == n
  | .real x, .real y => x.eq y
  | .complex a b, .complex c d => a.eq c && b.eq d
  | .boolean a, .boolean b => a == b
  | .dateTime a, .dateTime b => a.toComponents == b.toComponents
  | .text a, .text b => a == b
  | _, _ => false

/-- The value as a double, if it is a real number; an integer may be too large for one. -/
def toDouble : Value → Except NumberFault Double
  | .integer n =>
    match Double.ofInt? n with
    | some x => .ok x
    | none => .error .tooLarge
  | .real x => .ok x
  | _ => .ok .nan

end Value

/-- A cell that was read with a type. -/
structure TypedValue where
  value : Option Value
  type : ValueType
  text : String
  format : Option String
  deriving DecidableEq

namespace TypedValue

/-- The typed value of a null cell. -/
def null (t : ValueType) : TypedValue := ⟨none, t, "", none⟩

/-- Whether the cell is null. -/
def isNull (v : TypedValue) : Bool := v.value.isNone

/-- Whether the cell holds a real number. -/
def isRealNumber (v : TypedValue) : Bool := v.type.isReal && v.value.isSome

/-- Whether two optional values are equal. -/
def equalValues : Option Value → Option Value → Bool
  | none, none => true
  | some a, some b => a.equal b
  | _, _ => false

/-- Whether two typed values are equal. -/
def equal (v w : TypedValue) : Bool :=
  equalValues v.value w.value && v.type == w.type && v.format == w.format

end TypedValue

/-- A cell whose text does not fit its type. -/
structure Misfit where
  raw : String
  type : ValueType
  reason : String
  deriving DecidableEq, Repr

namespace Misfit

/-- The reason for a text that has not the form its type asks for. -/
def wrongForm : String := "value does not match declared type"

/-- The reason for a text that no date format reads. -/
def noFormat : String := "value does not match any supported date-time format"

/-- A misfit with its text and type. -/
def describe (m : Misfit) : String :=
  "'" ++ m.raw ++ "': " ++ m.reason ++ " (" ++ m.type.name ++ ")"

end Misfit

/-- The outcome of reading a cell with a type. -/
inductive Reading
  | value (v : TypedValue)
  | misfit (m : Misfit)
  deriving DecidableEq

namespace Reading

/-- The typed value of a reading, if it has one. -/
def value? : Reading → Option TypedValue
  | .value v => some v
  | .misfit _ => none

/-- Whether a reading failed. -/
def isMisfit : Reading → Bool
  | .value _ => false
  | .misfit _ => true

end Reading

end TableRules
