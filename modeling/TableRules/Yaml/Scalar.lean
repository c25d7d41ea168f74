import TableRules.Calendar.DateTime
import TableRules.Pattern.Compile

/-!
# Scalars of YAML documents

A quoted scalar is a text. A plain scalar has the type that its form says: nothing, a truth value,
an integer, a real number, a date or a date-time, and otherwise it is a text as well.

The forms are those of YAML 1.1: integers may be binary, octal, hexadecimal or sexagesimal, and
reals need a point. A date has to exist. The forms `=` and `<<` stand for no value.
-/

namespace TableRules.Yaml

/-- Why a text is no document. -/
inductive Fault
  | malformed
  | notInCalendar (reason : String)
  deriving DecidableEq, Repr

/-- The value of a scalar. Only texts keep what they hold. -/
inductive Scalar
  | text (s : String)
  | null
  | boolean
  | integer
  | real
  | date
  | dateTime
  deriving DecidableEq, Repr

/-- The name of the type of a scalar. -/
def Scalar.typeName : Scalar → String
  | .text _ => "str"
  | .null => "NoneType"
  | .boolean => "bool"
  | .integer => "int"
  | .real => "float"
  | .date => "date"
  | .dateTime => "datetime"

/-- Whether a whole text has the form of a pattern. -/
def hasForm (pattern text : String) : Bool :=
  match Pattern.compile pattern with
  | .ok p => p.matchesText text
  | .error _ => false

/-- The plain scalars that stand for no value. -/
def nullWords : List String := ["~", "null", "Null", "NULL", ""]

/-- The plain scalars that stand for a truth value. -/
def booleanWords : List String :=
  ["yes", "Yes", "YES", "no", "No", "NO", "true", "True", "TRUE", "false", "False", "FALSE",
   "on", "On", "ON", "off", "Off", "OFF"]

/-- The forms of integers. -/
def integerForm : String :=
  "[-+]?0b[0-1_]+|[-+]?0[0-7_]+|[-+]?(?:0|[1-9][0-9_]*)|[-+]?0x[0-9a-fA-F_]+|" ++
    "[-+]?[1-9][0-9_]*(?::[0-5]?[0-9])+"

/-- The forms of reals. -/
def realForm : String :=
  "[-+]?[0-9][0-9_]*\\.[0-9_]*(?:[eE][-+][0-9]+)?|\\.[0-9][0-9_]*(?:[eE][-+][0-9]+)?|" ++
    "[-+]?[0-9][0-9_]*(?::[0-5]?[0-9])+\\.[0-9_]*|[-+]?\\.(?:inf|Inf|INF)|\\.(?:nan|NaN|NAN)"

/-- The form of dates. -/
def dateForm : String := "[0-9][0-9][0-9][0-9]-[0-9][0-9]-[0-9][0-9]"

/-- The form of date-times. -/
def dateTimeForm : String :=
  "[0-9][0-9][0-9][0-9]-[0-9][0-9]?-[0-9][0-9]?(?:[Tt]|[ \\t]+)[0-9][0-9]?:[0-9][0-9]:[0-9][0-9]" ++
    "(?:\\.[0-9]*)?(?:[ \\t]*(?:Z|[-+][0-9][0-9]?(?::[0-9][0-9])?))?"

/-- The numbers in a text, in order. -/
def numbersIn (text : String) : List Nat :=
  ((Text.splitAtChars (fun c => !Text.isDigit c) text.toList).filter fun ds => !ds.isEmpty).map
    Text.digitsValue

/-- Why a date or time does not exist, given its components. -/
def calendarFault? (year month day hour minute second : Nat) : Option String :=
  if year = 0 then some "year 0 is out of range"
  else if month < 1 || 12 < month then some "month must be in 1..12"
  else if day < 1 || daysInMonth year month < day then some "day is out of range for month"
  else if 23 < hour then some "hour must be in 0..23"
  else if 59 < minute then some "minute must be in 0..59"
  else if 59 < second then some "second must be in 0..59"
  else none

/-- A date or date-time, if it exists. -/
def calendarScalar (text : String) (s : Scalar) : Except Fault Scalar :=
  let ns := numbersIn text
  let n (i : Nat) : Nat := ns.getD i 0
  let time (i : Nat) : Nat := if s = .dateTime then n i else 0
  match calendarFault? (n 0) (n 1) (n 2) (time 3) (time 4) (time 5) with
  | some reason => .error (.notInCalendar reason)
  | none => .ok s

/-- The value of a plain scalar. -/
def Scalar.ofPlain (text : String) : Except Fault Scalar :=
  if nullWords.contains text then .ok .null
  else if booleanWords.contains text then .ok .boolean
  else if hasForm realForm text then .ok .real
  else if hasForm integerForm text then .ok .integer
  else if hasForm dateForm text then calendarScalar text .date
  else if hasForm dateTimeForm text then calendarScalar text .dateTime
  else if text == "=" || text == "<<" then .error .malformed
  else .ok (.text text)

end TableRules.Yaml
