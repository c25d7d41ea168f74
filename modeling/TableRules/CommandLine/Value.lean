import TableRules.Rule.Constraint
import TableRules.Table.Workbook
import TableRules.Value.Coercion

/-!
# Values of options

The values that a run is given for paths, workers, delimiter and sheet are checked before any file
is opened, so only their shape matters here. Each check answers with the value that is used, or with
what is wrong with it.
-/

namespace TableRules

/-- What is wrong with the value of an option. -/
inductive ValueFault
  | noPath
  | blankPath
  | nulInPath
  | longPath
  | workersNotInteger
  | tooFewWorkers
  | tooManyWorkers
  | notOneCharacter
  | badDelimiter
  | noSheet
  | sheetNotText
  | tooManyDigits
  deriving DecidableEq, Repr

/-- The greatest number of characters of a path. -/
def greatestPathLength : Nat := 4096

/-- The greatest number of workers. -/
def greatestWorkerCount : Nat := 64

/-- The wording of a fault in the option of a given name. -/
def ValueFault.message (option : String) (f : ValueFault) : String :=
  option ++ match f with
    | .noPath => " must be a non-empty string"
    | .blankPath => " cannot be empty or whitespace-only"
    | .nulInPath => " contains null bytes"
    | .longPath =>
      " exceeds maximum length of " ++ Text.decimal greatestPathLength ++ " characters"
    | .workersNotInteger => " must be an integer"
    | .tooFewWorkers => " must be at least 1"
    | .tooManyWorkers => " cannot exceed " ++ Text.decimal greatestWorkerCount
    | .notOneCharacter => " must be a single character"
    | .badDelimiter => " cannot be a newline or quote character"
    | .noSheet => " cannot be empty"
    | .sheetNotText => " must be a string"
    | .tooManyDigits => " has too many digits"

namespace Argument

/-- The text of an argument. -/
def text? : Argument → Option String
  | .text w => some w.value
  | _ => .none

/-- Whether an argument is nothing, a zero, or empty. -/
def isVoid : Argument → Bool
  | .none => true
  | .text w => w.value == ""
  | .number (.integer n) => n == 0
  | .number (.real x) => x.isZero
  | .boolean b => !b
  | .pattern _ => false
  | .items xs => xs.isEmpty

/-- The path that an argument is. -/
def toPathText (a : Argument) : Except ValueFault String :=
  match a.text? with
  | .none => .error .noPath
  | some "" => .error .noPath
  | some s =>
    let cs := Text.trimChars s.toList
    if cs.isEmpty then .error .blankPath
    else if cs.contains (Char.ofNat 0) then .error .nulInPath
    else if greatestPathLength < cs.length then .error .longPath
    else .ok (String.ofList cs)

/-- The number of workers that an argument is. -/
def toWorkerCount : Argument → Except ValueFault Int
  | .number (.integer n) =>
    if n < 1 then .error .tooFewWorkers
    else if (greatestWorkerCount : Int) < n then .error .tooManyWorkers
    else .ok n
  | _ => .error .workersNotInteger

/-- The delimiter that an argument is: one character, or the two that stand for a tab. -/
def toDelimiter (a : Argument) : Except ValueFault Char :=
  match a.text?.map String.toList with
  | some ['\\', 't'] => .ok '\t'
  | some [c] =>
    if c == '\r' || c == '\n' || c == '"' then .error .badDelimiter else .ok c
  | _ => .error .notOneCharacter

/-- The sheet that an argument is: digits are a position, anything else is a name. -/
def toSheet (a : Argument) : Except ValueFault SheetChoice :=
  if a.isVoid then .error .noSheet
  else match a.text? with
    | .none => .error .sheetNotText
    | some s =>
      let cs := Text.trimChars s.toList
      if cs.isEmpty then .error .noSheet
      else if !cs.all Text.isDigit then .ok (.named (String.ofList cs))
      else if digitLimit < cs.length then .error .tooManyDigits
      else .ok (.position (Text.digitsValue cs))

end Argument

end TableRules
