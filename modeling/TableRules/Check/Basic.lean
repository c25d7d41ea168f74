import TableRules.Check.Cell
import TableRules.Check.Family
import TableRules.Check.Violation

/-!
# Checking cells

A **check** is a constraint made ready for checking: its date format is looked up and its numbers
are converted to doubles (`Check.ofConstraint`). `Check.violation?` says how a cell violates a
check, if it does.

* A null cell violates every check but those for null, for the type, for the format and for
  uniqueness.
* A comparison and a count of digits need a real number; equality, and membership in a set, hold
  within the precision.
* Uniqueness depends on the whole column; a check on no column finds no repetition.

The only fault of checking a cell is an integer that is too large to compare or has too many digits.
-/

namespace TableRules

/-- Why a constraint cannot be checked. -/
inductive CheckFault
  | number (fault : NumberFault)
  | unknownFormat (name : String)
  | noCell
  deriving DecidableEq, Repr

/-- The wording of a fault. -/
def CheckFault.message : CheckFault → String
  | .number .tooManyDigits => "too many digits"
  | .number .tooLarge => "number too large"
  | .unknownFormat name => "Unsupported date format: " ++ name
  | .noCell => "list index out of range"

/-- A constraint that is ready for checking. -/
inductive Check
  | ofType (t : ValueType)
  | inFormat (f : DateFormat)
  | present
  | null
  | unique
  | pattern (p : Pattern)
  | member (allowed : Bool) (texts : List String) (numbers : List Double)
  | text (equal : Bool) (expected : Wording)
  | compare (op : Comparison) (bound : Double)
  | length (bound : LengthBound) (count : Nat)
  | part (condition : PartCondition) (piece : Wording)
  | digits (kind : DigitKind) (count : Nat)

namespace Check

/-! ### Making checks -/

/-- The texts of a set. -/
def itemTexts (items : List SetItem) : List String :=
  items.filterMap fun
    | .text w => some w.value
    | .number _ => none

/-- The numbers of a set. -/
def itemNumbers (items : List SetItem) : List Number :=
  items.filterMap fun
    | .text _ => none
    | .number n => some n

/-- A number as a double. -/
def bound (n : Number) : Except CheckFault Double :=
  match n.toDouble? with
  | some x => .ok x
  | none => .error (.number .tooLarge)

/-- The check of a constraint. -/
def ofConstraint (catalog : Catalog) : Constraint → Except CheckFault Check
  | .hasType t => .ok (.ofType t)
  | .hasFormat w =>
    match catalog.get? w.value with
    | some f => .ok (.inFormat f)
    | none => .error (.unknownFormat w.shown)
  | .required => .ok .present
  | .notNull => .ok .present
  | .null => .ok .null
  | .unique => .ok .unique
  | .pattern p => .ok (.pattern p)
  | .member allowed items =>
    ((itemNumbers items).mapM bound).map fun xs => .member allowed (itemTexts items) xs
  | .text equal w => .ok (.text equal w)
  | .compare op n => (bound n).map fun x => .compare op x
  | .length b n => .ok (.length b n)
  | .part c w => .ok (.part c w)
  | .digits d n => .ok (.digits d n)

/-! ### Single conditions -/

/-- Whether two numbers are equal within the precision. -/
def isClose (precision a b : Double) : Bool := (a.distance b).lt precision

/-- Whether a number stands in a relation to a bound. -/
def relates (precision value bound : Double) : Comparison → Bool
  | .equal => isClose precision value bound
  | .notEqual => !isClose precision value bound
  | .greater => bound.lt value
  | .less => value.lt bound
  | .greaterOrEqual => bound.lt value || isClose precision value bound
  | .lessOrEqual => value.lt bound || isClose precision value bound

/-- Whether a length keeps within a bound. -/
def keeps (bound : LengthBound) (length limit : Nat) : Bool :=
  match bound with
  | .exactly => length == limit
  | .atLeast => limit ≤ length
  | .atMost => length ≤ limit

/-- Whether a text satisfies a condition on a part. -/
def hasPart (condition : PartCondition) (text piece : String) : Bool :=
  match condition with
  | .starts => Text.startsWith text piece
  | .ends => Text.endsWith text piece
  | .includes => Text.includes text piece
  | .excludes => !Text.includes text piece

/-- The counted digits of a kind. -/
def digitCount (kind : DigitKind) (d : DigitCount) : Nat :=
  match kind with
  | .significant => d.significant
  | .decimalPlaces => d.places

/-- The number that a cell stands for among the numbers of a set: its typed value if that is a real
number, else its text read as a number. -/
def setNumber (settings : Settings) (cell : Cell) : Except NumberFault (Option Double) :=
  match cell.typed? with
  | some v =>
    match v.isRealNumber, v.value with
    | true, some x => x.toDouble.map some
    | _, _ => .ok (parseReal? cell.text settings)
  | none => .ok (parseReal? cell.text settings)

/-- Whether a cell is in a set. -/
def isMember (settings : Settings) (texts : List String) (numbers : List Double) (cell : Cell) :
    Except NumberFault Bool :=
  if texts.contains cell.text then .ok true
  else if numbers.isEmpty then .ok false
  else (setNumber settings cell).map fun value =>
    value.any fun x => numbers.any fun n => isClose settings.precision x n

/-- A violation if a condition does not hold. -/
def demand (holds : Bool) (v : Violation) : Option Violation := if holds then none else some v

/-- The violation of a check that needs a real number by a cell without one; otherwise what `f` says
about the typed value and the number. -/
def onReal (cell : Cell)
    (f : TypedValue → Value → Except NumberFault (Option Violation)) :
    Except NumberFault (Option Violation) :=
  match cell.reading with
  | none => .ok (some .noType)
  | some (.misfit m) => .ok (some (.misfit m.reason))
  | some (.value v) =>
    match v.isRealNumber, v.value with
    | true, some x => f v x
    | _, _ => .ok (some (.notReal v.type))

/-! ### Checking -/

/-- How a cell violates the check for its type. -/
def typeViolation? (settings : Settings) (catalog : Catalog) (t : ValueType) (cell : Cell) :
    Except NumberFault (Option Violation) :=
  (coerce cell.raw t settings catalog).map fun
    | .value _ => none
    | .misfit m => some (.notOfType m.reason t)

/-- How a cell that is not null violates a check. -/
def valueViolation? (settings : Settings) (catalog : Catalog) (column : List Cell) (cell : Cell) :
    Check → Except NumberFault (Option Violation)
  | .ofType t => typeViolation? settings catalog t cell
  | .inFormat f => .ok (demand (f.parse? cell.text).isSome (.notInFormat f.name))
  | .present => .ok none
  | .null => .ok (some .notNull)
  | .unique =>
    let n := Cell.occurrences column cell
    .ok (demand (n ≤ 1) (.repeated n))
  | .pattern p => .ok (demand (p.matchesText cell.text) (.unmatched p.text))
  | .member allowed texts numbers =>
    (isMember settings texts numbers cell).map fun found =>
      demand (found == allowed) (if allowed then .notAllowed else .excluded)
  | .text equal w =>
    .ok (demand ((cell.text == w.value) == equal) (if equal then .different w else .same w))
  | .compare op bound =>
    onReal cell fun _ x => x.toDouble.map fun value =>
      demand (relates settings.precision value bound op) (.unrelated op bound)
  | .length b limit =>
    let n := cell.text.length
    .ok (demand (keeps b n limit) (.length b n limit))
  | .part condition w =>
    .ok (demand (hasPart condition cell.text w.value) (.part condition w))
  | .digits kind expected =>
    onReal cell fun v _ => .ok <|
      match DigitCount.ofText v.text with
      | .error _ => some .notDecimal
      | .ok d =>
        let n := digitCount kind d
        demand (n == expected) (.digits kind n expected)

/-- How a null cell violates a check. -/
def nullViolation? (cell : Cell) : Check → Option Violation
  | .ofType _ => none
  | .inFormat _ => none
  | .null => none
  | .unique => none
  | .present => some (if cell.text.isEmpty then .missing else .nullLiteral)
  | _ => some .nullValue

/-- How a cell violates a check, if it does. -/
def violation? (settings : Settings) (catalog : Catalog) (column : List Cell) (check : Check)
    (cell : Cell) : Except NumberFault (Option Violation) :=
  if cell.isNull then .ok (check.nullViolation? cell)
  else check.valueViolation? settings catalog column cell

end Check

namespace Rule

/-- The family of a rule. -/
def family (r : Rule) : RuleFamily := r.kind.family

/-- How the check of a rule on a column is shown. -/
def checkTitle? (r : Rule) (column : String) : Option String :=
  r.describe?.map fun phrase =>
    r.family.title ++ "(column=" ++ column ++ ", rule=" ++ Text.quoted phrase ++ ")"

/-- How a failed cell of a column is shown. -/
def failureText (phrase column message : String) : String :=
  "[" ++ phrase ++ "] " ++ column ++ ": " ++ message

end Rule

end TableRules
