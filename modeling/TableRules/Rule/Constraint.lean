import TableRules.FieldFault
import TableRules.Number.Notation
import TableRules.Pattern.Compile
import TableRules.Rule.Kind
import TableRules.ValueType

/-!
# Constraints and rules

A **constraint** is what a rule asks of the cells of a column; each carries an argument of the type
its kind needs. A **rule** is a constraint and the line it was declared on, which matters for
reports only.

* `Constraint.ofArgument` makes a constraint from a kind and an argument of any type, and says
  what is wrong with an argument that does not fit.
* `Constraint.describe?` is the phrase of a constraint in a rules text. A number is shown without
  a needless `.0`; an integer beyond the largest double cannot be shown.
-/

namespace TableRules

/-- A number as an argument: an exact integer, or a double. -/
inductive Number
  | integer (n : Int)
  | real (x : Double)
  deriving DecidableEq

namespace Number

/-- The number as a double; `none` when it is an integer beyond the largest one. -/
def toDouble? : Number → Option Double
  | .integer n => Double.ofInt? n
  | .real x => some x

/-- The text of a number in a rule; `none` when it is an integer beyond the largest double. -/
def plain? : Number → Option String
  | .integer n => (Double.ofInt? n).map fun _ => Text.decimalInt n
  | .real x => some x.plain

end Number

/-- A text as an argument: a text, or a value type that stands for its name. -/
inductive Wording
  | text (s : String)
  | typeName (t : ValueType)
  deriving DecidableEq

namespace Wording

/-- The text that cells are compared with. -/
def value : Wording → String
  | .text s => s
  | .typeName t => t.name

/-- The text shown in messages. -/
def shown : Wording → String
  | .text s => s
  | .typeName t => t.symbol

end Wording

/-- A member of a set of allowed or excluded values. -/
inductive SetItem
  | text (w : Wording)
  | number (n : Number)
  deriving DecidableEq

/-- The comparisons of numbers. -/
inductive Comparison
  | equal
  | notEqual
  | greater
  | less
  | greaterOrEqual
  | lessOrEqual
  deriving DecidableEq, Repr

/-- The operator of a comparison. -/
def Comparison.operator : Comparison → String
  | .equal => "=="
  | .notEqual => "!="
  | .greater => ">"
  | .less => "<"
  | .greaterOrEqual => ">="
  | .lessOrEqual => "<="

/-- The conditions on a length. -/
inductive LengthBound
  | exactly
  | atLeast
  | atMost
  deriving DecidableEq, Repr

/-- The conditions on a part of a text. -/
inductive PartCondition
  | starts
  | ends
  | includes
  | excludes
  deriving DecidableEq, Repr

/-- The digits of a number that can be counted. -/
inductive DigitKind
  | significant
  | decimalPlaces
  deriving DecidableEq, Repr

/-- What a rule asks of the cells of a column. -/
inductive Constraint
  | hasType (t : ValueType)
  | hasFormat (name : Wording)
  | required
  | notNull
  | null
  | unique
  | pattern (p : Pattern)
  | member (allowed : Bool) (items : List SetItem)
  | text (equal : Bool) (expected : Wording)
  | compare (op : Comparison) (bound : Number)
  | length (bound : LengthBound) (count : Nat)
  | part (condition : PartCondition) (piece : Wording)
  | digits (kind : DigitKind) (count : Nat)

/-- A constraint and the line of its declaration. -/
structure Rule where
  constraint : Constraint
  line : Option Int

/-- An argument of any type. -/
inductive Argument
  | none
  | text (w : Wording)
  | number (n : Number)
  | boolean (b : Bool)
  | pattern (p : Pattern)
  | items (xs : List Argument)

namespace Constraint

/-- The kind of a constraint. -/
def kind : Constraint → RuleKind
  | .hasType _ => .typeIs
  | .hasFormat _ => .formatIs
  | .required => .required
  | .notNull => .isNotNull
  | .null => .isNull
  | .unique => .unique
  | .pattern _ => .matchesPattern
  | .member true _ => .inSet
  | .member false _ => .notInSet
  | .text true _ => .equalsText
  | .text false _ => .notEqualsText
  | .compare .equal _ => .equalsNumber
  | .compare .notEqual _ => .notEqualsNumber
  | .compare .greater _ => .greaterThan
  | .compare .less _ => .lessThan
  | .compare .greaterOrEqual _ => .greaterOrEqual
  | .compare .lessOrEqual _ => .lessOrEqual
  | .length .exactly _ => .hasLength
  | .length .atLeast _ => .minLength
  | .length .atMost _ => .maxLength
  | .part .starts _ => .startsWith
  | .part .ends _ => .endsWith
  | .part .includes _ => .includes
  | .part .excludes _ => .excludesSubstring
  | .digits .significant _ => .significantDigits
  | .digits .decimalPlaces _ => .decimalPlaces

/-- A member of a set as an argument. -/
def itemArgument : SetItem → Argument
  | .text w => .text w
  | .number n => .number n

/-- The argument of a constraint. -/
def argument : Constraint → Argument
  | .hasType t => .text (.typeName t)
  | .hasFormat w => .text w
  | .pattern p => .pattern p
  | .member _ items => .items (items.map itemArgument)
  | .text _ w => .text w
  | .compare _ n => .number n
  | .length _ n => .number (.integer n)
  | .part _ w => .text w
  | .digits _ n => .number (.integer n)
  | _ => .none

/-! ### Making constraints -/

/-- The types of arguments, as far as a fault names them. -/
inductive ArgumentType
  | nothing
  | valueType
  | text
  | number
  | count
  | items
  | pattern
  deriving DecidableEq, Repr

/-- The fault of a kind with an argument of the wrong type. -/
def misfit (k : RuleKind) (t : ArgumentType) : FieldFault :=
  .rejected .none <| match t with
    | .nothing => k.name ++ " takes no argument"
    | .valueType => "type_is requires a ValueType argument"
    | .text => k.name ++ " requires a string argument"
    | .number => k.name ++ " requires a numeric argument"
    | .count => k.name ++ " requires a non-negative integer argument"
    | .items => k.name ++ " requires a list of strings or numbers"
    | .pattern => "matches_pattern requires a compiled pattern"

/-- A constraint without an argument. -/
def bare (k : RuleKind) (c : Constraint) : Argument → Except FieldFault Constraint
  | .none => .ok c
  | _ => .error (misfit k .nothing)

/-- A constraint on a text. -/
def withText (k : RuleKind) (make : Wording → Constraint) : Argument → Except FieldFault Constraint
  | .text w => .ok (make w)
  | _ => .error (misfit k .text)

/-- A constraint on a number. -/
def withNumber (op : Comparison) : Argument → Except FieldFault Constraint
  | .number n => .ok (.compare op n)
  | _ => .error (misfit (Constraint.compare op (.integer 0)).kind .number)

/-- A constraint on a count. -/
def withCount (k : RuleKind) (make : Nat → Constraint) : Argument → Except FieldFault Constraint
  | .number (.integer n) => if 0 ≤ n then .ok (make n.toNat) else .error (misfit k .count)
  | _ => .error (misfit k .count)

/-- A member of a set from an argument. -/
def item? : Argument → Option SetItem
  | .text w => some (.text w)
  | .number n => some (.number n)
  | _ => .none

/-- A constraint on the members of a set. -/
def withItems (k : RuleKind) (allowed : Bool) : Argument → Except FieldFault Constraint
  | .items xs =>
    match xs.mapM item? with
    | some items => .ok (.member allowed items)
    | .none => .error (misfit k .items)
  | _ => .error (misfit k .items)

/-- The constraint of a kind with an argument. -/
def ofArgument (k : RuleKind) (a : Argument) : Except FieldFault Constraint :=
  match k with
  | .typeIs =>
    match a with
    | .text (.typeName t) => .ok (.hasType t)
    | _ => .error (misfit k .valueType)
  | .formatIs => withText k .hasFormat a
  | .required => bare k .required a
  | .unique => bare k .unique a
  | .isNull => bare k .null a
  | .isNotNull => bare k .notNull a
  | .matchesPattern =>
    match a with
    | .pattern p => .ok (.pattern p)
    | _ => .error (misfit k .pattern)
  | .inSet => withItems k true a
  | .notInSet => withItems k false a
  | .equalsText => withText k (.text true) a
  | .notEqualsText => withText k (.text false) a
  | .equalsNumber => withNumber .equal a
  | .notEqualsNumber => withNumber .notEqual a
  | .greaterThan => withNumber .greater a
  | .lessThan => withNumber .less a
  | .greaterOrEqual => withNumber .greaterOrEqual a
  | .lessOrEqual => withNumber .lessOrEqual a
  | .hasLength => withCount k (.length .exactly) a
  | .minLength => withCount k (.length .atLeast) a
  | .maxLength => withCount k (.length .atMost) a
  | .startsWith => withText k (.part .starts) a
  | .endsWith => withText k (.part .ends) a
  | .includes => withText k (.part .includes) a
  | .excludesSubstring => withText k (.part .excludes) a
  | .significantDigits => withCount k (.digits .significant) a
  | .decimalPlaces => withCount k (.digits .decimalPlaces) a

/-! ### Describing constraints -/

/-- A text between double quotes. -/
def inQuotes (s : String) : String := "\x22" ++ s ++ "\x22"

/-- A member of a set in a rules text. -/
def describeItem? : SetItem → Option String
  | .text w => some (inQuotes w.shown)
  | .number n => n.plain?

/-- A bracketed list of members in a rules text. -/
def describeItems? (items : List SetItem) : Option String :=
  (items.mapM describeItem?).map fun xs => "[" ++ Text.joinWith ", " xs ++ "]"

/-- The words of a condition on a length. -/
def lengthWords : LengthBound → String
  | .exactly => "has length "
  | .atLeast => "has min length "
  | .atMost => "has max length "

/-- The words of a condition on a part. -/
def partWords : PartCondition → String
  | .starts => "starts with "
  | .ends => "ends with "
  | .includes => "includes "
  | .excludes => "excludes "

/-- The words of a condition on digits. -/
def digitWords : DigitKind → String
  | .significant => "has significant digits "
  | .decimalPlaces => "has decimal places "

/-- The phrase of a constraint in a rules text; `none` when a number in it is beyond the largest
double. -/
def describe? : Constraint → Option String
  | .hasType t => some ("has value type " ++ t.name)
  | .hasFormat w => some ("has format " ++ inQuotes w.shown)
  | .required => some "is required"
  | .notNull => some "is not null"
  | .null => some "is null"
  | .unique => some "is unique"
  | .pattern p => some ("matches /" ++ p.text ++ "/")
  | .member true items => (describeItems? items).map ("is in " ++ ·)
  | .member false items => (describeItems? items).map ("is not in " ++ ·)
  | .text true w => some ("is " ++ inQuotes w.shown)
  | .text false w => some ("is not " ++ inQuotes w.shown)
  | .compare op n => n.plain?.map fun t => "is " ++ op.operator ++ " " ++ t
  | .length b n => some (lengthWords b ++ Text.decimal n)
  | .part c w => some (partWords c ++ inQuotes w.shown)
  | .digits d n => some (digitWords d ++ Text.decimal n)

/-- The declared type, if the constraint declares one. -/
def declaredType? : Constraint → Option ValueType
  | .hasType t => some t
  | _ => .none

end Constraint

namespace Rule

/-- The kind of a rule. -/
def kind (r : Rule) : RuleKind := r.constraint.kind

/-- The phrase of a rule in a rules text. -/
def describe? (r : Rule) : Option String := r.constraint.describe?

/-- The rule of a kind with an argument, declared on a line. -/
def make (k : RuleKind) (a : Argument) (line : Option Int) : Except FieldFault Rule :=
  (Constraint.ofArgument k a).map fun c => ⟨c, line⟩

/-- Whether a rule declares a value type. -/
def declaresType (r : Rule) : Bool := r.constraint.declaredType?.isSome

end Rule

end TableRules
