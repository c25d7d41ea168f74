import TableRules.FieldFault
import TableRules.Number.Literal
import TableRules.Text.Quoted

/-!
# Settings

The settings hold for every value that is read: the texts that stand for no value, the separator
between groups of digits, and the precision within which two numbers count as equal.

**The decimal mark** is a point, except where the point separates groups of digits; there it is a
comma.
-/

namespace TableRules

/-- A separator between groups of digits. -/
inductive Separator
  | point
  | comma
  | underscore
  | apostrophe
  | space
  deriving DecidableEq, Repr

namespace Separator

/-- The character of a separator. -/
def char : Separator → Char
  | .point => '.'
  | .comma => ','
  | .underscore => '_'
  | .apostrophe => '\x27'
  | .space => ' '

/-- The separators, in increasing order of their characters. -/
def all : List Separator := [.space, .apostrophe, .comma, .point, .underscore]

/-- A separator as a text. -/
def text (s : Separator) : String := String.ofList [s.char]

/-- The separator that a text consists of. -/
def ofText? (s : String) : Option Separator := all.find? fun t => t.text == s

/-- The reason for refusing a text as a separator. -/
def refusal (s : String) : String :=
  "thousands separator must be one of " ++ Text.quotedList (all.map text) ++ ", got " ++
    Text.quoted s

end Separator

/-- Whether a number is greater than zero. -/
def Double.isPositive (x : Double) : Bool := (Double.zero false).lt x

/-- The settings under which values are read. -/
structure Settings where
  nullValues : List String
  separator : Option Separator
  precision : Double
  precision_pos : precision.isPositive = true

namespace Settings

/-- The precision in force when none is declared, a thousandth. -/
def defaultPrecision : Double := Double.ofDecimal false 1 (-3)

theorem defaultPrecision_pos : defaultPrecision.isPositive = true := by decide +kernel

/-- Settings without null values and separator. -/
def standard : Settings := ⟨[], none, defaultPrecision, defaultPrecision_pos⟩

/-- Reads an optional separator. -/
def readSeparator (s : Option String) : Except FieldFault (Option Separator) :=
  match s with
  | none => .ok none
  | some t =>
    match Separator.ofText? t with
    | some sep => .ok (some sep)
    | none => .error (.rejected (some "thousands_separator") (Separator.refusal t))

/-- Reads a precision; `none` is a number that is too large for a double. -/
def readPrecision (x : Option Double) : Except FieldFault (Subtype (Double.isPositive · = true)) :=
  match x with
  | none => .error (.notNumber "precision")
  | some x => if h : x.isPositive = true then .ok ⟨x, h⟩ else .error (.notPositive "precision")

/-- A number is a precision exactly if it is a positive double. -/
theorem readPrecision_eq_ok_iff {x : Option Double} {p : Subtype (Double.isPositive · = true)} :
    readPrecision x = .ok p ↔ x = some p.1 := by
  cases x with
  | none => simp [readPrecision]
  | some x =>
    rw [Option.some.injEq]
    by_cases h : x.isPositive = true
    · rw [readPrecision, dif_pos h, Except.ok.injEq, Subtype.ext_iff]
    · rw [readPrecision, dif_neg h]
      exact ⟨nofun, fun heq => absurd (heq ▸ p.2) h⟩

/-- Settings with a precision that has been read. -/
def ofPrecision (nullValues : List String) (separator : Option Separator)
    (precision : Subtype (Double.isPositive · = true)) : Settings :=
  ⟨nullValues, separator, precision.1, precision.2⟩

/-- Settings with given fields, or the faults of the fields. -/
def make (nullValues : List String) (separator : Option String) (precision : Option Double) :
    Except (List FieldFault) Settings :=
  match readSeparator separator, readPrecision precision with
  | .ok sep, .ok p => .ok (ofPrecision nullValues sep p)
  | sep, p => .error (FieldFault.ofResult sep ++ FieldFault.ofResult p)

/-- The mark between the whole and the fractional digits of a number. -/
def decimalMark (s : Settings) : Char := if s.separator = some .point then ',' else '.'

/-- The null values, each once, in increasing order. -/
def sortedNullValues (s : Settings) : List String := Text.sortedDistinct s.nullValues

end Settings

end TableRules
