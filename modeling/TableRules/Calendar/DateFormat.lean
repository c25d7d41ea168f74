import TableRules.Calendar.DateTime
import TableRules.Text.Search

/-!
# Date formats

A date format is written with placeholder tokens (`YYYY-MM-DD`); every other character stands for
itself. Reading a name from the left and taking the longest token at each position gives its
**parts** (`Part.ofChars`), and the parts spell the name again (`Part.spell_ofChars`).

A format is a name whose parts hold at least one field, no field twice and no two fields for the
same component (`DateFormat.fault? name = none`). Every field has a fixed width, so a format reads
only texts of its own length:

* `DateFormat.parse?` reads a text as a date-time; components that the format does not name are
  the first of January 1900, midnight. A two-digit year below 69 belongs to the 21st century.
* `DateFormat.render` writes a date-time.
-/

namespace TableRules

/-- A component of a date-time as a format captures it. -/
inductive Field
  | year
  | monthName
  | millisecond
  | shortYear
  | month
  | day
  | hour
  | minute
  | second
  deriving DecidableEq, Repr

namespace Field

/-- The fields, those with longer tokens first. -/
def all : List Field :=
  [.year, .monthName, .millisecond, .shortYear, .month, .day, .hour, .minute, .second]

/-- The placeholder of a field in a format. -/
def token : Field → String
  | .year => "YYYY"
  | .monthName => "MMM"
  | .millisecond => "fff"
  | .shortYear => "YY"
  | .month => "MM"
  | .day => "DD"
  | .hour => "hh"
  | .minute => "mm"
  | .second => "ss"

/-- The name of a field. -/
def name : Field → String
  | .year => "year"
  | .monthName => "month_name"
  | .millisecond => "millis"
  | .shortYear => "year2"
  | .month => "month"
  | .day => "day"
  | .hour => "hour"
  | .minute => "minute"
  | .second => "second"

/-- How many characters a field takes in a text, which is the length of its token. -/
def width (f : Field) : Nat := f.token.toList.length

theorem width_pos (f : Field) : 0 < f.width := by cases f <;> decide

/-- The field whose token stands at the front of a text. -/
def at? (cs : List Char) : Option Field := all.find? fun f => f.token.toList.isPrefixOf cs

end Field

/-- A part of a date format: a field, or a character that stands for itself. -/
inductive Part
  | field (f : Field)
  | literal (c : Char)
  deriving DecidableEq, Repr

namespace Part

/-- The parts of a name; `skip` counts the characters of a token still to be passed over. -/
def scanFrom : Nat → List Char → List Part
  | _, [] => []
  | skip + 1, _ :: cs => scanFrom skip cs
  | 0, c :: cs =>
    match Field.at? (c :: cs) with
    | some f => .field f :: scanFrom (f.width - 1) cs
    | none => .literal c :: scanFrom 0 cs

/-- The parts of a name, the longest token at each position. -/
def ofChars (cs : List Char) : List Part := scanFrom 0 cs

/-- The characters a part is written with. -/
def spell : Part → List Char
  | .field f => f.token.toList
  | .literal c => [c]

theorem spell_scanFrom (n : Nat) (cs : List Char) :
    (scanFrom n cs).flatMap spell = cs.drop n := by
  induction cs generalizing n with
  | nil => simp [scanFrom]
  | cons c cs ih =>
    cases n with
    | succ n => simp [scanFrom, ih]
    | zero =>
      simp only [scanFrom]
      split
      · rename_i f hf
        have hpre := List.find?_some hf
        obtain ⟨rest, hrest⟩ := List.isPrefixOf_iff_prefix.1 hpre
        simp only [List.flatMap_cons, ih, spell, List.drop_zero]
        have hlen : f.token.toList.length = f.width := rfl
        have hpos := Field.width_pos f
        rw [← hrest]
        congr 1
        have hdrop := congrArg (List.drop f.width) hrest
        rw [List.drop_left' hlen] at hdrop
        rw [hdrop]
        obtain ⟨w, hw⟩ : ∃ w, f.width = w + 1 := ⟨f.width - 1, by omega⟩
        rw [hw]
        simp
      · simp [spell, ih]

/-- The parts of a name spell the name. -/
theorem spell_ofChars (cs : List Char) : (ofChars cs).flatMap spell = cs := by
  simp [ofChars, spell_scanFrom]

/-- The field of a part. -/
def field? : Part → Option Field
  | .field f => some f
  | .literal _ => none

end Part

/-! ### Well-formed names -/

/-- Why a name is not a date format. -/
inductive DateFormatFault
  | empty
  | repeated (name : String) (field : Field)
  | noField (name : String)
  | sameComponent (name : String)
  deriving DecidableEq, Repr

namespace DateFormatFault

/-- The wording of a fault. -/
def message : DateFormatFault → String
  | .empty => "Date format cannot be empty"
  | .repeated name f => "Date format '" ++ name ++ "' repeats token '" ++ f.token ++ "'"
  | .noField name => "Date format '" ++ name ++ "' contains no date or time tokens"
  | .sameComponent name => "Date format '" ++ name ++ "' captures the same component twice"

end DateFormatFault

/-- The first field of a list that also stands before it. -/
def firstRepeated? (seen : List Field) : List Field → Option Field
  | [] => none
  | f :: fs => if seen.contains f then some f else firstRepeated? (f :: seen) fs

namespace DateFormat

/-- The fields of a name, in order. -/
def fieldsOf (name : String) : List Field := (Part.ofChars name.toList).filterMap Part.field?

/-- The reason why a name is not a date format, if there is one. -/
def fault? (name : String) : Option DateFormatFault :=
  let fields := fieldsOf name
  if name.isEmpty then some .empty
  else match firstRepeated? [] fields with
    | some f => some (.repeated name f)
    | none =>
      if fields.isEmpty then some (.noField name)
      else if fields.contains .year && fields.contains .shortYear ||
          fields.contains .month && fields.contains .monthName then some (.sameComponent name)
      else none

end DateFormat

/-- A date format: a well-formed name. -/
structure DateFormat where
  name : String
  wellFormed : DateFormat.fault? name = none
  deriving DecidableEq

namespace DateFormat

/-- The date format with a given name. -/
def ofName (name : String) : Except DateFormatFault DateFormat :=
  match h : fault? name with
  | some e => .error e
  | none => .ok ⟨name, h⟩

/-- The parts of a format. -/
def parts (f : DateFormat) : List Part := Part.ofChars f.name.toList

/-- The fields of a format, in order. -/
def fields (f : DateFormat) : List Field := fieldsOf f.name

/-! ### Reading -/

/-- The abbreviated names of the months. -/
def monthNames : List String :=
  ["Jan", "Feb", "Mar", "Apr", "May", "Jun", "Jul", "Aug", "Sep", "Oct", "Nov", "Dec"]

/-- The number that the characters at a field's place stand for. -/
def readField? (f : Field) (cs : List Char) : Option Nat :=
  if f = .monthName then
    (monthNames.findIdx? fun m => m.toList == cs).map (· + 1)
  else if cs.all Text.isDigit then some (Text.digitsValue cs)
  else none

/-- Reads a text part by part and gives the captured numbers. -/
def capture? : List Part → List Char → Option (List (Field × Nat))
  | [], [] => some []
  | [], _ :: _ => none
  | .literal _ :: _, [] => none
  | .literal l :: parts, c :: cs => if l == c then capture? parts cs else none
  | .field f :: parts, cs =>
    if cs.length < f.width then none
    else
      match readField? f (cs.take f.width) with
      | none => none
      | some n => (capture? parts (cs.drop f.width)).map ((f, n) :: ·)

/-- The captured number of a field. -/
def captured? (captures : List (Field × Nat)) (f : Field) : Option Nat :=
  (captures.find? fun e => e.1 = f).map (·.2)

/-- The year that two digits stand for. -/
def century (short : Nat) : Nat := if short < 69 then 2000 + short else 1900 + short

/-- The components that captured numbers stand for. -/
def components (captures : List (Field × Nat)) : DateTime.Components :=
  let get := captured? captures
  { year := ((get .year).or ((get .shortYear).map century)).getD 1900
    month := ((get .monthName).or (get .month)).getD 1
    day := (get .day).getD 1
    hour := (get .hour).getD 0
    minute := (get .minute).getD 0
    second := (get .second).getD 0
    microsecond := (get .millisecond).getD 0 * 1000 }

/-- The date-time that a text stands for in a format. -/
def parse? (f : DateFormat) (text : String) : Option DateTime :=
  match capture? f.parts text.toList with
  | none => none
  | some captures => DateTime.of? (components captures)

/-! ### Writing -/

/-- A field of a date-time in the width of the field. -/
def renderField (d : DateTime) : Field → String
  | .year => Text.padded 4 d.year
  | .shortYear => Text.padded 2 (d.year % 100)
  | .monthName => monthNames.getD (d.month - 1) ""
  | .month => Text.padded 2 d.month
  | .day => Text.padded 2 d.day
  | .hour => Text.padded 2 d.hour
  | .minute => Text.padded 2 d.minute
  | .second => Text.padded 2 d.second
  | .millisecond => Text.padded 3 d.millisecond

/-- A part of a written date-time. -/
def renderPart (d : DateTime) : Part → List Char
  | .field f => (renderField d f).toList
  | .literal c => [c]

/-- A date-time written in a format. -/
def render (f : DateFormat) (d : DateTime) : String :=
  String.ofList (f.parts.flatMap (renderPart d))

end DateFormat

end TableRules
