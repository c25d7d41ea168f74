import TableRules.Calendar.Catalog
import TableRules.Number.Literal
import TableRules.Settings
import TableRules.Text.LetterCase
import TableRules.Value.Basic

/-!
# Reading cells

`coerce` reads the raw text of a cell as a value of a declared type, under the settings and a
catalog of date formats.

* White space around a text never matters. A cell is **null** (`isNull`) when it is absent, blank,
  or one of the null values.
* A number may be written with the separator anywhere among its characters, and with the decimal
  mark of the settings (`normalizeNumber`). What is left must be a literal of the declared type,
  and finite.
* A text that does not fit is no fault but a `Misfit`. The only fault is an integer of more than
  4300 digits.

`renderCanonical` writes a value so that it can be read back.
-/

namespace TableRules

/-- The greatest number of digits of an integer that is read. -/
def digitLimit : Nat := 4300

/-- Whether a raw cell is null. -/
def isNull (raw : Option String) (settings : Settings) : Bool :=
  match raw with
  | none => true
  | some s =>
    let text := Text.trim s
    text.isEmpty || settings.nullValues.contains text

/-- Removes the separator and exchanges the decimal mark for a point. -/
def normalizeChars (settings : Settings) (cs : List Char) : List Char :=
  let ungrouped := match settings.separator with
    | some s => cs.filter (· != s.char)
    | none => cs
  if settings.decimalMark == '.' then ungrouped
  else ungrouped.map fun c => if c == settings.decimalMark then '.' else c

/-- Removes the separator from a number and exchanges the decimal mark for a point. -/
def normalizeNumber (text : String) (settings : Settings) : String :=
  String.ofList (normalizeChars settings text.toList)

/-- A double as a value, unless it is not finite. -/
def finiteReal? (x : Double) : Option Value := if x.isFinite then some (.real x) else none

/-- Reads a normalized number of a numeric type. -/
def readNumber (type : ValueType) (cs : List Char) : Except NumberFault (Option Value) :=
  match type with
  | .integer =>
    match readInteger? cs with
    | none => .ok none
    | some (negative, ds) =>
      if digitLimit < ds.length then .error .tooManyDigits
      else
        let n : Int := Text.digitsValue ds
        .ok (some (.integer (if negative then -n else n)))
  | .floatingPoint =>
    .ok <| (readReal? cs).bind fun (negative, u) => finiteReal? (u.toDouble negative)
  | .scientific =>
    .ok <| (readReal? cs).bind fun (negative, u) =>
      if u.exponent.isSome then finiteReal? (u.toDouble negative) else none
  | .complex =>
    .ok <| (readComplex? cs).bind fun (re, im) =>
      if re.isFinite && im.isFinite then some (.complex re im) else none
  | _ => .ok none

/-- Reads a number of a numeric type: its value and its normalized text. -/
def parseNumber (text : String) (settings : Settings) (type : ValueType) :
    Except NumberFault (Option (Value × String)) :=
  let cs := normalizeChars settings (Text.trimChars text.toList)
  (readNumber type cs).map fun v => v.map fun x => (x, String.ofList cs)

/-- Reads a number as a double, as rules and sets do. -/
def parseReal? (text : String) (settings : Settings) : Option Double :=
  let cs := normalizeChars settings (Text.trimChars text.toList)
  match readReal? cs with
  | none => none
  | some (negative, u) =>
    let x := u.toDouble negative
    if x.isFinite then some x else none

/-- The truth value that a text names, in any letter case. -/
def readBoolean? (text : String) : Option Bool :=
  let word := Text.lowerAscii text
  if word == "true" then some true else if word == "false" then some false else none

/-- Reads a trimmed text that is not null. -/
def coerceText (text : String) (type : ValueType) (settings : Settings) (catalog : Catalog) :
    Except NumberFault Reading :=
  let misfit : Reading := .misfit ⟨text, type, Misfit.wrongForm⟩
  match type with
  | .string => .ok (.value ⟨some (.text text), type, text, none⟩)
  | .boolean =>
    match readBoolean? text with
    | some b => .ok (.value ⟨some (.boolean b), type, Text.lowerAscii text, none⟩)
    | none => .ok misfit
  | .dateTime =>
    match catalog.match? text with
    | some (f, d) => .ok (.value ⟨some (.dateTime d), type, text, some f.name⟩)
    | none => .ok (.misfit ⟨text, type, Misfit.noFormat⟩)
  | _ =>
    (parseNumber text settings type).map fun
      | some (v, normalized) => .value ⟨some v, type, normalized, none⟩
      | none => misfit

/-- Reads a raw cell with a declared type. -/
def coerce (raw : Option String) (type : ValueType) (settings : Settings) (catalog : Catalog) :
    Except NumberFault Reading :=
  if isNull raw settings then .ok (.value (TypedValue.null type))
  else coerceText (Text.trim (raw.getD "")) type settings catalog

/-! ### Writing values -/

/-- A number with the decimal mark of the settings. -/
def localize (text : String) (settings : Settings) : String :=
  if settings.decimalMark == '.' then text
  else String.ofList (text.toList.map fun c => if c == '.' then settings.decimalMark else c)

/-- A value as a text that is read back as the same value. -/
def renderCanonical (v : TypedValue) (settings : Settings) (catalog : Catalog) : String :=
  match v.value with
  | none => ""
  | some (.integer n) => Text.decimalInt n
  | some (.real x) =>
    localize (if v.type = .scientific then x.scientific else x.text) settings
  | some (.complex re im) => localize (Double.complexText re im) settings
  | some (.boolean b) => if b then "true" else "false"
  | some (.dateTime d) =>
    match v.format.bind catalog.get? with
    | some f => f.render d
    | none => d.text
  | some (.text s) => s

end TableRules
