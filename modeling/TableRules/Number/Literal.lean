import TableRules.Number.Double
import TableRules.Text.Digit
import TableRules.Text.Blank

/-!
# Number literals

The grammar of written numbers, over decimal digits of any script:

* an **unsigned real** is digits with an optional point and more digits, or a point and digits,
  then an optional exponent: `12`, `12.5`, `12.`, `.5`, `1.5e-3`;
* an **integer** is an optional sign and digits;
* a **complex number** is an optional sign and a real, a second signed part that ends in `j`
  (whose real may be left out), or both.

Each reader takes the longest literal at the front of a text and returns the rest. A literal is
turned into a double by one rounding (`Unsigned.toDouble`).
-/

namespace TableRules

/-- The parts of an unsigned real literal; `exponent` holds its sign and digits. -/
structure Unsigned where
  whole : List Char
  fraction : List Char
  exponent : Option (Bool × List Char)
  deriving DecidableEq, Repr

/-- Reads an optional sign; the first part says whether it is a minus. -/
def scanSign : List Char → Bool × List Char
  | '-' :: rest => (true, rest)
  | '+' :: rest => (false, rest)
  | cs => (false, cs)

namespace Unsigned

/-- The digits at the front of a text. -/
def digits (cs : List Char) : List Char := cs.takeWhile Text.isDigit

/-- The text after the digits at its front. -/
def afterDigits (cs : List Char) : List Char := cs.dropWhile Text.isDigit

/-- Reads an exponent, if there is a complete one. -/
def scanExponent : List Char → Option (Bool × List Char) × List Char
  | [] => (none, [])
  | c :: rest =>
    if c == 'e' || c == 'E' then
      let (negative, r) := scanSign rest
      if (digits r).isEmpty then (none, c :: rest)
      else (some (negative, digits r), afterDigits r)
    else (none, c :: rest)

/-- Reads the longest unsigned real at the front of a text. -/
def scan? (cs : List Char) : Option (Unsigned × List Char) :=
  let whole := digits cs
  match afterDigits cs with
  | '.' :: r =>
    if whole.isEmpty && (digits r).isEmpty then none
    else
      let (e, rest) := scanExponent (afterDigits r)
      some (⟨whole, digits r, e⟩, rest)
  | r =>
    if whole.isEmpty then none
    else
      let (e, rest) := scanExponent r
      some (⟨whole, [], e⟩, rest)

/-- The number without its power of ten. -/
def coefficient (u : Unsigned) : Nat := Text.digitsValue (u.whole ++ u.fraction)

/-- The written exponent, zero when there is none. -/
def exponentValue (u : Unsigned) : Int :=
  match u.exponent with
  | none => 0
  | some (true, ds) => -(Text.digitsValue ds : Int)
  | some (false, ds) => Text.digitsValue ds

/-- The power of ten of the last digit. -/
def power (u : Unsigned) : Int := u.exponentValue - u.fraction.length

/-- The nearest double with a given sign. -/
def toDouble (negative : Bool) (u : Unsigned) : Double :=
  Double.ofDecimal negative u.coefficient u.power

end Unsigned

/-! ### Signed literals -/

/-- Reads a whole text as a signed real. -/
def readReal? (cs : List Char) : Option (Bool × Unsigned) :=
  let (negative, rest) := scanSign cs
  match Unsigned.scan? rest with
  | some (u, []) => some (negative, u)
  | _ => none

/-- Reads a whole text as a signed integer: the sign and the digits. -/
def readInteger? (cs : List Char) : Option (Bool × List Char) :=
  let (negative, rest) := scanSign cs
  if !rest.isEmpty && rest.all Text.isDigit then some (negative, rest) else none

/-- The imaginary unit, in either case. -/
def isImaginaryUnit (c : Char) : Bool := c == 'j' || c == 'J'

/-- Reads a whole text as the rest of an imaginary part: an optional real and the unit. -/
def readImaginary? (negative : Bool) (cs : List Char) : Option Double :=
  match Unsigned.scan? cs with
  | some (u, [c]) => if isImaginaryUnit c then some (u.toDouble negative) else none
  | some _ => none
  | none =>
    match cs with
    | [c] => if isImaginaryUnit c then some (Double.ofDecimal negative 1 0) else none
    | _ => none

/-- Reads a whole text as a complex number: its real and imaginary parts. -/
def readComplex? (cs : List Char) : Option (Double × Double) :=
  let (negative, rest) := scanSign cs
  match readImaginary? negative rest with
  | some im => some (Double.zero false, im)
  | none =>
    match Unsigned.scan? rest with
    | none => none
    | some (u, []) => some (u.toDouble negative, Double.zero false)
    | some (u, c :: r) =>
      if c == '+' || c == '-' then
        (readImaginary? (c == '-') r).map fun im => (u.toDouble negative, im)
      else none

namespace Double

/-- Reads a number as it is written by `Double.text`. -/
def ofText? (s : String) : Option Double :=
  if s == "nan" then some .nan
  else if s == "inf" then some (.infinite false)
  else if s == "-inf" then some (.infinite true)
  else (readReal? s.toList).map fun (negative, u) => u.toDouble negative

end Double

/-! ### Counting digits -/

/-- The digits of a written number: how many are significant and how many follow the point. -/
structure DigitCount where
  significant : Nat
  places : Nat
  deriving DecidableEq, Repr

/-- The greatest power of ten that the leading digit of a counted number may have. -/
def greatestLeadingPower : Int := 999999999999999999

/-- The least power of ten that the last digit of a counted number may have. -/
def leastPower : Int := -1999999999999999997

/-- Why the digits of a text cannot be counted: it is no number, its exponent is out of range, or it
spells an infinity or a value that is not a number. -/
inductive CountFault
  | notNumber
  | outOfRange
  | notFinite
  deriving DecidableEq, Repr

/-- Whether a text without a sign spells an infinity or a value that is not a number, in any letter
case. The latter may have digits of its own. -/
def spellsNonFinite (cs : List Char) : Bool :=
  let small := cs.map Char.toLower
  let name := small.filter fun c => !Text.isDigit c
  small == "inf".toList || small == "infinity".toList ||
    ((name == "nan".toList || name == "snan".toList) && name.isPrefixOf small)

/-- Counts the digits of a real as written: leading zeros are not significant, trailing zeros are,
and zero has one significant digit. -/
def DigitCount.ofChars (given : List Char) : Except CountFault DigitCount :=
  let cs := (Text.trimChars given).filter (· != '_')
  match readReal? cs with
  | none => .error (if spellsNonFinite (scanSign cs).2 then .notFinite else .notNumber)
  | some (_, u) =>
    let significant := max 1 ((u.whole ++ u.fraction).dropWhile
      fun c => Text.digitValue? c == some 0).length
    if u.power + significant - 1 ≤ greatestLeadingPower && leastPower ≤ u.power then
      .ok ⟨significant, (-u.power).toNat⟩
    else .error .outOfRange

/-- Counts the digits of a real as written. -/
def DigitCount.ofText (s : String) : Except CountFault DigitCount := DigitCount.ofChars s.toList

end TableRules
