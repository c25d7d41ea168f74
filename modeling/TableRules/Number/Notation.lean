import TableRules.Number.Shortest
import TableRules.Text.Digit

/-!
# How numbers are written

* `Double.text`: the fewest digits that identify the number, positionally for numbers from `1e-4`
  up to `1e16` and with an exponent beyond. An integral number keeps one zero after the point.
  An exponent has a sign and at least two digits.
* `Double.scientific`: seventeen digits and an exponent, always.
* `Double.plain`: as a rule shows a literal: an integral number has no point and all its digits,
  any other is written as by `Double.text`.
* `Double.complexText`: a real and an imaginary part; a positive zero real part is left out.
* `Double.sample`: as a counter shows its value: positional below `1e6`, from there up to `1e16`
  with an exponent that starts with a zero.
-/

namespace TableRules

namespace DecimalDigits

/-- An exponent with its sign and at least two digits. -/
def exponentText (e : Int) : String :=
  (if e < 0 then "e-" else "e+") ++ Text.padded 2 e.natAbs

/-- The first digit, and the others after a point. -/
def mantissaText (d : DecimalDigits) : String :=
  match Nat.toDigits 10 d.coefficient with
  | c :: d :: ds => String.ofList (c :: '.' :: d :: ds)
  | ds => String.ofList ds

/-- The power of ten of the leading digit. -/
def leading (d : DecimalDigits) : Int := d.power + countDigits d.coefficient - 1

/-- One digit, the others after a point, and an exponent. -/
def exponential (d : DecimalDigits) : String := d.mantissaText ++ exponentText d.leading

/-- Digits around a point; `pointZero` says whether an integral number ends in `.0`. -/
def positional (d : DecimalDigits) (pointZero : Bool) : String :=
  let ds := Nat.toDigits 10 d.coefficient
  let point := d.power + ds.length
  if point ≤ 0 then String.ofList ('0' :: '.' :: List.replicate (-point).toNat '0' ++ ds)
  else if (ds.length : Int) ≤ point then
    String.ofList (ds ++ List.replicate d.power.toNat '0') ++ (if pointZero then ".0" else "")
  else String.ofList (ds.take point.toNat ++ '.' :: ds.drop point.toNat)

/-- Positional from `1e-4` up to (not including) ten to the power `limit`, else with an
exponent. -/
def layout (d : DecimalDigits) (limit : Int) (pointZero : Bool) : String :=
  if -4 ≤ d.leading && d.leading < limit then d.positional pointZero else d.exponential

end DecimalDigits

namespace Double

/-- The sign of a written number. -/
def signText (negative : Bool) : String := if negative then "-" else ""

/-- A magnitude in its fewest digits. -/
def magnitudeText (m : Magnitude) (limit : Int) (pointZero : Bool) : String :=
  if m.units = 0 then if pointZero then "0.0" else "0"
  else m.shortest.layout limit pointZero

/-- A number in its fewest digits, with or without `.0` after an integral number. -/
def textWith (limit : Int) (pointZero : Bool) : Double → String
  | .finite s m => signText s ++ magnitudeText m limit pointZero
  | .infinite s => signText s ++ "inf"
  | .nan => "nan"

/-- A number in its fewest digits. -/
def text (x : Double) : String := x.textWith 16 true

/-- A number in seventeen digits with an exponent. -/
def scientific : Double → String
  | .finite s m =>
    let d := m.rounded 17
    if m.units = 0 then signText s ++ "0.0000000000000000e+00" else signText s ++ d.exponential
  | .infinite s => signText s ++ "inf"
  | .nan => "nan"

/-- A number as a rule shows it. -/
def plain (x : Double) : String :=
  match x.toInt? with
  | some i => Text.decimalInt i
  | none => x.text

/-- The text of a complex number; only the imaginary part when the real part is a positive
zero. -/
def complexText (re im : Double) : String :=
  let imaginary := im.textWith 16 false ++ "j"
  if re = zero false then imaginary
  else
    let join := match im with
      | .finite true _ => ""
      | .infinite true => ""
      | _ => "+"
    re.textWith 16 false ++ join ++ imaginary

/-- A number as a counter shows it. -/
def sample : Double → String
  | .infinite s => if s then "-Inf" else "+Inf"
  | .nan => "NaN"
  | .finite s m =>
    let d := m.shortest
    if !s && 6 ≤ d.leading && d.leading < 16 then
      d.mantissaText ++ "e+0" ++ Text.decimalInt d.leading
    else text (.finite s m)

end Double

end TableRules
