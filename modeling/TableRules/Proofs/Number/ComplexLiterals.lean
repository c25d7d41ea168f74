import TableRules.Proofs.Number.LargeIntegers
import TableRules.Proofs.Number.RealLiterals

/-!
# Complex literals

A `ComplexLiteral` is a complex number as written: a real, a real and an imaginary part behind a
second sign, or an imaginary part alone. An imaginary part is a real, which may be left out, and the
imaginary unit in either case. A sign stands both between the parts and inside an exponent, as in
`1e+5+J`; nevertheless a text has at most one such form (`ComplexLiteral.chars_injective`), since
neither a sign nor the unit goes on with the real in front of it.

A literal has a value when each real in it is read as a floating point number (`Reads`). A text is
read as a complex number exactly if its normalized form is a literal that has a value, and then as
this value (`parseNumber_complex_iff`).
-/

namespace TableRules

open Unsigned

/-! ### The grammar -/

/-- An unsigned real. -/
structure RealLiteral where
  chars : List Char
  isLiteral : IsRealLiteral chars

/-- A real that may be left out, and the imaginary unit. -/
structure ImaginaryLiteral where
  coefficient : Option RealLiteral
  unit : Char
  isUnit : unit = 'j' ∨ unit = 'J'

/-- A complex number as written. In a sum the second sign cannot be left out. -/
inductive ComplexLiteral
  | real (sign : Option Bool) (r : RealLiteral)
  | sum (sign : Option Bool) (r : RealLiteral) (negative : Bool) (i : ImaginaryLiteral)
  | imaginary (sign : Option Bool) (i : ImaginaryLiteral)

/-- The characters of a real that may be left out. -/
def RealLiteral.optionalChars : Option RealLiteral → List Char
  | none => []
  | some r => r.chars

/-- The characters of an imaginary part without its sign. -/
def ImaginaryLiteral.chars (i : ImaginaryLiteral) : List Char :=
  RealLiteral.optionalChars i.coefficient ++ [i.unit]

/-- The characters of a complex number. -/
def ComplexLiteral.chars : ComplexLiteral → List Char
  | .real sign r => optionalSign sign ++ r.chars
  | .sum sign r negative i =>
    optionalSign sign ++ r.chars ++ (optionalSign (some negative) ++ i.chars)
  | .imaginary sign i => optionalSign sign ++ i.chars

/-! ### Values -/

variable {sign : Option Bool} {r : RealLiteral} {i : ImaginaryLiteral} {negative : Bool}
  {cs rest : List Char} {x y : Double}

/-- A real with its sign is read as a floating point number. -/
def RealLiteral.Reads (sign : Option Bool) (r : RealLiteral) (x : Double) : Prop :=
  readNumber .floatingPoint (optionalSign sign ++ r.chars) = .ok (some (.real x))

/-- The coefficient of an imaginary part, with its sign, is read as a floating point number; where
it is left out, it is one. -/
def ImaginaryLiteral.Reads (sign : Option Bool) (i : ImaginaryLiteral) (x : Double) : Prop :=
  match i.coefficient with
  | some r => r.Reads sign x
  | none => Double.ofInt? (if sign = some true then -1 else 1) = some x

/-- The parts of a complex number are read; a part that is absent is zero. -/
def ComplexLiteral.Reads (w : ComplexLiteral) (x y : Double) : Prop :=
  match w with
  | .real sign r => r.Reads sign x ∧ y = Double.zero false
  | .sum sign r negative i => r.Reads sign x ∧ i.Reads (some negative) y
  | .imaginary sign i => x = Double.zero false ∧ i.Reads sign y

/-! ### Unique writing -/

/-- A sign or an imaginary unit ends a literal. -/
private theorem stops_cons {c : Char} (h : c ∈ ['+', '-', 'j', 'J']) (rest : List Char) :
    Stops (c :: rest) := by
  have hall : ∀ c ∈ ['+', '-', 'j', 'J'],
      Text.isDigit c = false ∧ c ≠ '.' ∧ c ≠ 'e' ∧ c ≠ 'E' := Text.forall_of_all (by decide)
  intro a ha
  obtain rfl := Option.some.inj ha
  exact hall _ h

private theorem ImaginaryLiteral.stops_unit (i : ImaginaryLiteral) : Stops [i.unit] :=
  stops_cons (by rcases i.isUnit with h | h <;> rw [h] <;> decide) []

/-- A literal that may be left out is determined by what it stands in front of. -/
private theorem RealLiteral.optionalChars_append_inj {o o' : Option RealLiteral}
    {rest' : List Char} (hrest : Stops rest) (hrest' : Stops rest')
    (h : optionalChars o ++ rest = optionalChars o' ++ rest') : o = o' ∧ rest = rest' := by
  -- a literal is no rest, since one is read at its front
  have hread : ∀ (r : RealLiteral) {rest rest' : List Char}, Stops rest → Stops rest' →
      r.chars ++ rest ≠ rest' := by
    rintro r rest rest' hrest hrest' rfl
    obtain ⟨u, hu⟩ := r.isLiteral.exists_scan?
    simpa [hu rest hrest] using scan?_eq_none hrest'
  rcases o with _ | r <;> rcases o' with _ | r'
  · exact ⟨rfl, h⟩
  · exact absurd h.symm (hread r' hrest' hrest)
  · exact absurd h (hread r hrest hrest')
  · obtain ⟨hchars, hrests⟩ := r.isLiteral.append_inj r'.isLiteral hrest hrest' h
    cases r
    cases r'
    exact ⟨by simpa using hchars, hrests⟩

theorem ImaginaryLiteral.chars_injective : Function.Injective ImaginaryLiteral.chars := by
  intro i i' h
  obtain ⟨hcoefficient, hunit⟩ :=
    RealLiteral.optionalChars_append_inj i.stops_unit i'.stops_unit h
  cases i
  cases i'
  simp_all

namespace ComplexLiteral

/-- The sign in front of a complex number. -/
def firstSign : ComplexLiteral → Option Bool
  | .real sign _ | .sum sign _ _ _ | .imaginary sign _ => sign

/-- The real at the front of a complex number, whichever part it belongs to. -/
def leading : ComplexLiteral → Option RealLiteral
  | .real _ r | .sum _ r _ _ => some r
  | .imaginary _ i => i.coefficient

/-- The characters behind the leading real. -/
def trailing : ComplexLiteral → List Char
  | .real _ _ => []
  | .sum _ _ negative i => optionalSign (some negative) ++ i.chars
  | .imaginary _ i => [i.unit]

theorem chars_eq (w : ComplexLiteral) :
    w.chars = optionalSign w.firstSign ++ (RealLiteral.optionalChars w.leading ++ w.trailing) := by
  cases w with
  | real sign r => simp [chars, firstSign, leading, trailing, RealLiteral.optionalChars]
  | sum sign r negative i =>
    simp [chars, firstSign, leading, trailing, RealLiteral.optionalChars]
  | imaginary sign i => rfl

private theorem stops_trailing (w : ComplexLiteral) : Stops w.trailing := by
  cases w with
  | real => exact stops_nil
  | sum _ _ negative => exact stops_cons (by cases negative <;> decide) _
  | imaginary _ i => exact i.stops_unit

/-- Behind its sign a complex number does not start with another one. -/
private theorem head_leading_append (w : ComplexLiteral) :
    ∀ c ∈ (RealLiteral.optionalChars w.leading ++ w.trailing).head?, c ≠ '+' ∧ c ≠ '-' := by
  cases w with
  | real _ r => exact r.isLiteral.head_append _
  | sum _ r => exact r.isLiteral.head_append _
  | imaginary _ i =>
    obtain ⟨coefficient, unit, hunit⟩ := i
    rcases coefficient with _ | r
    · intro c hc
      obtain rfl : unit = c := Option.some.inj hc
      rcases hunit with rfl | rfl <;> decide
    · exact r.isLiteral.head_append _

/-- **A complex number is written in one way.** -/
theorem chars_injective : Function.Injective chars := by
  intro w w' h
  rw [chars_eq, chars_eq] at h
  obtain ⟨hsign, hbody⟩ :=
    optionalSign_append_inj w.head_leading_append w'.head_leading_append h
  obtain ⟨hleading, htrailing⟩ :=
    RealLiteral.optionalChars_append_inj w.stops_trailing w'.stops_trailing hbody
  -- what follows the leading real tells the three forms apart
  cases w <;> cases w' <;> simp only [firstSign, leading, trailing] at hsign hleading htrailing
  case real.real => simp_all
  case sum.sum =>
    obtain ⟨hnegative, hchars⟩ := List.append_inj htrailing rfl
    have hnegative' := Option.some.inj (optionalSign_injective hnegative)
    simp_all [ImaginaryLiteral.chars_injective hchars]
  case imaginary.imaginary i _ i' =>
    cases i
    cases i'
    simp_all
  all_goals
    have hlength := congrArg List.length htrailing
    simp [optionalSign, ImaginaryLiteral.chars] at hlength

end ComplexLiteral

/-! ### Reading -/

/-- A real with its sign is read as the finite double that it is read as without the sign. -/
private theorem RealLiteral.reads_iff :
    r.Reads sign x ↔ ∃ u, scan? r.chars = some (u, []) ∧ u.toDouble (sign.getD false) = x ∧
      x.isFinite = true := by
  have hhead : ∀ c ∈ r.chars.head?, c ≠ '+' ∧ c ≠ '-' := by
    simpa using r.isLiteral.head_append []
  have hsign := scanSign_optionalSign sign hhead
  obtain ⟨u, hu, -⟩ := r.isLiteral.exists_scan?_eq
  have hread : readReal? (optionalSign sign ++ r.chars) = some (sign.getD false, u) := by
    rw [readReal?_eq_some_iff, hsign]
    exact ⟨rfl, hu⟩
  rw [RealLiteral.Reads, readNumber, hread, hu]
  simp only [Option.bind_some, finiteReal?, Except.ok.injEq, Option.ite_none_right_eq_some,
    Option.some.injEq, Value.real.injEq, Prod.mk.injEq, and_true, exists_eq_left']
  constructor
  · rintro ⟨hfinite, rfl⟩
    exact ⟨rfl, hfinite⟩
  · rintro ⟨rfl, hfinite⟩
    exact ⟨hfinite, rfl⟩

/-- What stands behind a literal shows that it is no imaginary part. -/
theorem readImaginary?_eq_none {u : Unsigned} (hscan : scan? cs = some (u, rest))
    (hrest : ∀ c, rest = [c] → isImaginaryUnit c = false) : readImaginary? negative cs = none := by
  unfold readImaginary?
  rw [hscan]
  split
  · rename_i c heq
    obtain ⟨-, rfl⟩ := Prod.mk.inj (Option.some.inj heq)
    simp [hrest c rfl]
  · rfl
  · contradiction

private theorem isImaginaryUnit_iff {c : Char} : isImaginaryUnit c = true ↔ c = 'j' ∨ c = 'J' := by
  simp [isImaginaryUnit]

private theorem ofInt?_one {sign : Option Bool} :
    Double.ofInt? (if sign = some true then -1 else 1) = some x ↔
      Double.ofDecimal (sign.getD false) 1 0 = x ∧ x.isFinite = true := by
  rcases sign with _ | _ | _ <;> exact Double.ofInt?_eq_some_iff (by decide)

/-- An imaginary part is read with the sign in front of it. -/
private theorem readImaginary?_eq_some_iff (sign : Option Bool) :
    (readImaginary? (sign.getD false) cs = some y ∧ y.isFinite = true) ↔
      ∃ i : ImaginaryLiteral, cs = i.chars ∧ i.Reads sign y := by
  constructor
  · rintro ⟨hread, hfinite⟩
    unfold readImaginary? at hread
    split at hread
    · rename_i u c hscan
      rw [Option.ite_none_right_eq_some] at hread
      obtain ⟨hunit, hy⟩ := hread
      rw [isImaginaryUnit_iff] at hunit
      obtain ⟨lit, hlit, rfl, halone⟩ :=
        (scan?_eq_some_iff (stops_cons (by rcases hunit with rfl | rfl <;> decide) [])).mp hscan
      refine ⟨⟨some ⟨lit, hlit⟩, c, hunit⟩, rfl, ?_⟩
      exact RealLiteral.reads_iff.mpr ⟨u, halone, Option.some.inj hy, hfinite⟩
    · simp at hread
    · split at hread
      · rename_i c _
        rw [Option.ite_none_right_eq_some] at hread
        obtain ⟨hunit, hy⟩ := hread
        exact ⟨⟨none, c, isImaginaryUnit_iff.mp hunit⟩, rfl,
          ofInt?_one.mpr ⟨Option.some.inj hy, hfinite⟩⟩
      · simp at hread
  · rintro ⟨⟨coefficient, unit, hunit⟩, rfl, hreads⟩
    have hstops := ImaginaryLiteral.stops_unit ⟨coefficient, unit, hunit⟩
    have hunit' := isImaginaryUnit_iff.mpr hunit
    unfold readImaginary?
    rcases coefficient with _ | r
    · obtain ⟨hy, hfinite⟩ := ofInt?_one.mp hreads
      refine ⟨?_, hfinite⟩
      rw [ImaginaryLiteral.chars, RealLiteral.optionalChars, List.nil_append, scan?_eq_none hstops]
      simp only [hunit', hy, if_true]
    · obtain ⟨u, hu, hy, hfinite⟩ := RealLiteral.reads_iff.mp hreads
      refine ⟨?_, hfinite⟩
      rw [ImaginaryLiteral.chars, RealLiteral.optionalChars,
        (scan?_eq_some_iff hstops).mpr ⟨r.chars, r.isLiteral, rfl, hu⟩]
      simp only [hunit', hy, if_true]

/-- What is read as a complex number is a literal that has this value. -/
private theorem exists_of_readComplex? (hread : readComplex? cs = some (x, y))
    (hx : x.isFinite = true) (hy : y.isFinite = true) :
    ∃ w : ComplexLiteral, cs = w.chars ∧ w.Reads x y := by
  obtain ⟨sign, hcs, hsign⟩ := exists_optionalSign cs
  generalize hbody : (scanSign cs).2 = body at hcs
  have hscan : scanSign cs = (sign.getD false, body) := Prod.ext hsign hbody
  rw [readComplex?, hscan] at hread
  dsimp only at hread
  split at hread
  · -- an imaginary part alone
    rename_i im him
    obtain ⟨rfl, rfl⟩ := Prod.mk.inj (Option.some.inj hread)
    obtain ⟨i, rfl, hi⟩ := (readImaginary?_eq_some_iff sign).mp ⟨him, hy⟩
    exact ⟨.imaginary sign i, hcs, rfl, hi⟩
  · split at hread
    · simp at hread
    · -- a real alone
      rename_i u hscan
      obtain ⟨rfl, rfl⟩ := Prod.mk.inj (Option.some.inj hread)
      obtain ⟨lit, hlit, rfl, halone⟩ := (scan?_eq_some_iff stops_nil).mp hscan
      rw [List.append_nil] at hcs
      exact ⟨.real sign ⟨lit, hlit⟩, hcs, RealLiteral.reads_iff.mpr ⟨u, halone, rfl, hx⟩, rfl⟩
    · -- both parts
      rename_i u c r hscan
      rw [Option.ite_none_right_eq_some, Option.map_eq_some_iff] at hread
      obtain ⟨hc, im, him, hparts⟩ := hread
      obtain ⟨rfl, rfl⟩ := Prod.mk.inj hparts
      have hc' : c = '+' ∨ c = '-' := by simpa using hc
      have hc'' : [c] = optionalSign (some (c == '-')) := by rcases hc' with rfl | rfl <;> rfl
      obtain ⟨lit, hlit, rfl, halone⟩ :=
        (scan?_eq_some_iff (stops_cons (by rcases hc' with rfl | rfl <;> decide) r)).mp hscan
      obtain ⟨i, rfl, hi⟩ := (readImaginary?_eq_some_iff (some (c == '-'))).mp ⟨him, hy⟩
      refine ⟨.sum sign ⟨lit, hlit⟩ (c == '-') i, ?_,
        RealLiteral.reads_iff.mpr ⟨u, halone, rfl, hx⟩, hi⟩
      rw [hcs, ComplexLiteral.chars, ← hc'', List.append_assoc, List.singleton_append]

/-- A literal that has a value is read as this complex number. -/
private theorem readComplex?_chars {w : ComplexLiteral} (hreads : w.Reads x y) :
    readComplex? w.chars = some (x, y) ∧ x.isFinite = true ∧ y.isFinite = true := by
  have hsign := scanSign_optionalSign w.firstSign w.head_leading_append
  rw [readComplex?, ComplexLiteral.chars_eq, hsign]
  cases w with
  | real sign r =>
    obtain ⟨hr, rfl⟩ := hreads
    obtain ⟨u, hu, rfl, hfinite⟩ := RealLiteral.reads_iff.mp hr
    have hscan : scan? (r.chars ++ []) = some (u, []) := by rwa [List.append_nil]
    refine ⟨?_, hfinite, rfl⟩
    simp only [ComplexLiteral.firstSign, ComplexLiteral.leading, ComplexLiteral.trailing,
      RealLiteral.optionalChars, readImaginary?_eq_none hscan (by simp), hscan]
  | sum sign r negative i =>
    obtain ⟨hr, hi⟩ := hreads
    obtain ⟨u, hu, rfl, hfinite⟩ := RealLiteral.reads_iff.mp hr
    obtain ⟨hread, hfinite'⟩ := (readImaginary?_eq_some_iff (some negative)).mpr ⟨i, rfl, hi⟩
    have htrailing : (ComplexLiteral.sum sign r negative i).trailing
        = (if negative then '-' else '+') :: i.chars := rfl
    have hstops := ComplexLiteral.stops_trailing (.sum sign r negative i)
    have hscan := (scan?_eq_some_iff hstops).mpr ⟨r.chars, r.isLiteral, rfl, hu⟩
    rw [htrailing] at hscan
    -- the second sign shows that the first real is no imaginary part
    have himaginary : readImaginary? (sign.getD false)
        (r.chars ++ (if negative then '-' else '+') :: i.chars) = none := by
      refine readImaginary?_eq_none hscan fun c hc => ?_
      obtain ⟨rfl, -⟩ := List.cons.inj hc
      cases negative <;> rfl
    refine ⟨?_, hfinite, hfinite'⟩
    simp only [ComplexLiteral.firstSign, ComplexLiteral.leading, RealLiteral.optionalChars,
      htrailing, himaginary, hscan]
    cases negative <;> simpa using hread
  | imaginary sign i =>
    obtain ⟨rfl, hi⟩ := hreads
    obtain ⟨hread, hfinite⟩ := (readImaginary?_eq_some_iff sign).mpr ⟨i, rfl, hi⟩
    refine ⟨?_, rfl, hfinite⟩
    simp only [ComplexLiteral.firstSign, ComplexLiteral.leading, ComplexLiteral.trailing]
    rw [ImaginaryLiteral.chars] at hread
    simp only [hread]

/-- **A text is read as a complex number** exactly if its normalized form is a complex literal that
has a value, and as this value. The literal is the only one of this form. -/
theorem parseNumber_complex_iff (text : String) (s : Settings) :
    (∀ v n, parseNumber text s .complex = .ok (some (v, n)) ↔
      n = normalizeNumber (Text.trim text) s ∧
        ∃ w : ComplexLiteral, n.toList = w.chars ∧ ∃ x y, w.Reads x y ∧ v = .complex x y) ∧
    ∀ w w' : ComplexLiteral, (normalizeNumber (Text.trim text) s).toList = w.chars →
      (normalizeNumber (Text.trim text) s).toList = w'.chars → w = w' := by
  refine ⟨fun v n => ?_, fun w w' hw hw' => ComplexLiteral.chars_injective (hw ▸ hw')⟩
  rw [parseNumber_eq_ok_iff]
  refine and_congr_right fun _ => ?_
  simp only [readNumber, Except.ok.injEq, Option.bind_eq_some_iff, Option.ite_none_right_eq_some,
    Bool.and_eq_true, Option.some.injEq, Prod.exists]
  constructor
  · rintro ⟨x, y, hread, hfinite, rfl⟩
    obtain ⟨w, hw, hreads⟩ := exists_of_readComplex? hread hfinite.1 hfinite.2
    exact ⟨w, hw, x, y, hreads, rfl⟩
  · rintro ⟨w, hw, x, y, hreads, rfl⟩
    obtain ⟨hread, hfinite⟩ := readComplex?_chars hreads
    exact ⟨x, y, hw ▸ hread, hfinite, rfl⟩

/-! #### A power and the unit -/

/-- In `1e+5+J` the first sign belongs to the exponent and the second one to the unit. -/
theorem parseNumber_powerAndUnit :
    ∃ w : ComplexLiteral, "1e+5+J".toList = w.chars ∧
      w.Reads (Double.ofDecimal false 1 5) (Double.ofDecimal false 1 0) ∧
      ∀ w' : ComplexLiteral, "1e+5+J".toList = w'.chars → w' = w := by
  have hparse : parseNumber "1e+5+J" .standard .complex = .ok (some
      (.complex (Double.ofDecimal false 1 5) (Double.ofDecimal false 1 0), "1e+5+J")) := by
    decide +kernel
  obtain ⟨hiff, hunique⟩ := parseNumber_complex_iff "1e+5+J" .standard
  obtain ⟨hnormal, w, hw, x, y, hreads, hv⟩ := (hiff _ _).mp hparse
  obtain ⟨rfl, rfl⟩ := Value.complex.inj hv
  rw [← hnormal] at hunique
  exact ⟨w, hw, hreads, fun w' hw' => hunique w' w hw' hw⟩

end TableRules
