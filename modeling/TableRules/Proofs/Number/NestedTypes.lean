import TableRules.Proofs.Number.ComplexLiterals
import TableRules.Proofs.Value.Coerced

/-!
# Numeric types are nested

A scientific number is a floating point number, a floating point number is a complex number without
imaginary part, and an integer is a floating point number up to its rounding; integers beyond the
doubles are the one exception. Conversely a floating point number with neither a point nor an
exponent is an integer, unless it has more digits than are read (`parseNumber_nested`).
-/

namespace TableRules

open Unsigned
open Lexeme (IsDigits)

variable {cs ds : List Char} {negative : Bool} {u : Unsigned} {v : Value}

theorem readNumber_floatingPoint_iff :
    readNumber .floatingPoint cs = .ok (some v) ↔ ∃ negative u,
      readReal? cs = some (negative, u) ∧ (u.toDouble negative).isFinite = true ∧
        v = .real (u.toDouble negative) := by
  simp only [readNumber, Except.ok.injEq, Option.bind_eq_some_iff, finiteReal?_eq_some_iff,
    Prod.exists]

/-- A scientific number is the same floating point number. -/
private theorem readNumber_floatingPoint_of_scientific
    (h : readNumber .scientific cs = .ok (some v)) :
    readNumber .floatingPoint cs = .ok (some v) := by
  simp only [readNumber, Except.ok.injEq, Option.bind_eq_some_iff, Option.ite_none_right_eq_some,
    finiteReal?_eq_some_iff, Prod.exists] at h
  obtain ⟨negative, u, hread, -, hv⟩ := h
  exact readNumber_floatingPoint_iff.mpr ⟨negative, u, hread, hv⟩

/-- A real is a complex number without imaginary part. -/
theorem readComplex?_of_readReal? (h : readReal? cs = some (negative, u)) :
    readComplex? cs = some (u.toDouble negative, Double.zero false) := by
  obtain ⟨rfl, hscan⟩ := readReal?_eq_some_iff.mp h
  rw [readComplex?]
  simp only [readImaginary?_eq_none hscan (by simp), hscan]

private theorem readNumber_complex_of_floatingPoint
    (h : readNumber .floatingPoint cs = .ok (some v)) :
    ∃ x, v = .real x ∧ readNumber .complex cs = .ok (some (.complex x (Double.zero false))) := by
  obtain ⟨negative, u, hread, hfinite, rfl⟩ := readNumber_floatingPoint_iff.mp h
  have hzero : (Double.zero false).isFinite = true := rfl
  refine ⟨_, rfl, ?_⟩
  simp only [readNumber, readComplex?_of_readReal? hread, Option.bind_some, hfinite, hzero,
    Bool.and_self, if_true]

/-! ### Integers -/

/-- The integer with given digits. -/
def signedValue (negative : Bool) (ds : List Char) : Int :=
  if negative then -(Text.digitsValue ds : Int) else Text.digitsValue ds

theorem readNumber_integer (h : readInteger? cs = some (negative, ds)) :
    readNumber .integer cs = if digitLimit < ds.length then .error .tooManyDigits
      else .ok (some (.integer (signedValue negative ds))) := by
  rw [readNumber, h]
  rfl

theorem exists_of_readNumber_integer (h : readNumber .integer cs = .ok (some v)) :
    ∃ negative ds, readInteger? cs = some (negative, ds) ∧
      v = .integer (signedValue negative ds) := by
  cases hread : readInteger? cs with
  | none => simp [readNumber, hread] at h
  | some p =>
    obtain ⟨negative, ds⟩ := p
    rw [readNumber_integer hread] at h
    split_ifs at h
    exact ⟨negative, ds, rfl, (Option.some.inj (Except.ok.inj h)).symm⟩

/-- The digits of an integer are a real without fraction and exponent. -/
theorem readReal?_of_readInteger? (h : readInteger? cs = some (negative, ds)) :
    readReal? cs = some (negative, ⟨ds, [], none⟩) := by
  obtain ⟨hsign, hds⟩ := readInteger?_eq_some_iff_scanSign.mp h
  have hscan : scan? (ds ++ []) = some (⟨ds, [], none⟩, []) :=
    scan?_digits hds.1 hds.2 (by simp) rfl
  rw [List.append_nil] at hscan
  rw [readReal?_eq_some_iff, hsign]
  exact ⟨rfl, hscan⟩

/-- A real with neither a point nor an exponent is an integer. -/
theorem exists_readInteger?_of_readReal? (h : readReal? cs = some (negative, u))
    (hplain : '.' ∉ cs ∧ 'e' ∉ cs ∧ 'E' ∉ cs) : ∃ ds, readInteger? cs = some (negative, ds) := by
  obtain ⟨hsign, hscan⟩ := readReal?_eq_some_iff.mp h
  obtain ⟨lit, hlit, hcs⟩ := exists_of_scan? hscan
  obtain ⟨sign, hsigned, -⟩ := exists_optionalSign cs
  rw [List.append_nil] at hcs
  rw [hcs] at hsigned
  refine ⟨lit, readInteger?_eq_some_iff_scanSign.mpr ⟨Prod.ext hsign hcs, ?_⟩⟩
  have hnone : ∀ c ∈ ['.', 'e', 'E'], c ∉ lit := by
    intro c hc hmem
    have hmem' : c ∈ cs := hsigned ▸ List.mem_append_right _ hmem
    simp only [List.mem_cons, List.not_mem_nil, or_false] at hc
    rcases hc with rfl | rfl | rfl
    · exact hplain.1 hmem'
    · exact hplain.2.1 hmem'
    · exact hplain.2.2 hmem'
  cases hlit with
  | whole hds hexponent =>
    cases hexponent with
    | none => rwa [List.append_nil]
    | @some e _ _ he =>
      refine absurd (List.mem_append_right _ List.mem_cons_self) (hnone e ?_)
      rcases he with rfl | rfl <;> decide
  | point => exact absurd (by simp) (hnone '.' (by decide))

/-- An integer other than zero is read as its double. -/
private theorem ofInt?_signedValue_iff {x : Double} (hne : Text.digitsValue ds ≠ 0) :
    Double.ofInt? (signedValue negative ds) = some x ↔
      toDouble negative ⟨ds, [], none⟩ = x ∧ x.isFinite = true := by
  have hvalue : toDouble negative ⟨ds, [], none⟩
      = Double.ofDecimal negative (Text.digitsValue ds) 0 := by
    rw [toDouble, coefficient, List.append_nil]
    rfl
  have hsign : decide (signedValue negative ds < 0) = negative := by
    cases negative
    · simp [signedValue]
    · simp only [signedValue, if_true, decide_eq_true_eq]
      omega
  have habs : (signedValue negative ds).natAbs = Text.digitsValue ds := by
    cases negative <;> simp [signedValue]
  have hzero : signedValue negative ds ≠ 0 := by
    cases negative <;> simp [signedValue, hne]
  rw [Double.ofInt?_eq_some_iff hzero, hsign, habs, hvalue]

/-- An integer is read as an infinity if it exceeds the doubles, else as its double, where a
negative zero equals the zero of the integer. -/
private theorem toDouble_digits (negative : Bool) (ds : List Char) :
    ExceedsDoubles (signedValue negative ds) ∧
        (toDouble negative ⟨ds, [], none⟩).isFinite = false ∨
      ¬ ExceedsDoubles (signedValue negative ds) ∧
        (toDouble negative ⟨ds, [], none⟩).isFinite = true ∧
        ∃ x, Double.ofInt? (signedValue negative ds) = some x ∧
          (toDouble negative ⟨ds, [], none⟩).eq x = true ∧
          (signedValue negative ds ≠ 0 → toDouble negative ⟨ds, [], none⟩ = x) := by
  rw [← Double.ofInt?_eq_none_iff]
  by_cases hzero : Text.digitsValue ds = 0
  · have hvalue : toDouble negative ⟨ds, [], none⟩ = Double.zero negative := by
      rw [toDouble, coefficient, List.append_nil, Double.ofDecimal, if_pos hzero]
    have hint : signedValue negative ds = 0 := by simp [signedValue, hzero]
    rw [hvalue, hint, Double.ofInt?_zero]
    exact .inr ⟨by simp, rfl, _, rfl, by cases negative <;> rfl, fun h => absurd rfl h⟩
  · cases hdouble : Double.ofInt? (signedValue negative ds) with
    | none =>
      refine .inl ⟨rfl, Bool.eq_false_iff.mpr fun hfinite => ?_⟩
      simpa [hdouble] using (ofInt?_signedValue_iff hzero).mpr ⟨rfl, hfinite⟩
    | some x =>
      obtain ⟨rfl, hfinite⟩ := (ofInt?_signedValue_iff hzero).mp hdouble
      obtain ⟨s, m, hx⟩ := Double.exists_eq_finite hfinite
      exact .inr ⟨by simp, hfinite, _, rfl, by simp [hx, Double.eq], fun _ => rfl⟩

/-- An integer is the floating point number it is rounded to, unless it exceeds the doubles. -/
private theorem readNumber_floatingPoint_of_integer
    (h : readNumber .integer cs = .ok (some v)) :
    ∃ i, v = .integer i ∧
      (ExceedsDoubles i ∧ readNumber .floatingPoint cs = .ok none ∨
        ¬ ExceedsDoubles i ∧ ∃ x y, Double.ofInt? i = some y ∧ x.eq y = true ∧ (i ≠ 0 → x = y) ∧
          readNumber .floatingPoint cs = .ok (some (.real x))) := by
  obtain ⟨negative, ds, hread, rfl⟩ := exists_of_readNumber_integer h
  have hreal := readReal?_of_readInteger? hread
  refine ⟨_, rfl, (toDouble_digits negative ds).imp ?_ ?_⟩
  · rintro ⟨hexceeds, hfinite⟩
    exact ⟨hexceeds, by simp [readNumber, hreal, finiteReal?, hfinite]⟩
  · rintro ⟨hexceeds, hfinite, y, hy, heq, hne⟩
    exact ⟨hexceeds, _, y, hy, heq, hne,
      readNumber_floatingPoint_iff.mpr ⟨negative, _, hreal, hfinite, rfl⟩⟩

/-- A floating point number with neither a point nor an exponent is an integer, unless it has more
digits than are read. -/
private theorem readNumber_integer_of_floatingPoint
    (h : readNumber .floatingPoint cs = .ok (some v)) (hplain : '.' ∉ cs ∧ 'e' ∉ cs ∧ 'E' ∉ cs) :
    (∃ i, readNumber .integer cs = .ok (some (.integer i))) ∨
      digitLimit < (cs.filter Text.isDigit).length ∧
        readNumber .integer cs = .error .tooManyDigits := by
  obtain ⟨negative, u, hreal, -, -⟩ := readNumber_floatingPoint_iff.mp h
  obtain ⟨ds, hread⟩ := exists_readInteger?_of_readReal? hreal hplain
  rw [readNumber_integer hread]
  split_ifs with hlimit
  · obtain ⟨hsign, hds⟩ := readInteger?_eq_some_iff_scanSign.mp hread
    obtain ⟨sign, hcs, -⟩ := exists_optionalSign cs
    rw [hsign] at hcs
    refine .inr ⟨?_, rfl⟩
    rw [hcs, List.filter_append, List.filter_eq_self.mpr hds.2, List.length_append]
    exact Nat.lt_add_left _ hlimit
  · exact .inl ⟨_, rfl⟩

/-! ### The four types -/

/-- **The numeric types are nested**: scientific in floating point, this in complex, and integer in
floating point but for the integers beyond the doubles. A floating point number with neither a point
nor an exponent is an integer, unless it has more than 4300 digits. -/
theorem parseNumber_nested (text : String) (s : Settings) :
    (∀ r, parseNumber text s .scientific = .ok (some r) →
      parseNumber text s .floatingPoint = .ok (some r)) ∧
    (∀ v n, parseNumber text s .floatingPoint = .ok (some (v, n)) → ∃ x, v = .real x ∧
      parseNumber text s .complex = .ok (some (.complex x (Double.zero false), n))) ∧
    (∀ v n, parseNumber text s .integer = .ok (some (v, n)) → ∃ i, v = .integer i ∧
      (ExceedsDoubles i ∧ parseNumber text s .floatingPoint = .ok none ∨
        ¬ ExceedsDoubles i ∧ ∃ x y, Double.ofInt? i = some y ∧ x.eq y = true ∧ (i ≠ 0 → x = y) ∧
          parseNumber text s .floatingPoint = .ok (some (.real x, n)))) ∧
    (∀ v n, parseNumber text s .floatingPoint = .ok (some (v, n)) →
      '.' ∉ n.toList ∧ 'e' ∉ n.toList ∧ 'E' ∉ n.toList →
      (∃ i, parseNumber text s .integer = .ok (some (.integer i, n))) ∨
        digitLimit < (n.toList.filter Text.isDigit).length ∧
          parseNumber text s .integer = .error .tooManyDigits) := by
  simp only [Prod.forall, parseNumber_eq_ok_iff]
  refine ⟨?_, ?_, ?_, ?_⟩
  · rintro v n ⟨hn, h⟩
    exact ⟨hn, readNumber_floatingPoint_of_scientific h⟩
  · rintro v n ⟨hn, h⟩
    obtain ⟨x, hv, hcomplex⟩ := readNumber_complex_of_floatingPoint h
    exact ⟨x, hv, hn, hcomplex⟩
  · rintro v n ⟨hn, h⟩
    obtain ⟨i, hv, hfloat⟩ := readNumber_floatingPoint_of_integer h
    refine ⟨i, hv, hfloat.imp ?_ ?_⟩
    · rintro ⟨hexceeds, hnone⟩
      exact ⟨hexceeds, by rw [parseNumber_eq, ← hn, hnone]; rfl⟩
    · rintro ⟨hexceeds, x, y, hy, heq, hne, hsome⟩
      exact ⟨hexceeds, x, y, hy, heq, hne, hn, hsome⟩
  · rintro v n ⟨hn, h⟩ hplain
    refine (readNumber_integer_of_floatingPoint h hplain).imp ?_ ?_
    · rintro ⟨i, hinteger⟩
      exact ⟨i, hn, hinteger⟩
    · rintro ⟨hlimit, herror⟩
      exact ⟨hlimit, by rw [parseNumber_eq, ← hn, herror]; rfl⟩

/-! #### Twelve hundred in three types -/

/-- `1.2e3` is scientific, hence floating point and complex; `1200` is an integer and a floating
point number, each by the other. -/
theorem parseNumber_twelveHundred :
    parseNumber "1.2e3" .standard .floatingPoint
        = .ok (some (.real (Double.ofDecimal false 12 2), "1.2e3")) ∧
      (∃ x, parseNumber "1.2e3" .standard .complex
        = .ok (some (.complex x (Double.zero false), "1.2e3"))) ∧
      (∃ x y, Double.ofInt? 1200 = some y ∧ x.eq y = true ∧
        parseNumber "1200" .standard .floatingPoint = .ok (some (.real x, "1200"))) ∧
      ∃ i, parseNumber "1200" .standard .integer = .ok (some (.integer i, "1200")) := by
  have hscientific := (parseNumber_nested "1.2e3" .standard).1
    (.real (Double.ofDecimal false 12 2), "1.2e3") (by decide +kernel)
  have hinteger : parseNumber "1200" .standard .integer = .ok (some (.integer 1200, "1200")) := by
    decide +kernel
  refine ⟨hscientific, ?_, ?_, ?_⟩
  · obtain ⟨x, -, hcomplex⟩ := (parseNumber_nested "1.2e3" .standard).2.1 _ _ hscientific
    exact ⟨x, hcomplex⟩
  · obtain ⟨i, hi, hfloat⟩ := (parseNumber_nested "1200" .standard).2.2.1 _ _ hinteger
    obtain rfl : 1200 = i := Value.integer.inj hi
    obtain ⟨-, x, y, hy, heq, -, hsome⟩ := hfloat.resolve_left fun h =>
      absurd h.1 (by rw [ExceedsDoubles]; decide +kernel)
    exact ⟨x, y, hy, heq, hsome⟩
  · have hfloat : parseNumber "1200" .standard .floatingPoint
        = .ok (some (.real (Double.ofDecimal false 1200 0), "1200")) := by decide +kernel
    exact ((parseNumber_nested "1200" .standard).2.2.2 _ _ hfloat (by decide)).resolve_right
      fun h => absurd h.1 (by decide)

end TableRules
