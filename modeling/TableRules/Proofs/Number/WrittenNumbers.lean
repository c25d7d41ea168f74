import TableRules.Number.Notation
import TableRules.Proofs.Number.Literals
import TableRules.Proofs.Number.ShortestDigits

/-!
# Written numbers are read back

Whatever layout a number is written in, its text spells a literal of the same value
(`DecimalDigits.exists_spell_layout`). Together with the choice of digits, which stand for a number
that rounds to the written one, this gives the round trips: the text of a finite double is read as
that double, by `Double.text` and `Double.scientific`, and the text of a complex number as that
complex number.
-/

namespace TableRules

/-- Whether a literal has the value of given decimal digits. -/
def Unsigned.Denotes (u : Unsigned) (d : DecimalDigits) : Prop :=
  (u.coefficient : ℚ) * 10 ^ u.power = d.value

/-- A literal has the value of decimal digits when it has their coefficient, up to zeros at the end
that its power of ten makes up for. -/
private theorem denotes_of_eq {u : Unsigned} {d : DecimalDigits} {j : Nat}
    (hcoefficient : u.coefficient = d.coefficient * 10 ^ j) (hpower : u.power = d.power - j) :
    u.Denotes d := by
  rw [Unsigned.Denotes, DecimalDigits.value, hcoefficient, hpower, zpow_sub₀ (by norm_num)]
  push_cast
  field_simp
  norm_cast

namespace DecimalDigits

private theorem isDigit_toDigits (n : Nat) : ∀ c ∈ Nat.toDigits 10 n, c.isDigit = true :=
  fun _ hc => Nat.isDigit_of_mem_toDigits (by decide) (by decide) hc

private theorem isDigit_zeros (k : Nat) : ∀ c ∈ List.replicate k '0', c.isDigit = true := by
  intro c hc
  rw [List.eq_of_mem_replicate hc]
  decide

private theorem isDigit_append {cs ds : List Char} (hcs : ∀ c ∈ cs, c.isDigit = true)
    (hds : ∀ c ∈ ds, c.isDigit = true) : ∀ c ∈ cs ++ ds, c.isDigit = true := fun c hc =>
  (List.mem_append.mp hc).elim (hcs c) (hds c)

/-- A written exponent has its value. -/
private theorem exponentValue_written (whole fraction : List Char) (e : Int) :
    Unsigned.exponentValue
      ⟨whole, fraction, some (decide (e < 0), (Text.padded 2 e.natAbs).toList)⟩ = e := by
  by_cases he : e < 0
  · simp only [Unsigned.exponentValue, decide_eq_true he, Text.digitsValue_padded]
    omega
  · simp only [Unsigned.exponentValue, decide_eq_false he, Text.digitsValue_padded]
    omega

/-- A number with an exponent spells a literal of its value. -/
theorem exists_spell_exponential (d : DecimalDigits) :
    ∃ u : Unsigned, u.IsPlain ∧ d.exponential.toList = u.spell ∧ u.Denotes d ∧
      u.exponent.isSome = true := by
  have hds := isDigit_toDigits d.coefficient
  have hvalue := Text.digitsValue_toDigits d.coefficient
  have hlen : 0 < (Nat.toDigits 10 d.coefficient).length := Nat.length_toDigits_pos
  have hexp : ∀ e : Int, (exponentText e).toList
      = Unsigned.exponentChars (some (decide (e < 0), (Text.padded 2 e.natAbs).toList)) := by
    intro e
    by_cases he : e < 0 <;> simp [exponentText, Unsigned.exponentChars, he]
  unfold exponential mantissaText leading countDigits
  generalize Nat.toDigits 10 d.coefficient = ds at *
  obtain ⟨c, cs, rfl⟩ := List.exists_cons_of_length_pos hlen
  -- the first digit stands before the point and all others after it
  refine ⟨⟨[c], cs, some (decide (d.power + (c :: cs).length - 1 < 0),
      (Text.padded 2 (d.power + (c :: cs).length - 1).natAbs).toList)⟩,
    ⟨by simp, fun a ha => hds a (by simp_all), fun a ha => hds a (by simp [ha]), ?_⟩, ?_,
    denotes_of_eq (j := 0) ?_ ?_, rfl⟩
  · rintro negative ds h
    obtain ⟨-, rfl⟩ := Prod.mk.inj (Option.some.inj h)
    exact ⟨Text.padded_ne_nil _ _, fun a ha => Text.isDigit_of_mem_padded ha⟩
  · rw [String.toList_append, hexp, Unsigned.spell]
    cases cs <;> simp
  · rw [pow_zero, Nat.mul_one, ← hvalue]
    rfl
  · rw [Unsigned.power, exponentValue_written, List.length_cons]
    push_cast
    ring

/-- A positional number spells a literal of its value. -/
theorem exists_spell_positional (d : DecimalDigits) (pointZero : Bool) :
    ∃ u : Unsigned, u.IsPlain ∧ (d.positional pointZero).toList = u.spell ∧ u.Denotes d := by
  have hds := isDigit_toDigits d.coefficient
  have hvalue := Text.digitsValue_toDigits d.coefficient
  have hlen : 0 < (Nat.toDigits 10 d.coefficient).length := Nat.length_toDigits_pos
  have hzero : Text.digitsValue ['0'] = 0 := rfl
  unfold positional
  generalize Nat.toDigits 10 d.coefficient = ds at *
  have hne : ds ≠ [] := List.ne_nil_of_length_pos hlen
  dsimp only
  split_ifs with hsmall hlarge hpoint
  · -- the digits stand after the point, with zeros in front of them
    refine ⟨⟨['0'], List.replicate (-(d.power + ds.length)).toNat '0' ++ ds, none⟩,
      ⟨by simp, isDigit_zeros 1, isDigit_append (isDigit_zeros _) hds, by simp⟩, ?_,
      denotes_of_eq (j := 0) ?_ ?_⟩
    · simp [Unsigned.spell, Unsigned.exponentChars, hne]
    · simp only [Unsigned.coefficient, Text.digitsValue_append, hvalue, hzero,
        Text.digitsValue_replicate_zero]
      ring
    · simp only [Unsigned.power, Unsigned.exponentValue, List.length_append, List.length_replicate]
      omega
  · -- the digits stand before the point, with zeros after them
    refine ⟨⟨ds ++ List.replicate d.power.toNat '0', ['0'], none⟩,
      ⟨by simp [hne], isDigit_append hds (isDigit_zeros _), isDigit_zeros 1, by simp⟩, ?_,
      denotes_of_eq (j := d.power.toNat + 1) ?_ ?_⟩
    · simp [Unsigned.spell, Unsigned.exponentChars]
    · simp only [Unsigned.coefficient, Text.digitsValue_append, hvalue, hzero,
        Text.digitsValue_replicate_zero, List.length_replicate, List.length_singleton]
      ring
    · simp only [Unsigned.power, Unsigned.exponentValue, List.length_singleton]
      omega
  · refine ⟨⟨ds ++ List.replicate d.power.toNat '0', [], none⟩,
      ⟨by simp [hne], isDigit_append hds (isDigit_zeros _), by simp, by simp⟩, ?_,
      denotes_of_eq (j := d.power.toNat) ?_ ?_⟩
    · simp [Unsigned.spell, Unsigned.exponentChars]
    · simp only [Unsigned.coefficient, List.append_nil, Text.digitsValue_append, hvalue,
        Text.digitsValue_replicate_zero, List.length_replicate]
      ring
    · simp only [Unsigned.power, Unsigned.exponentValue, List.length_nil]
      omega
  · -- the point stands among the digits
    refine ⟨⟨ds.take (d.power + ds.length).toNat, ds.drop (d.power + ds.length).toNat, none⟩,
      ⟨?_, fun c hc => hds c (List.mem_of_mem_take hc), fun c hc => hds c (List.mem_of_mem_drop hc),
        by simp⟩, ?_, denotes_of_eq (j := 0) ?_ ?_⟩
    · rw [ne_eq, List.take_eq_nil_iff, not_or]
      exact ⟨by omega, hne⟩
    · have hdrop : ds.drop (d.power + ds.length).toNat ≠ [] := by
        rw [ne_eq, List.drop_eq_nil_iff]
        omega
      simp [Unsigned.spell, Unsigned.exponentChars, hdrop]
    · rw [Unsigned.coefficient, List.take_append_drop, hvalue, pow_zero, Nat.mul_one]
    · simp only [Unsigned.power, Unsigned.exponentValue, List.length_drop]
      omega

theorem exists_spell_layout (d : DecimalDigits) (limit : Int) (pointZero : Bool) :
    ∃ u : Unsigned, u.IsPlain ∧ (d.layout limit pointZero).toList = u.spell ∧ u.Denotes d := by
  rw [layout]
  split
  · exact d.exists_spell_positional pointZero
  · obtain ⟨u, hplain, hspell, hvalue, -⟩ := d.exists_spell_exponential
    exact ⟨u, hplain, hspell, hvalue⟩

end DecimalDigits

/-! ### Texts of doubles -/

namespace Double

variable {u : Unsigned} {d : DecimalDigits} {m n : Magnitude} {s t : Bool}

/-- A literal with the value of digits that round to a magnitude is read as the double. -/
private theorem toDouble_of_denotes (hm : m.units ≠ 0) (hu : u.Denotes d)
    (hd : m.Absorbs (d.value * unitScale)) (s : Bool) : u.toDouble s = .finite s m := by
  rw [← hu] at hd
  exact ofDecimal_eq hm hd

private theorem toDouble_of_zero (hm : m.units = 0) (hu : u.coefficient = 0) (s : Bool) :
    u.toDouble s = .finite s m := by
  rw [Unsigned.toDouble, ofDecimal, if_pos hu, zero]
  congr 1
  cases m
  simp only [Magnitude.mk.injEq]
  exact hm.symm

/-- The text of a magnitude spells a literal that is read as the double. -/
theorem exists_spell_magnitudeText (m : Magnitude) (limit : Int) (pointZero : Bool) :
    ∃ u : Unsigned, u.IsPlain ∧ (magnitudeText m limit pointZero).toList = u.spell ∧
      ∀ s, u.toDouble s = .finite s m := by
  rw [magnitudeText]
  split
  · rename_i hm
    refine ⟨⟨['0'], if pointZero then ['0'] else [], none⟩, ?_, ?_,
      fun s => toDouble_of_zero hm ?_ s⟩
    · constructor <;> cases pointZero <;> simp
    · cases pointZero <;> decide
    · cases pointZero <;> decide
  · rename_i hm
    obtain ⟨u, hplain, hspell, hu⟩ := m.shortest.exists_spell_layout limit pointZero
    exact ⟨u, hplain, hspell, toDouble_of_denotes hm hu (Magnitude.shortest_absorbs hm)⟩

theorem toList_signText (s : Bool) : (signText s).toList = signChars s := by
  cases s <;> decide

/-- The text of a finite double spells a literal that is read as the double. -/
theorem exists_spell_textWith (s : Bool) (m : Magnitude) (limit : Int) (pointZero : Bool) :
    ∃ u : Unsigned, u.IsPlain ∧
      (textWith limit pointZero (.finite s m)).toList = signChars s ++ u.spell ∧
      ∀ s', u.toDouble s' = .finite s' m := by
  obtain ⟨u, hplain, hspell, hu⟩ := exists_spell_magnitudeText m limit pointZero
  exact ⟨u, hplain, by rw [textWith, String.toList_append, toList_signText, hspell], hu⟩

/-- The scientific text of a finite double spells a literal with an exponent that is read as the
double. -/
theorem exists_spell_scientific (s : Bool) (m : Magnitude) :
    ∃ u : Unsigned, u.IsPlain ∧ (scientific (.finite s m)).toList = signChars s ++ u.spell ∧
      u.exponent.isSome = true ∧ u.toDouble s = .finite s m := by
  simp only [scientific]
  split_ifs with hm
  · refine ⟨⟨['0'], List.replicate 16 '0', some (false, ['0', '0'])⟩,
      ⟨by decide, DecimalDigits.isDigit_zeros 1, DecimalDigits.isDigit_zeros 16, ?_⟩, ?_, rfl,
      toDouble_of_zero hm (by decide) s⟩
    · rintro negative ds h
      obtain ⟨-, rfl⟩ := Prod.mk.inj (Option.some.inj h)
      exact ⟨by decide, DecimalDigits.isDigit_zeros 2⟩
    · cases s <;> decide
  · obtain ⟨u, hplain, hspell, hu, hexp⟩ := (m.rounded 17).exists_spell_exponential
    exact ⟨u, hplain, by rw [String.toList_append, toList_signText, hspell], hexp,
      toDouble_of_denotes hm hu (Magnitude.rounded_absorbs hm) s⟩

/-- **The text of a complex number** is read as the complex number. -/
theorem readComplex?_complexText (s t : Bool) (m n : Magnitude) :
    readComplex? (complexText (.finite s m) (.finite t n)).toList
      = some (.finite s m, .finite t n) := by
  obtain ⟨u, hu, huspell, hum⟩ := exists_spell_textWith s m 16 false
  obtain ⟨v, hv, hvspell, hvn⟩ := exists_spell_textWith t n 16 false
  unfold complexText
  split_ifs with hre
  · -- a positive zero is left out, and it is what a missing real part is read as
    rw [hre, String.toList_append, hvspell, ← hvn t]
    exact readComplex?_spell_imaginary hv t
  · have hread := readComplex?_spell hu hv s t
    rw [hum, hvn] at hread
    rw [← hread]
    simp only [String.toList_append, huspell, hvspell]
    cases t <;> simp [signChars]

theorem isNumeric_of_mem_complexText {c : Char}
    (hc : c ∈ (complexText (.finite s m) (.finite t n)).toList) : IsNumeric c := by
  have htext : ∀ s m, ∀ c ∈ (textWith 16 false (.finite s m)).toList, IsNumeric c := by
    intro s m c hc
    obtain ⟨u, hu, hspell, -⟩ := exists_spell_textWith s m 16 false
    exact isNumeric_of_mem_sign_spell hu (hspell ▸ hc)
  have himaginary : ∀ c ∈ (textWith 16 false (.finite t n) ++ "j").toList, IsNumeric c := by
    intro c hc
    rw [String.toList_append] at hc
    rcases List.mem_append.mp hc with hc | hc
    · exact htext t n c hc
    · exact List.mem_singleton.mp hc ▸ .inr (by decide)
  unfold complexText at hc
  split_ifs at hc
  · exact himaginary c hc
  · rw [String.toList_append, String.toList_append] at hc
    rcases List.mem_append.mp hc with hc | hc
    · rcases List.mem_append.mp hc with hc | hc
      · exact htext s m c hc
      · cases t with
        | true => simp at hc
        | false =>
          obtain rfl : c = '+' := by simpa using hc
          exact .inr (by decide)
    · exact himaginary c hc

end Double

/-! ### Integers -/

/-- The digits of a number as a literal. -/
private def wholeLiteral (n : Nat) : Unsigned := ⟨Nat.toDigits 10 n, [], none⟩

private theorem spell_wholeLiteral (n : Nat) : (wholeLiteral n).spell = Nat.toDigits 10 n := by
  simp [wholeLiteral, Unsigned.spell, Unsigned.exponentChars]

private theorem isPlain_wholeLiteral (n : Nat) : (wholeLiteral n).IsPlain where
  whole_ne_nil := List.ne_nil_of_length_pos Nat.length_toDigits_pos
  whole _ hc := Nat.isDigit_of_mem_toDigits (by decide) (by decide) hc
  fraction := by simp [wholeLiteral]
  exponent := by simp [wholeLiteral]

private theorem toList_decimalInt (n : Int) :
    (Text.decimalInt n).toList
      = signChars (decide (n < 0)) ++ (wholeLiteral n.natAbs).spell := by
  rw [Text.decimalInt, spell_wholeLiteral]
  split_ifs with hn <;> simp [hn, signChars, Text.decimal, Nat.toList_repr]

/-- **The text of an integer** is read with its sign and its digits. -/
theorem readInteger?_decimalInt (n : Int) :
    readInteger? (Text.decimalInt n).toList
      = some (decide (n < 0), Nat.toDigits 10 n.natAbs) := by
  have hplain := isPlain_wholeLiteral n.natAbs
  have hsign := scanSign_spell hplain (decide (n < 0)) []
  rw [List.append_nil, List.append_nil, ← toList_decimalInt, spell_wholeLiteral] at hsign
  have hdigits : (Nat.toDigits 10 n.natAbs).all Text.isDigit = true :=
    List.all_eq_true.mpr fun c hc => Text.isDigit_of_ascii_isDigit (hplain.whole c hc)
  have hne : (Nat.toDigits 10 n.natAbs).isEmpty = false :=
    List.isEmpty_eq_false_iff.mpr hplain.whole_ne_nil
  rw [readInteger?, hsign]
  simp only [hdigits, hne]
  rfl

theorem point_notMem_decimalInt (n : Int) : '.' ∉ (Text.decimalInt n).toList := by
  rw [toList_decimalInt, spell_wholeLiteral, List.mem_append, not_or]
  constructor
  · unfold signChars
    split <;> decide
  · intro h
    have := (isPlain_wholeLiteral n.natAbs).whole '.' h
    simp at this

theorem isNumeric_of_mem_decimalInt {n : Int} {c : Char} (hc : c ∈ (Text.decimalInt n).toList) :
    IsNumeric c :=
  isNumeric_of_mem_sign_spell (isPlain_wholeLiteral n.natAbs) (toList_decimalInt n ▸ hc)

/-! ### Numbers in rules -/

/-- A whole number of units that is a whole number is read from its digits. -/
private theorem toDouble_wholeLiteral {m : Magnitude} {n : Nat} (hm : m.units = n * unitScale)
    (negative : Bool) : (wholeLiteral n).toDouble negative = .finite negative m := by
  have hvalue : (wholeLiteral n).coefficient = n := by
    rw [Unsigned.coefficient, wholeLiteral, List.append_nil, Text.digitsValue_toDigits]
  by_cases hzero : m.units = 0
  · refine Double.toDouble_of_zero hzero ?_ negative
    rw [hvalue]
    rw [hm] at hzero
    exact (Nat.mul_eq_zero.mp hzero).resolve_right (twoTo_pos 1074).ne'
  · have hpower : (wholeLiteral n).power = 0 := rfl
    rw [Unsigned.toDouble, hvalue, hpower]
    refine Double.ofDecimal_eq hzero ?_
    have hunits : (m.units : ℚ) = n * 10 ^ (0 : Int) * unitScale := by
      rw [hm, zpow_zero, mul_one, Nat.cast_mul]
    rw [← hunits]
    exact m.absorbs_units

/-- **A finite double as a rule shows it** spells a literal that is read as an equal double. The
sign of zero is not shown. -/
theorem Double.exists_spell_plain (s : Bool) (m : Magnitude) :
    ∃ (negative : Bool) (u : Unsigned), u.IsPlain ∧
      (plain (.finite s m)).toList = signChars negative ++ u.spell ∧
      u.toDouble negative = .finite negative m ∧
      (Double.finite s m).eq (.finite negative m) = true := by
  unfold plain
  cases hint : toInt? (.finite s m) with
  | none =>
    obtain ⟨u, hplain, hspell, hu⟩ := exists_spell_textWith s m 16 true
    exact ⟨s, u, hplain, hspell, hu s, by simp [Double.eq]⟩
  | some i =>
    obtain ⟨hmod, hi⟩ := Option.ite_none_right_eq_some.mp hint
    obtain rfl := Option.some.inj hi
    have hm := (Nat.div_mul_cancel (Nat.dvd_of_mod_eq_zero hmod)).symm
    generalize m.units / unitScale = n at *
    have habs : (if s = true then -(n : Int) else n).natAbs = n := by
      cases s <;> simp
    refine ⟨decide ((if s = true then -(n : Int) else n) < 0), wholeLiteral n,
      isPlain_wholeLiteral n, ?_, toDouble_wholeLiteral hm _, ?_⟩
    · exact (toList_decimalInt _).trans (by rw [habs])
    · -- only the sign of zero can differ
      rcases Nat.eq_zero_or_pos n with rfl | hn
      · rw [Nat.zero_mul] at hm
        simp [Double.eq, signedUnits, hm]
      · have hsign : decide ((if s = true then -(n : Int) else n) < 0) = s := by
          cases s with
          | false => simp
          | true => simpa using hn
        rw [hsign]
        simp [Double.eq]

end TableRules
