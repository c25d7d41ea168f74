import TableRules.Proofs.Number.RealLiterals

/-!
# The digits of a written number

A `WrittenReal` is a number as it is written: an optional sign, digits, a point with more digits,
and an exponent, in digits of any script. Every text that is read as a real is one
(`WrittenReal.exists_chars_eq`), and it is read with these parts (`WrittenReal.readReal?_chars`).

The **significant** digits of such a number are those before and after the point without the zeros
in front, but at least one; the **decimal places** are the digits after the point, moved by the
exponent. `DigitCount.ofText` counts exactly these as long as the powers of ten of the number are in
range, and refuses the number otherwise (`WrittenReal.ofText_text`).
-/

namespace TableRules

/-! ### Numbers as written -/

/-- An exponent as written: a letter, an optional sign and digits. -/
structure WrittenExponent where
  letter : Char
  sign : Option Bool
  digits : List Char
  letter_eq : letter = 'e' ∨ letter = 'E'
  digits_ne_nil : digits ≠ []
  isDigit : ∀ c ∈ digits, Text.isDigit c = true

namespace WrittenExponent

/-- The characters of an exponent. -/
def chars (x : WrittenExponent) : List Char := x.letter :: (optionalSign x.sign ++ x.digits)

/-- The power of ten that an exponent stands for. -/
def value (x : WrittenExponent) : Int :=
  if x.sign = some true then -(Text.digitsValue x.digits : Int) else Text.digitsValue x.digits

end WrittenExponent

/-- A number as written: an optional sign, digits before the point, digits after it if there is a
point, and an exponent if there is one. The digits on one side of the point may be missing. -/
structure WrittenReal where
  sign : Option Bool
  whole : List Char
  fraction : Option (List Char)
  exponent : Option WrittenExponent
  ne_nil : whole ≠ [] ∨ fraction.getD [] ≠ []
  isDigit_whole : ∀ c ∈ whole, Text.isDigit c = true
  isDigit_fraction : ∀ c ∈ fraction.getD [], Text.isDigit c = true

namespace WrittenReal

variable (w : WrittenReal)

/-- The characters of the fraction, with the point. -/
def fractionChars : List Char := (w.fraction.map ('.' :: ·)).getD []

/-- The characters of the exponent. -/
def exponentChars : List Char := (w.exponent.map WrittenExponent.chars).getD []

/-- The characters of a number. -/
def chars : List Char := optionalSign w.sign ++ (w.whole ++ (w.fractionChars ++ w.exponentChars))

/-- A number as a text. -/
def text : String := String.ofList w.chars

/-- The digits after the point. -/
def fractionDigits : List Char := w.fraction.getD []

/-- The power of ten that the exponent stands for, zero if there is none. -/
def exponentValue : Int := (w.exponent.map WrittenExponent.value).getD 0

/-- Whether a character is a zero, of any script. -/
def isZero (c : Char) : Bool := Text.digitValue? c == some 0

/-- The number of significant digits: leading zeros do not count, but zero has one. -/
def significant : Nat := max 1 ((w.whole ++ w.fractionDigits).dropWhile isZero).length

/-- The power of ten of the last digit. -/
def lastPower : Int := w.exponentValue - w.fractionDigits.length

/-- The number of decimal places, none if the last digit stands for a whole number. -/
def places : Nat := (w.fractionDigits.length - w.exponentValue).toNat

/-- The powers of ten of the first and of the last digit are in the range of numbers whose digits
are counted. -/
def InRange : Prop :=
  w.lastPower + w.significant - 1 ≤ greatestLeadingPower ∧ leastPower ≤ w.lastPower

instance : Decidable w.InRange := inferInstanceAs (Decidable (_ ∧ _))

/-- The parts of a number as they are read, without its sign. -/
def unsigned : Unsigned where
  whole := w.whole
  fraction := w.fractionDigits
  exponent := w.exponent.map fun x => (x.sign.getD false, x.digits)

/-! ### Reading -/

variable {w}

theorem scanExponent_exponentChars :
    Unsigned.scanExponent w.exponentChars = (w.unsigned.exponent, []) := by
  rw [exponentChars, unsigned]
  cases w.exponent with
  | none => rfl
  | some x =>
    rw [Option.map_some, Option.getD_some, ← List.append_nil x.chars, WrittenExponent.chars,
      Unsigned.scanExponent_append x.sign x.letter_eq x.digits_ne_nil x.isDigit (by simp)]
    rfl

theorem head_exponentChars : ∀ c ∈ w.exponentChars.head?, Text.isDigit c = false ∧ c ≠ '.' := by
  rw [exponentChars]
  cases w.exponent with
  | none => simp
  | some x =>
    intro c hc
    obtain rfl : x.letter = c := Option.some.inj hc
    rcases x.letter_eq with h | h <;> rw [h] <;> decide

theorem isExponent_exponentChars (w : WrittenReal) : Lexeme.IsExponent w.exponentChars := by
  rw [exponentChars]
  cases w.exponent with
  | none => exact .none
  | some x =>
    exact .some x.letter_eq (isOptionalSign_optionalSign x.sign) ⟨x.digits_ne_nil, x.isDigit⟩

/-- Without its sign a number is a literal. -/
theorem isRealLiteral (w : WrittenReal) :
    IsRealLiteral (w.whole ++ (w.fractionChars ++ w.exponentChars)) := by
  have hexponent := w.isExponent_exponentChars
  have hne := w.ne_nil
  have hdigits := w.isDigit_fraction
  rw [fractionChars]
  cases hfraction : w.fraction with
  | none =>
    rw [hfraction] at hne
    exact .whole ⟨hne.resolve_right (absurd rfl), w.isDigit_whole⟩ hexponent
  | some fs =>
    rw [hfraction] at hne hdigits
    exact .point hne w.isDigit_whole hdigits hexponent

/-- Without its sign a number is read with its parts. -/
theorem scan?_chars (w : WrittenReal) :
    Unsigned.scan? (w.whole ++ (w.fractionChars ++ w.exponentChars)) = some (w.unsigned, []) := by
  have hexponent := w.scanExponent_exponentChars
  have hne := w.ne_nil
  have hdigits := w.isDigit_fraction
  rw [fractionChars, unsigned, fractionDigits]
  cases hfraction : w.fraction with
  | none =>
    rw [hfraction] at hne
    exact Unsigned.scan?_digits (hne.resolve_right (absurd rfl)) w.isDigit_whole
      head_exponentChars hexponent
  | some fs =>
    rw [hfraction] at hne hdigits
    exact Unsigned.scan?_point hne w.isDigit_whole hdigits
      (fun c hc => (head_exponentChars c hc).1) hexponent

/-- **A number is read with its sign and its parts.** -/
theorem readReal?_chars (w : WrittenReal) :
    readReal? w.chars = some (w.sign.getD false, w.unsigned) := by
  have hhead := w.isRealLiteral.head_append []
  rw [List.append_nil] at hhead
  rw [readReal?_eq_some_iff, chars, scanSign_optionalSign w.sign hhead]
  exact ⟨rfl, w.scan?_chars⟩

/-- The characters of an exponent are those of a written one. -/
private theorem exists_exponentChars {exponent : List Char} (h : Lexeme.IsExponent exponent) :
    ∃ x : Option WrittenExponent, exponent = (x.map WrittenExponent.chars).getD [] := by
  cases h with
  | none => exact ⟨none, rfl⟩
  | @some e signChars ds he hsign hds =>
    obtain ⟨sign, rfl⟩ := exists_eq_optionalSign hsign
    exact ⟨some ⟨e, sign, ds, he, hds.1, hds.2⟩, rfl⟩

/-- **Every text that is read as a real is a number as written.** -/
theorem exists_chars_eq {cs : List Char} {negative : Bool} {u : Unsigned}
    (h : readReal? cs = some (negative, u)) : ∃ w : WrittenReal, w.chars = cs := by
  obtain ⟨-, hscan⟩ := readReal?_eq_some_iff.mp h
  obtain ⟨sign, hcs, -⟩ := exists_optionalSign cs
  obtain ⟨lit, hlit, hrest⟩ := Unsigned.exists_of_scan? hscan
  rw [hrest, List.append_nil] at hcs
  cases hlit with
  | whole hds hexponent =>
    obtain ⟨x, rfl⟩ := exists_exponentChars hexponent
    exact ⟨⟨sign, _, none, x, .inl hds.1, hds.2, by simp⟩, hcs.symm⟩
  | point hne hds hfs hexponent =>
    obtain ⟨x, rfl⟩ := exists_exponentChars hexponent
    exact ⟨⟨sign, _, some _, x, hne, hds, hfs⟩, hcs.symm⟩

/-! ### Counting -/

/-- The characters of a number are digits, signs, exponent letters and points. -/
theorem mem_chars {c : Char} (h : c ∈ w.chars) : GroupedNumber.IsNeutral c ∨ c = '.' := by
  rcases List.mem_append.mp h with h | h
  · exact .inl (GroupedNumber.isNeutral_of_mem_optionalSign h)
  rcases List.mem_append.mp h with h | h
  · exact .inl (.inl (w.isDigit_whole c h))
  rcases List.mem_append.mp h with h | h
  · have hdigits := w.isDigit_fraction
    rw [fractionChars] at h
    cases hfraction : w.fraction with
    | none => simp [hfraction] at h
    | some fs =>
      rw [hfraction] at h hdigits
      exact (List.mem_cons.mp h).symm.imp_left fun h => .inl (hdigits c h)
  · rw [exponentChars] at h
    cases hexponent : w.exponent with
    | none => simp [hexponent] at h
    | some x =>
      rw [hexponent] at h
      rcases List.mem_cons.mp h with rfl | h
      · exact .inl (.inr (by rcases x.letter_eq with h | h <;> rw [h] <;> decide))
      · exact .inl ((List.mem_append.mp h).elim GroupedNumber.isNeutral_of_mem_optionalSign
          fun h => .inl (x.isDigit c h))

/-- Neither white space nor an underscore stands in a number. -/
theorem clean_chars (w : WrittenReal) : (Text.trimChars w.chars).filter (· != '_') = w.chars := by
  have hblank : ∀ c ∈ w.chars, Text.isBlank c = false := fun c hc =>
    (mem_chars hc).elim GroupedNumber.isBlank_of_isNeutral fun h => h ▸ by decide
  have hunderscore : ∀ c ∈ w.chars, (c != '_') = true := fun c hc => by
    rw [bne_iff_ne]
    rintro rfl
    exact (mem_chars hc).elim (by unfold GroupedNumber.IsNeutral; decide) (by decide)
  rw [Text.trimChars_of_noBlank hblank, List.filter_eq_self.mpr hunderscore]

theorem exponentValue_unsigned (w : WrittenReal) :
    w.unsigned.exponentValue = w.exponentValue := by
  rw [exponentValue, Unsigned.exponentValue, unsigned]
  rcases w.exponent with _ | ⟨letter, _ | _ | _, ds⟩ <;> rfl

theorem power_unsigned (w : WrittenReal) : w.unsigned.power = w.lastPower := by
  rw [Unsigned.power, lastPower, exponentValue_unsigned]
  rfl

/-- **The digits of a number as written are counted**: the significant digits and the decimal
places, if the powers of ten of the number are in range. -/
theorem ofText_text (w : WrittenReal) :
    DigitCount.ofText w.text =
      if w.InRange then .ok ⟨w.significant, w.places⟩ else .error .outOfRange := by
  have hplaces : (-w.lastPower).toNat = w.places := by rw [lastPower, places, neg_sub]
  rw [DigitCount.ofText, text, String.toList_ofList, DigitCount.ofChars, w.clean_chars,
    w.readReal?_chars]
  have hcount : max 1 ((w.unsigned.whole ++ w.unsigned.fraction).dropWhile
      fun c => Text.digitValue? c == some 0).length = w.significant := rfl
  simp only [power_unsigned, hplaces, hcount]
  exact if_congr (by simp only [InRange, Bool.and_eq_true, decide_eq_true_eq]) rfl rfl

/-- Leading zeros of the whole digits play no part in the significant digits. -/
theorem significant_congr {w w' : WrittenReal}
    (hwhole : w.whole.dropWhile isZero = w'.whole.dropWhile isZero)
    (hfraction : w.fractionDigits = w'.fractionDigits) : w.significant = w'.significant := by
  rw [significant, significant, List.dropWhile_append, List.dropWhile_append, hwhole, hfraction]

/-- Numbers with the same digits and exponent but for leading zeros have the same counts. -/
theorem ofText_congr {w w' : WrittenReal}
    (hwhole : w.whole.dropWhile isZero = w'.whole.dropWhile isZero)
    (hfraction : w.fractionDigits = w'.fractionDigits)
    (hexponent : w.exponentValue = w'.exponentValue) :
    DigitCount.ofText w.text = DigitCount.ofText w'.text := by
  have hsignificant := significant_congr hwhole hfraction
  have hpower : w.lastPower = w'.lastPower := by rw [lastPower, lastPower, hfraction, hexponent]
  have hplaces : w.places = w'.places := by rw [places, places, hfraction, hexponent]
  rw [w.ofText_text, w'.ofText_text, hsignificant, hplaces]
  exact if_congr (by rw [InRange, InRange, hpower, hsignificant]) rfl rfl

end WrittenReal

/-! ### Signs and leading zeros -/

open WrittenReal (isZero)

theorem isDigit_of_isZero {c : Char} (h : isZero c = true) : Text.isDigit c = true := by
  rw [Text.isDigit, beq_iff_eq.mp h]
  rfl

/-- Digits in front of a literal belong to its whole digits and leave its other parts. -/
theorem Unsigned.scan?_append_left {ds ds' tail rest rest' : List Char} {u u' : Unsigned}
    (hds : ∀ c ∈ ds, Text.isDigit c = true) (hds' : ∀ c ∈ ds', Text.isDigit c = true)
    (h : scan? (ds ++ tail) = some (u, rest)) (h' : scan? (ds' ++ tail) = some (u', rest')) :
    u.whole = ds ++ digits tail ∧ u' = { u with whole := ds' ++ digits tail } := by
  have hdigits : ∀ ds : List Char, (∀ c ∈ ds, Text.isDigit c = true) →
      digits (ds ++ tail) = ds ++ digits tail := fun ds => List.takeWhile_append_of_pos
  have hafter : ∀ ds : List Char, (∀ c ∈ ds, Text.isDigit c = true) →
      afterDigits (ds ++ tail) = afterDigits tail := fun ds => List.dropWhile_append_of_pos
  rw [scan?, hdigits ds hds, hafter ds hds] at h
  rw [scan?, hdigits ds' hds', hafter ds' hds'] at h'
  dsimp only at h h'
  split at h <;> rename_i r hr <;> simp only [hr] at h' <;> split_ifs at h h'
  · obtain ⟨rfl, -⟩ := Prod.mk.inj (Option.some.inj h)
    obtain ⟨rfl, -⟩ := Prod.mk.inj (Option.some.inj h')
    exact ⟨rfl, rfl⟩
  · obtain ⟨rfl, -⟩ := Prod.mk.inj (Option.some.inj h)
    obtain ⟨rfl, -⟩ := Prod.mk.inj (Option.some.inj h')
    exact ⟨rfl, rfl⟩

namespace WrittenReal

variable {sign sign' : Option Bool} {zeros zeros' tail : List Char} {w w' : WrittenReal}

/-- Behind the sign of a number the rest of it is read. -/
theorem scan?_of_chars_eq (hzeros : ∀ c ∈ zeros, isZero c = true)
    (htail : ∀ c ∈ tail.head?, c ≠ '+' ∧ c ≠ '-')
    (h : w.chars = optionalSign sign ++ (zeros ++ tail)) :
    Unsigned.scan? (zeros ++ tail) = some (w.unsigned, []) := by
  have hhead : ∀ c ∈ (zeros ++ tail).head?, c ≠ '+' ∧ c ≠ '-' := by
    cases zeros with
    | nil => exact htail
    | cons z zeros =>
      intro c hc
      obtain rfl : z = c := Option.some.inj hc
      exact ne_sign_of_isDigit (isDigit_of_isZero (hzeros z List.mem_cons_self))
  have hscan := (readReal?_eq_some_iff.mp (h ▸ w.readReal?_chars)).2
  rwa [scanSign_optionalSign sign hhead] at hscan

/-- **Neither a sign nor leading zeros count**: numbers that are written alike but for these have
the same counts of digits. -/
theorem ofText_zeros (hzeros : ∀ c ∈ zeros, isZero c = true)
    (hzeros' : ∀ c ∈ zeros', isZero c = true) (htail : ∀ c ∈ tail.head?, c ≠ '+' ∧ c ≠ '-')
    (h : w.chars = optionalSign sign ++ (zeros ++ tail))
    (h' : w'.chars = optionalSign sign' ++ (zeros' ++ tail)) :
    DigitCount.ofText w.text = DigitCount.ofText w'.text := by
  obtain ⟨hwhole, hparts⟩ := Unsigned.scan?_append_left
    (fun c hc => isDigit_of_isZero (hzeros c hc)) (fun c hc => isDigit_of_isZero (hzeros' c hc))
    (scan?_of_chars_eq hzeros htail h) (scan?_of_chars_eq hzeros' htail h')
  have hwhole' := congrArg Unsigned.whole hparts
  refine ofText_congr ?_ (congrArg Unsigned.fraction hparts).symm ?_
  · change w.unsigned.whole.dropWhile isZero = w'.unsigned.whole.dropWhile isZero
    rw [hwhole, hwhole', List.dropWhile_append_of_pos hzeros, List.dropWhile_append_of_pos hzeros']
  · rw [← exponentValue_unsigned, ← exponentValue_unsigned, hparts]
    rfl

end WrittenReal

end TableRules
