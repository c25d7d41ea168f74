import Mathlib.Data.List.Induction
import Mathlib.Tactic.Ring
import TableRules.Text.Digit

/-!
# Numerals

A **numeral** is a list of ASCII digits. The value of a numeral of a given length determines it
(`eq_of_digitsValue_eq`), and `Text.padded` writes the numeral of a given width and value
(`eq_padded_iff`), so reading and writing numerals of a fixed width are inverse to each other.

Digits of other scripts have the same values as their ASCII counterparts (`asciiDigit`), so
exchanging them never changes the value of a text (`digitsValue_map_asciiDigit`).
-/

namespace TableRules.Text

/-! ### Single digits -/

/-- A decimal digit of any script as an ASCII digit; other characters stay. -/
def asciiDigit (c : Char) : Char :=
  match digitValue? c with
  | some d => digitChar d
  | none => c

theorem digitValue?_digitChar {d : Nat} (h : d < 10) : digitValue? (digitChar d) = some d := by
  have hall : ∀ d < 10, digitValue? (digitChar d) = some d := by decide
  exact hall d h

theorem isDigit_digitChar {d : Nat} (h : d < 10) : (digitChar d).isDigit = true := by
  have hall : ∀ d < 10, (digitChar d).isDigit = true := by decide
  exact hall d h

/-- The value of an ASCII digit. -/
theorem digitValue?_of_isDigit {c : Char} (h : c.isDigit = true) :
    digitValue? c = some (c.toNat - 0x30) := by
  obtain ⟨hlo, hhi⟩ : 0x30 ≤ c.toNat ∧ c.toNat ≤ 0x39 := Char.isDigit_iff_toNat.mp h
  have hascii : c.toNat < 0x80 := by omega
  simp [digitValue?, hascii, hlo, hhi]

theorem asciiDigit_of_digitValue? {c : Char} {d : Nat} (h : digitValue? c = some d) :
    asciiDigit c = digitChar d := by
  rw [asciiDigit, h]

theorem asciiDigit_of_not_isDigit {c : Char} (h : isDigit c = false) : asciiDigit c = c := by
  have hd : digitValue? c = none := by simpa [isDigit] using h
  rw [asciiDigit, hd]

/-- A digit and its ASCII counterpart have the same value. -/
theorem digitValue?_asciiDigit (c : Char) : digitValue? (asciiDigit c) = digitValue? c := by
  cases hd : digitValue? c with
  | none => rw [asciiDigit, hd, hd]
  | some d =>
    rw [asciiDigit_of_digitValue? hd, digitValue?_digitChar (digitValue?_lt hd)]

theorem isDigit_asciiDigit (c : Char) : isDigit (asciiDigit c) = isDigit c := by
  rw [isDigit, digitValue?_asciiDigit, isDigit]

theorem asciiDigit_asciiDigit (c : Char) : asciiDigit (asciiDigit c) = asciiDigit c := by
  cases hd : digitValue? c with
  | none => rw [asciiDigit_of_not_isDigit (by rw [isDigit_asciiDigit, isDigit, hd]; rfl)]
  | some d =>
    rw [asciiDigit_of_digitValue? (digitValue?_asciiDigit c ▸ hd), asciiDigit_of_digitValue? hd]

/-- Nothing is exchanged in a text without digits. -/
theorem map_asciiDigit_of_noDigit {cs : List Char} (h : ∀ c ∈ cs, isDigit c = false) :
    cs.map asciiDigit = cs :=
  (List.map_congr_left fun c hc => asciiDigit_of_not_isDigit (h c hc)).trans (List.map_id cs)

/-- The counterpart of a digit is an ASCII digit. -/
theorem asciiDigit_isDigit {c : Char} (h : isDigit c = true) : (asciiDigit c).isDigit = true := by
  obtain ⟨d, hd⟩ := Option.isSome_iff_exists.mp h
  rw [asciiDigit_of_digitValue? hd]
  exact isDigit_digitChar (digitValue?_lt hd)

/-- An ASCII digit is a decimal digit. -/
theorem isDigit_of_ascii_isDigit {c : Char} (h : c.isDigit = true) : isDigit c = true := by
  rw [isDigit, digitValue?_of_isDigit h]
  rfl

/-! ### Values of numerals -/

theorem digitsValue_append_singleton (cs : List Char) (c : Char) :
    digitsValue (cs ++ [c]) = 10 * digitsValue cs + (digitValue? c).getD 0 := by
  simp [digitsValue, List.foldl_append]

/-- Digits in front count for as many powers of ten as digits follow. -/
theorem digitsValue_append (cs ds : List Char) :
    digitsValue (cs ++ ds) = digitsValue cs * 10 ^ ds.length + digitsValue ds := by
  induction ds using List.reverseRecOn with
  | nil => simp [digitsValue]
  | append_singleton ds d ih =>
    rw [← List.append_assoc, digitsValue_append_singleton, ih, digitsValue_append_singleton,
      List.length_append, List.length_singleton]
    ring

theorem digitsValue_replicate_zero (k : Nat) : digitsValue (List.replicate k '0') = 0 := by
  induction k with
  | zero => rfl
  | succ k ih => exact ih

/-- The value of a text stays when its digits are exchanged for ASCII digits. -/
theorem digitsValue_map_asciiDigit (cs : List Char) :
    digitsValue (cs.map asciiDigit) = digitsValue cs := by
  simp only [digitsValue, List.foldl_map, digitValue?_asciiDigit]

theorem digitsValue_lt (cs : List Char) : digitsValue cs < 10 ^ cs.length := by
  induction cs using List.reverseRecOn with
  | nil => simp [digitsValue]
  | append_singleton cs c ih =>
    have hd : (digitValue? c).getD 0 < 10 := by
      cases h : digitValue? c with
      | none => simp
      | some d => exact digitValue?_lt h
    rw [digitsValue_append_singleton, List.length_append, List.length_singleton, pow_succ]
    omega

/-- Numerals of the same length and value are the same. -/
theorem eq_of_digitsValue_eq {cs ds : List Char} (hcs : ∀ c ∈ cs, c.isDigit = true)
    (hds : ∀ c ∈ ds, c.isDigit = true) (hlen : cs.length = ds.length)
    (hval : digitsValue cs = digitsValue ds) : cs = ds := by
  induction cs using List.reverseRecOn generalizing ds with
  | nil => exact (List.length_eq_zero_iff.mp hlen.symm).symm
  | append_singleton cs c ih =>
    cases ds using List.reverseRecOn with
    | nil => simp at hlen
    | append_singleton ds d =>
      have hc : 0x30 ≤ c.toNat ∧ c.toNat ≤ 0x39 := Char.isDigit_iff_toNat.mp (hcs c (by simp))
      have hd : 0x30 ≤ d.toNat ∧ d.toNat ≤ 0x39 := Char.isDigit_iff_toNat.mp (hds d (by simp))
      simp only [digitsValue_append_singleton, digitValue?_of_isDigit (hcs c (by simp)),
        digitValue?_of_isDigit (hds d (by simp)), Option.getD_some] at hval
      have hinit : cs = ds :=
        ih (fun a ha => hcs a (by simp [ha])) (fun a ha => hds a (by simp [ha]))
          (by simpa using hlen) (by omega)
      have hlast : c = d := Char.toNat_inj.mp (by omega)
      rw [hinit, hlast]

/-! ### Numerals of a fixed width -/

/-- The digits of a number spell it. -/
theorem digitsValue_toDigits (n : Nat) : digitsValue (Nat.toDigits 10 n) = n := by
  -- on ASCII digits the value is the one that digits of numbers are read back with
  have hcs : ∀ cs : List Char, (∀ c ∈ cs, c.isDigit = true) →
      digitsValue cs = Nat.ofDigitChars 10 cs 0 := by
    intro cs
    induction cs using List.reverseRecOn with
    | nil => simp [digitsValue]
    | append_singleton cs c ih =>
      intro h
      rw [digitsValue_append_singleton, ih fun a ha => h a (by simp [ha]), Nat.ofDigitChars_append,
        Nat.ofDigitChars_cons, Nat.ofDigitChars_nil, digitValue?_of_isDigit (h c (by simp))]
      rfl
  rw [hcs _ fun c hc => Nat.isDigit_of_mem_toDigits (by decide) (by decide) hc,
    Nat.ofDigitChars_ten_toDigits]

theorem toList_padded (width n : Nat) :
    (padded width n).toList
      = List.replicate (width - (Nat.toDigits 10 n).length) '0' ++ Nat.toDigits 10 n := by
  rw [padded, String.toList_ofList]

/-- A padded number is written in ASCII digits. -/
theorem isDigit_of_mem_padded {width n : Nat} {c : Char} (h : c ∈ (padded width n).toList) :
    c.isDigit = true := by
  rw [toList_padded, List.mem_append] at h
  rcases h with h | h
  · rw [List.eq_of_mem_replicate h]
    decide
  · exact Nat.isDigit_of_mem_toDigits (by decide) (by decide) h

theorem padded_ne_nil (width n : Nat) : (padded width n).toList ≠ [] := by
  rw [toList_padded]
  exact List.append_ne_nil_of_right_ne_nil _ (List.ne_nil_of_length_pos Nat.length_toDigits_pos)

theorem length_padded {width n : Nat} (hw : 0 < width) (h : n < 10 ^ width) :
    (padded width n).toList.length = width := by
  have hlen := (Nat.length_toDigits_le_iff (by decide) hw).mpr h
  rw [toList_padded, List.length_append, List.length_replicate]
  omega

theorem digitsValue_padded (width n : Nat) : digitsValue (padded width n).toList = n := by
  rw [toList_padded, digitsValue_append, digitsValue_replicate_zero, digitsValue_toDigits]
  ring

/-- A text is a number in a fixed width exactly when it is a numeral of that width and value. -/
theorem eq_padded_iff {cs : List Char} {width n : Nat} (hw : 0 < width) (h : n < 10 ^ width) :
    cs = (padded width n).toList ↔
      (∀ c ∈ cs, c.isDigit = true) ∧ cs.length = width ∧ digitsValue cs = n := by
  constructor
  · rintro rfl
    exact ⟨fun c hc => isDigit_of_mem_padded hc, length_padded hw h, digitsValue_padded width n⟩
  · rintro ⟨hcs, hlen, hval⟩
    refine eq_of_digitsValue_eq hcs (fun c hc => isDigit_of_mem_padded hc) ?_ ?_
    · rw [hlen, length_padded hw h]
    · rw [hval, digitsValue_padded]

end TableRules.Text
