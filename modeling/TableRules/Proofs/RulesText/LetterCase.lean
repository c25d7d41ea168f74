import TableRules.Proofs.RulesText.Spelling
import TableRules.Text.LetterCase

/-!
# Letter case in lexemes

Texts with the same letters (`SameLetters`) differ at most in the case of ASCII letters. A lexeme
that can go on, that is a word, a number or an operator, is a lexeme of its kind in any letter case
(`Lexeme.Written.sameLetters`): words may hold both cases, an exponent starts with either, and all
other characters of numbers and operators are no letters.
-/

namespace TableRules

open Text Lexeme

variable {closed : Prop} {kind : TokenKind} {value cs cs' ds : List Char} {c d : Char}

/-- Texts that are the same but for the case of ASCII letters. -/
def SameLetters (cs cs' : List Char) : Prop := cs.map lowerAsciiChar = cs'.map lowerAsciiChar

instance : Decidable (SameLetters cs cs') :=
  inferInstanceAs (Decidable (cs.map lowerAsciiChar = cs'.map lowerAsciiChar))

/-! ### Characters -/

/-- A character stays when it is made small, or it is a capital letter. -/
private theorem lowerAsciiChar_cases (c : Char) :
    lowerAsciiChar c = c ∨
      0x41 ≤ c.toNat ∧ c.toNat ≤ 0x5A ∧ (lowerAsciiChar c).toNat = c.toNat + 0x20 := by
  have hall : ∀ n ≤ 0x5A, 0x41 ≤ n → (Char.ofNat (n + 0x20)).toNat = n + 0x20 := by decide
  rw [lowerAsciiChar]
  split_ifs with hcapital
  · obtain ⟨hlo, hhi⟩ : 0x41 ≤ c.toNat ∧ c.toNat ≤ 0x5A := by simpa using hcapital
    exact .inr ⟨hlo, hhi, hall _ hhi hlo⟩
  · exact .inl rfl

/-- Where letter case is all that differs, characters that are no letters are the same. -/
private theorem eq_or_isAsciiLetter (h : lowerAsciiChar c = lowerAsciiChar d) :
    d = c ∨ isAsciiLetter c = true ∧ isAsciiLetter d = true := by
  simp only [isAsciiLetter, Bool.or_eq_true, Bool.and_eq_true, decide_eq_true_eq]
  have hnat := congrArg Char.toNat h
  rcases lowerAsciiChar_cases c with hc | ⟨hlo, hhi, hc⟩ <;>
    rcases lowerAsciiChar_cases d with hd | ⟨hlo', hhi', hd⟩
  · exact .inl (hd.symm.trans (h.symm.trans hc))
  · rw [hc, hd] at hnat
    omega
  · rw [hc, hd] at hnat
    omega
  · omega

/-- The letter of an exponent is one of two. -/
private theorem eq_of_lowerAsciiChar_eq_e (h : lowerAsciiChar c = 'e') : c = 'e' ∨ c = 'E' := by
  rcases lowerAsciiChar_cases c with hc | ⟨-, -, hc⟩
  · exact .inl (hc.symm.trans h)
  · rw [h] at hc
    have hcapital : c.toNat = 'E'.toNat := Nat.add_right_cancel hc.symm
    exact .inr (Char.toNat_inj.mp hcapital)

private theorem isAsciiLetter_of_isDigit (h : isDigit c = true) : isAsciiLetter c = false := by
  refine Bool.eq_false_iff.mpr fun hletter => ?_
  have hstart : isWordStart c = true := by rw [isWordStart, hletter, Bool.true_or]
  simp [isDigit_of_isWordStart hstart] at h

theorem isWordChar_of_isWordStart (h : isWordStart c = true) : isWordChar c = true := by
  simp only [isWordStart, isAsciiLetter, Bool.or_eq_true] at h
  simp only [isWordChar, isAsciiAlphanumeric, Bool.or_eq_true]
  rcases h with (h | h) | h <;> simp [h]

private theorem isWordStart_of_same (h : lowerAsciiChar c = lowerAsciiChar d)
    (hc : isWordStart c = true) : isWordStart d = true := by
  rcases eq_or_isAsciiLetter h with rfl | ⟨-, hd⟩
  · exact hc
  · rw [isWordStart, hd, Bool.true_or]

private theorem isWordChar_of_same (h : lowerAsciiChar c = lowerAsciiChar d)
    (hc : isWordChar c = true) : isWordChar d = true := by
  rcases eq_or_isAsciiLetter h with rfl | ⟨-, hd⟩
  · exact hc
  · exact isWordChar_of_isWordStart (by rw [isWordStart, hd, Bool.true_or])

/-! ### Texts -/

namespace SameLetters

theorem append {front front' : List Char} (h : SameLetters front front')
    (h' : SameLetters cs cs') : SameLetters (front ++ cs) (front' ++ cs') := by
  rw [SameLetters, List.map_append, List.map_append, h, h']

/-- A text in another case is taken apart as the text itself. -/
theorem exists_append (h : SameLetters (cs ++ ds) cs') :
    ∃ front tail, cs' = front ++ tail ∧ SameLetters cs front ∧ SameLetters ds tail := by
  rw [SameLetters, List.map_append] at h
  obtain ⟨front, tail, rfl, hfront, htail⟩ := List.map_eq_append_iff.mp h.symm
  exact ⟨front, tail, rfl, hfront.symm, htail.symm⟩

/-- A text without letters has no other case. -/
theorem eq_of_forall (h : SameLetters cs cs') (hcs : ∀ c ∈ cs, isAsciiLetter c = false) :
    cs' = cs := by
  induction cs generalizing cs' with
  | nil => simpa [SameLetters] using h.symm
  | cons c cs ih =>
    obtain ⟨d, ds, rfl, hd, hds⟩ := List.map_eq_cons_iff.mp h.symm
    obtain ⟨hc, hcs⟩ := List.forall_mem_cons.mp hcs
    rw [(eq_or_isAsciiLetter hd.symm).resolve_right (by simp [hc]), ih hds.symm hcs]

/-- What is no letter stands in both texts. -/
theorem mem (h : SameLetters cs cs') (hc : isAsciiLetter c = false) (hmem : c ∈ cs') : c ∈ cs := by
  have hsmall : lowerAsciiChar c ∈ cs.map lowerAsciiChar := h ▸ List.mem_map_of_mem hmem
  obtain ⟨b, hb, hbc⟩ := List.mem_map.mp hsmall
  obtain rfl := (eq_or_isAsciiLetter hbc).resolve_right (by simp [hc])
  exact hb

end SameLetters

/-! ### Lexemes -/

private theorem not_letter_of_isOptionalSign (h : IsOptionalSign cs) :
    ∀ c ∈ cs, isAsciiLetter c = false := by
  rcases h with rfl | rfl | rfl <;> exact forall_of_all (by decide)

private theorem not_letter_of_isMantissa (h : IsMantissa cs) :
    ∀ c ∈ cs, isAsciiLetter c = false := by
  intro c hc
  rcases h.isGrouping c hc with hdigit | hmark
  · exact isAsciiLetter_of_isDigit hdigit
  · exact forall_of_all (p := fun a => isAsciiLetter a = false) (by decide) c hmark

private theorem isExponent_of_sameLetters (h : IsExponent cs) (hsame : SameLetters cs cs') :
    IsExponent cs' := by
  cases h with
  | none =>
    rw [hsame.eq_of_forall (by simp)]
    exact .none
  | @some e sign ds he hsign hds =>
    obtain ⟨e', rest, rfl, he', hrest⟩ := List.map_eq_cons_iff.mp hsame.symm
    have hplain : ∀ c ∈ sign ++ ds, isAsciiLetter c = false :=
      List.forall_mem_append.mpr ⟨not_letter_of_isOptionalSign hsign, fun c hc =>
        isAsciiLetter_of_isDigit (hds.2 c hc)⟩
    rw [SameLetters.eq_of_forall hrest.symm hplain]
    have hsmall : lowerAsciiChar e = 'e' := by rcases he with rfl | rfl <;> decide
    exact .some (eq_of_lowerAsciiChar_eq_e (he'.trans hsmall)) hsign hds

/-- The only letter of a number is the one that starts its exponent. -/
private theorem isNumber_of_sameLetters (h : IsNumber cs) (hsame : SameLetters cs cs') :
    IsNumber cs' := by
  obtain ⟨hsign, hmantissa, hexponent⟩ := h
  obtain ⟨front, exponent', rfl, hfront, hexponent'⟩ := hsame.exists_append
  have hplain := List.forall_mem_append.mpr
    ⟨not_letter_of_isOptionalSign hsign, not_letter_of_isMantissa hmantissa⟩
  obtain rfl := hfront.eq_of_forall hplain
  exact .mk hsign hmantissa (isExponent_of_sameLetters hexponent hexponent')

private theorem isWord_of_sameLetters (h : IsWord cs) (hsame : SameLetters cs cs') :
    IsWord cs' := by
  obtain ⟨hc, hcs⟩ := h
  obtain ⟨d, ds, rfl, hd, hds⟩ := List.map_eq_cons_iff.mp hsame.symm
  refine .mk (isWordStart_of_same hd.symm hc) fun a ha => ?_
  obtain ⟨b, hb, hab⟩ := List.mem_map.mp (hds ▸ List.mem_map_of_mem ha)
  exact isWordChar_of_same hab (hcs b hb)

/-- **A lexeme that can go on** is a lexeme of its kind in any letter case. -/
theorem Lexeme.Written.sameLetters (h : Written closed kind value cs) (hc : Continues closed kind c)
    (hsame : SameLetters cs cs') : Written closed kind cs' cs' := by
  have hmarks : ∀ m ∈ marks, ¬ Continues closed m.2 c := by simp [marks, Continues]
  cases h with
  | punctuation hmark => exact absurd hc (hmarks _ hmark)
  | string => exact absurd hc not_false
  | pattern => exact absurd hc not_false
  | number hw hcomma =>
    exact .number (isNumber_of_sameLetters hw hsame) fun hmem =>
      hcomma (hsame.mem (by decide) hmem)
  | operator hw =>
    have hall : ∀ o ∈ operators, (o.all fun a => decide (isAsciiLetter a = false)) = true := by
      decide
    obtain rfl := hsame.eq_of_forall (forall_of_all (hall _ hw))
    exact .operator hw
  | word hw => exact .word (isWord_of_sameLetters hw hsame)

end TableRules
