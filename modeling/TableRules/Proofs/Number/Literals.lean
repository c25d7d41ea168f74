import TableRules.Number.Literal
import TableRules.Proofs.Text.Numerals

/-!
# Spelling literals

`Unsigned.spell` writes an unsigned real: its whole digits, the others after a point, and an
exponent with a sign. Reading gives the parts back (`Unsigned.scan?_spell`), whatever follows, as
long as that cannot be taken for a part of the literal (`Stops`). With a sign in front this gives
the real (`readReal?_spell`), and two reals, of which the second ends in the imaginary unit, give a
complex number (`readComplex?_spell`).
-/

namespace TableRules

/-- Whether a character may stand in a written number. -/
def IsNumeric (c : Char) : Prop := c.isDigit = true ∨ c ∈ ['.', 'e', '+', '-', 'j']

instance : DecidablePred IsNumeric := fun c =>
  inferInstanceAs (Decidable (c.isDigit = true ∨ c ∈ ['.', 'e', '+', '-', 'j']))

/-- A written sign; a number that is not negative has none. -/
def signChars (negative : Bool) : List Char := if negative then ['-'] else []

namespace Unsigned

variable {u : Unsigned} {rest : List Char}

/-- The characters of an exponent. -/
def exponentChars : Option (Bool × List Char) → List Char
  | none => []
  | some (negative, ds) => 'e' :: (if negative then '-' else '+') :: ds

/-- The characters of an unsigned real. -/
def spell (u : Unsigned) : List Char :=
  u.whole ++ (if u.fraction = [] then [] else '.' :: u.fraction) ++ exponentChars u.exponent

/-- Whether an unsigned real consists of ASCII digits, at least one before the point and, where
there is an exponent, at least one in the exponent. -/
structure IsPlain (u : Unsigned) : Prop where
  whole_ne_nil : u.whole ≠ []
  whole : ∀ c ∈ u.whole, c.isDigit = true
  fraction : ∀ c ∈ u.fraction, c.isDigit = true
  exponent : ∀ negative ds, u.exponent = some (negative, ds) →
    ds ≠ [] ∧ ∀ c ∈ ds, c.isDigit = true

/-- Whether a text cannot go on with a literal in front of it. -/
def Stops (rest : List Char) : Prop :=
  ∀ c ∈ rest.head?, Text.isDigit c = false ∧ c ≠ '.' ∧ c ≠ 'e' ∧ c ≠ 'E'

/-- Digits in front of a character that is none are taken off together. -/
theorem digits_append {ds : List Char} (hds : ∀ c ∈ ds, Text.isDigit c = true)
    (hrest : ∀ c ∈ rest.head?, Text.isDigit c = false) :
    digits (ds ++ rest) = ds ∧ afterDigits (ds ++ rest) = rest := by
  have hnone : rest.takeWhile Text.isDigit = [] ∧ rest.dropWhile Text.isDigit = rest := by
    cases rest with
    | nil => exact ⟨rfl, rfl⟩
    | cons c rest => simp [hrest c rfl]
  rw [digits, afterDigits, List.takeWhile_append_of_pos hds, List.dropWhile_append_of_pos hds,
    hnone.1, hnone.2, List.append_nil]
  exact ⟨rfl, rfl⟩

/-- Digits are read in front of what is neither a digit nor a point, together with the exponent that
is read there. -/
theorem scan?_digits {ds after : List Char} {e : Option (Bool × List Char)} (hne : ds ≠ [])
    (hds : ∀ c ∈ ds, Text.isDigit c = true)
    (hhead : ∀ c ∈ after.head?, Text.isDigit c = false ∧ c ≠ '.')
    (hexponent : scanExponent after = (e, rest)) :
    scan? (ds ++ after) = some (⟨ds, [], e⟩, rest) := by
  obtain ⟨hdigits, hafter⟩ := digits_append hds fun c hc => (hhead c hc).1
  have hempty : ds.isEmpty = false := by simpa using hne
  rw [scan?, hdigits, hafter]
  dsimp only
  split
  · exact absurd rfl (hhead '.' rfl).2
  · rw [hempty, hexponent]
    rfl

/-- Digits around a point are read, of which those on one side may be missing. -/
theorem scan?_point {ds fs after : List Char} {e : Option (Bool × List Char)}
    (hne : ds ≠ [] ∨ fs ≠ []) (hds : ∀ c ∈ ds, Text.isDigit c = true)
    (hfs : ∀ c ∈ fs, Text.isDigit c = true) (hhead : ∀ c ∈ after.head?, Text.isDigit c = false)
    (hexponent : scanExponent after = (e, rest)) :
    scan? (ds ++ '.' :: (fs ++ after)) = some (⟨ds, fs, e⟩, rest) := by
  have hpoint : ∀ c ∈ ('.' :: (fs ++ after)).head?, Text.isDigit c = false := by
    intro c hc
    obtain rfl : '.' = c := Option.some.inj hc
    decide
  obtain ⟨hdigits, hafter⟩ := digits_append hds hpoint
  obtain ⟨hdigits', hafter'⟩ := digits_append hfs hhead
  have hempty : (ds.isEmpty && fs.isEmpty) = false := by simpa [← not_or, imp_iff_not_or] using hne
  rw [scan?, hdigits, hafter]
  simp only [hdigits', hafter', hempty, hexponent, Bool.false_eq_true, if_false]

/-- Digits, with a point and digits where there is a fraction, are read as such in front of what is
neither a digit nor a point, together with the exponent that is read there. -/
theorem scan?_append {whole fraction after : List Char} {e : Option (Bool × List Char)}
    (hne : whole ≠ []) (hwhole : ∀ c ∈ whole, Text.isDigit c = true)
    (hfraction : ∀ c ∈ fraction, Text.isDigit c = true)
    (hhead : ∀ c ∈ after.head?, Text.isDigit c = false ∧ c ≠ '.')
    (hexponent : scanExponent after = (e, rest)) :
    scan? (whole ++ ((if fraction = [] then [] else '.' :: fraction) ++ after))
      = some (⟨whole, fraction, e⟩, rest) := by
  split_ifs with hnil
  · subst hnil
    exact scan?_digits hne hwhole hhead hexponent
  · exact scan?_point (.inl hne) hwhole hfraction (fun c hc => (hhead c hc).1) hexponent

private theorem scanExponent_exponentChars (h : u.IsPlain) (hrest : Stops rest) :
    scanExponent (exponentChars u.exponent ++ rest) = (u.exponent, rest) := by
  cases hexp : u.exponent with
  | none =>
    cases rest with
    | nil => rfl
    | cons c rest =>
      obtain ⟨-, -, he, hE⟩ := hrest c rfl
      simp [exponentChars, scanExponent, he, hE]
  | some e =>
    obtain ⟨negative, ds⟩ := e
    obtain ⟨hne, hds⟩ := h.exponent negative ds hexp
    obtain ⟨hdigits, hafter⟩ := digits_append
      (fun c hc => Text.isDigit_of_ascii_isDigit (hds c hc)) fun c hc => (hrest c hc).1
    cases negative <;> simp [exponentChars, scanExponent, scanSign, hdigits, hafter, hne]

/-- Neither a digit nor a point stands after the digits of a spelled literal. -/
private theorem head_exponentChars (e : Option (Bool × List Char)) (hrest : Stops rest) :
    ∀ c ∈ (exponentChars e ++ rest).head?, Text.isDigit c = false ∧ c ≠ '.' := by
  rcases e with _ | ⟨negative, ds⟩
  · exact fun c hc => ⟨(hrest c hc).1, (hrest c hc).2.1⟩
  · rintro c hc
    obtain rfl : 'e' = c := Option.some.inj hc
    exact ⟨by decide, by decide⟩

/-- A spelled literal is read with its parts. -/
theorem scan?_spell (h : u.IsPlain) (hrest : Stops rest) :
    scan? (u.spell ++ rest) = some (u, rest) := by
  rw [spell, List.append_assoc, List.append_assoc]
  exact scan?_append h.whole_ne_nil (fun c hc => Text.isDigit_of_ascii_isDigit (h.whole c hc))
    (fun c hc => Text.isDigit_of_ascii_isDigit (h.fraction c hc))
    (head_exponentChars u.exponent hrest) (scanExponent_exponentChars h hrest)

/-- A spelled literal starts with a digit. -/
theorem exists_spell_eq_cons (h : u.IsPlain) : ∃ c cs, u.spell = c :: cs ∧ c.isDigit = true := by
  cases hwhole : u.whole with
  | nil => exact absurd hwhole h.whole_ne_nil
  | cons c cs =>
    exact ⟨c, _, by rw [spell, hwhole]; rfl, h.whole c (by simp [hwhole])⟩

theorem isNumeric_of_mem_spell (h : u.IsPlain) {c : Char} (hc : c ∈ u.spell) : IsNumeric c := by
  rw [spell, List.mem_append, List.mem_append] at hc
  rcases hc with (hc | hc) | hc
  · exact .inl (h.whole c hc)
  · split at hc
    · simp at hc
    · rcases List.mem_cons.mp hc with rfl | hc
      · exact .inr (by decide)
      · exact .inl (h.fraction c hc)
  · cases hexp : u.exponent with
    | none => simp [exponentChars, hexp] at hc
    | some e =>
      obtain ⟨negative, ds⟩ := e
      rw [hexp, exponentChars] at hc
      rcases List.mem_cons.mp hc with rfl | hc
      · exact .inr (by decide)
      · rcases List.mem_cons.mp hc with rfl | hc
        · exact .inr (by cases negative <;> decide)
        · exact .inl ((h.exponent negative ds hexp).2 c hc)

end Unsigned

/-! ### Signs -/

open Unsigned

variable {u v : Unsigned} {rest : List Char}

theorem ne_sign_of_isDigit {c : Char} (hc : Text.isDigit c = true) : c ≠ '+' ∧ c ≠ '-' :=
  ⟨fun h => absurd (h ▸ hc) (by decide), fun h => absurd (h ▸ hc) (by decide)⟩

/-- A text that starts with no sign is left as it is. -/
theorem scanSign_eq {cs : List Char} (hcs : ∀ c ∈ cs.head?, c ≠ '+' ∧ c ≠ '-') :
    scanSign cs = (false, cs) := by
  unfold scanSign
  split <;> simp_all

/-- The sign in front of a literal is taken off. -/
theorem scanSign_spell (h : u.IsPlain) (negative : Bool) (rest : List Char) :
    scanSign (signChars negative ++ u.spell ++ rest) = (negative, u.spell ++ rest) := by
  cases negative with
  | true => rfl
  | false =>
    obtain ⟨c, cs, hspell, hc⟩ := exists_spell_eq_cons h
    rw [hspell]
    refine scanSign_eq fun a ha => ?_
    obtain rfl : c = a := Option.some.inj ha
    exact ne_sign_of_isDigit (Text.isDigit_of_ascii_isDigit hc)

theorem isNumeric_of_mem_sign_spell (h : u.IsPlain) {negative : Bool} {c : Char}
    (hc : c ∈ signChars negative ++ u.spell) : IsNumeric c := by
  rcases List.mem_append.mp hc with hc | hc
  · cases negative with
    | true => exact List.mem_singleton.mp hc ▸ .inr (by decide)
    | false => simp [signChars] at hc
  · exact isNumeric_of_mem_spell h hc

/-- **A spelled real is read with its sign and its parts.** -/
theorem readReal?_spell (h : u.IsPlain) (negative : Bool) :
    readReal? (signChars negative ++ u.spell) = some (negative, u) := by
  have hstops : Stops [] := by simp [Stops]
  rw [readReal?, ← List.append_nil (signChars negative ++ u.spell), scanSign_spell h]
  simp only [scan?_spell h hstops]

/-- A spelled number with the imaginary unit is read as an imaginary part. -/
theorem readImaginary?_spell (h : u.IsPlain) (negative : Bool) :
    readImaginary? negative (u.spell ++ ['j']) = some (u.toDouble negative) := by
  have hstops : Stops ['j'] := by
    rintro c hc
    obtain rfl : 'j' = c := Option.some.inj hc
    decide
  unfold readImaginary?
  rw [scan?_spell h hstops]
  rfl

/-- A spelled imaginary number is read as a complex number. -/
theorem readComplex?_spell_imaginary (h : u.IsPlain) (negative : Bool) :
    readComplex? (signChars negative ++ u.spell ++ ['j'])
      = some (Double.zero false, u.toDouble negative) := by
  rw [readComplex?, scanSign_spell h]
  simp only [readImaginary?_spell h]

/-- **Two spelled reals**, the second with a sign and the imaginary unit, are read as a complex
number. -/
theorem readComplex?_spell (h : u.IsPlain) (h' : v.IsPlain) (negative negative' : Bool) :
    readComplex? (signChars negative ++ u.spell ++
        ((if negative' then '-' else '+') :: (v.spell ++ ['j'])))
      = some (u.toDouble negative, v.toDouble negative') := by
  have hstops : Stops ((if negative' then '-' else '+') :: (v.spell ++ ['j'])) := by
    rintro c hc
    cases negative' <;> obtain rfl := Option.some.inj hc <;> decide
  -- the first real is not an imaginary part, since the second one follows
  have hreal : readImaginary? negative
      (u.spell ++ ((if negative' then '-' else '+') :: (v.spell ++ ['j']))) = none := by
    unfold readImaginary?
    rw [scan?_spell h hstops]
    split
    · rename_i c heq
      simp at heq
    · rfl
    · contradiction
  rw [readComplex?, scanSign_spell h]
  simp only [hreal, scan?_spell h hstops]
  cases negative' <;> simp [readImaginary?_spell h']

end TableRules
