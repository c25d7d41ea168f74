import Mathlib.Data.List.Basic
import TableRules.Proofs.Number.Literals
import TableRules.Proofs.Text.Trimming
import TableRules.Value.Coercion

/-!
# Numbers in groups of digits

A `GroupedNumber` is a number as people write it: an optional sign, digits in groups of three behind
a first group of any length, a fraction and an exponent, in digits of any script. Under settings it
is written with the separator before each further group and with their decimal mark (`text`).

Normalization leaves the number without its separators and with a point (`normalizeChars_text`), so
that it is read as its value, whatever the separator is (`parseNumber_text`).
-/

namespace TableRules

/-- The characters of a sign that may be left out; `true` stands for a minus. -/
def optionalSign : Option Bool → List Char
  | none => []
  | some negative => [if negative then '-' else '+']

/-- A sign is taken off what does not start with another one. -/
theorem scanSign_optionalSign (sign : Option Bool) {cs : List Char}
    (hcs : ∀ c ∈ cs.head?, c ≠ '+' ∧ c ≠ '-') :
    scanSign (optionalSign sign ++ cs) = (sign.getD false, cs) := by
  rcases sign with _ | _ | _
  · exact scanSign_eq hcs
  · rfl
  · rfl

/-- A complete exponent is taken off in front of what is no digit. -/
theorem Unsigned.scanExponent_append {letter : Char} (sign : Option Bool) {ds rest : List Char}
    (hletter : letter = 'e' ∨ letter = 'E') (hne : ds ≠ [])
    (hds : ∀ c ∈ ds, Text.isDigit c = true) (hrest : ∀ c ∈ rest.head?, Text.isDigit c = false) :
    scanExponent (letter :: (optionalSign sign ++ ds) ++ rest)
      = (some (sign.getD false, ds), rest) := by
  have hhead : ∀ c ∈ (ds ++ rest).head?, c ≠ '+' ∧ c ≠ '-' := by
    obtain ⟨d, ds, rfl⟩ := List.exists_cons_of_ne_nil hne
    exact fun c hc => Option.some.inj hc ▸ ne_sign_of_isDigit (hds d List.mem_cons_self)
  obtain ⟨hdigits, hafter⟩ := digits_append hds hrest
  have hexponent : (letter == 'e' || letter == 'E') = true := by simpa using hletter
  rw [List.cons_append, List.append_assoc, scanExponent, if_pos hexponent,
    scanSign_optionalSign sign hhead]
  simp [hdigits, hafter, hne]

/-- A number with its digits in groups. -/
structure GroupedNumber where
  sign : Option Bool
  first : List Char
  groups : List (List Char)
  fraction : List Char
  exponent : Option (Char × Option Bool × List Char)
  first_ne_nil : first ≠ []
  isDigit_first : ∀ c ∈ first, Text.isDigit c = true
  isDigit_group : ∀ group ∈ groups, group.length = 3 ∧ ∀ c ∈ group, Text.isDigit c = true
  isDigit_fraction : ∀ c ∈ fraction, Text.isDigit c = true
  isDigit_exponent : ∀ letter sign ds, exponent = some (letter, sign, ds) →
    (letter = 'e' ∨ letter = 'E') ∧ ds ≠ [] ∧ ∀ c ∈ ds, Text.isDigit c = true

namespace GroupedNumber

variable (g : GroupedNumber)

/-- The characters of the fraction, with a given decimal mark. -/
def fractionChars (mark : Char) : List Char :=
  if g.fraction = [] then [] else mark :: g.fraction

/-- The characters of the exponent. -/
def exponentChars : List Char :=
  match g.exponent with
  | none => []
  | some (letter, sign, ds) => letter :: (optionalSign sign ++ ds)

/-- The characters between sign and exponent, with given characters before each further group and a
given decimal mark. -/
def mantissaChars (between : List Char) (mark : Char) : List Char :=
  g.first ++ (g.groups.flatMap (between ++ ·) ++ g.fractionChars mark)

/-- The characters of the number. -/
def chars (between : List Char) (mark : Char) : List Char :=
  optionalSign g.sign ++ (g.mantissaChars between mark ++ g.exponentChars)

/-- The number as it is written under settings. -/
def text (s : Settings) : String :=
  String.ofList (g.chars (s.separator.map Separator.char).toList s.decimalMark)

/-- The parts of the number, without its sign. -/
def unsigned : Unsigned where
  whole := g.first ++ g.groups.flatten
  fraction := g.fraction
  exponent := g.exponent.map fun (_, sign, ds) => (sign.getD false, ds)

/-- A number without fraction and exponent whose digits are all in one group. -/
def ofDigits (sign : Option Bool) (ds : List Char) (hne : ds ≠ [])
    (hds : ∀ c ∈ ds, Text.isDigit c = true) : GroupedNumber where
  sign := sign
  first := ds
  groups := []
  fraction := []
  exponent := none
  first_ne_nil := hne
  isDigit_first := hds
  isDigit_group := by simp
  isDigit_fraction := by simp
  isDigit_exponent := by simp

/-- The number as a double. -/
def value : Double := g.unsigned.toDouble (g.sign.getD false)

/-! ### Characters -/

/-- A character that is neither a separator nor a decimal mark. -/
def IsNeutral (c : Char) : Prop := Text.isDigit c = true ∨ c ∈ ['+', '-', 'e', 'E']

variable {g} {s : Settings} {between : List Char} {c mark : Char}

theorem isNeutral_of_mem_optionalSign {sign : Option Bool} (h : c ∈ optionalSign sign) :
    IsNeutral c := by
  rcases sign with _ | _ | _
  · simp [optionalSign] at h
  · exact List.mem_singleton.mp h ▸ .inr (by decide)
  · exact List.mem_singleton.mp h ▸ .inr (by decide)

theorem isNeutral_of_mem_group {group : List Char} (hgroup : group ∈ g.groups) (h : c ∈ group) :
    IsNeutral c :=
  .inl ((g.isDigit_group group hgroup).2 c h)

theorem isNeutral_of_mem_exponentChars (h : c ∈ g.exponentChars) : IsNeutral c := by
  unfold exponentChars at h
  split at h
  · simp at h
  · rename_i letter sign ds hexponent
    obtain ⟨hletter, -, hds⟩ := g.isDigit_exponent _ _ _ hexponent
    rcases List.mem_cons.mp h with rfl | h
    · exact .inr (by rcases hletter with rfl | rfl <;> decide)
    · exact (List.mem_append.mp h).elim isNeutral_of_mem_optionalSign fun h => .inl (hds c h)

/-- Of the characters of a fraction only the decimal mark is no digit. -/
theorem mem_fractionChars (h : c ∈ g.fractionChars mark) : Text.isDigit c = true ∨ c = mark := by
  unfold fractionChars at h
  split_ifs at h with hnil
  · simp at h
  · exact (List.mem_cons.mp h).symm.imp_left (g.isDigit_fraction c)

/-- The characters of a mantissa are digits but for those between its groups and the mark. -/
theorem mem_mantissaChars (h : c ∈ g.mantissaChars between mark) :
    Text.isDigit c = true ∨ c ∈ between ∨ c = mark := by
  rcases List.mem_append.mp h with h | h
  · exact .inl (g.isDigit_first c h)
  rcases List.mem_append.mp h with h | h
  · obtain ⟨group, hgroup, h⟩ := List.mem_flatMap.mp h
    exact (List.mem_append.mp h).symm.imp ((g.isDigit_group group hgroup).2 c) .inl
  · exact (mem_fractionChars h).imp_right .inr

/-- The characters of a number are neutral but for those between its groups and the mark. -/
theorem mem_chars (h : c ∈ g.chars between mark) : IsNeutral c ∨ c ∈ between ∨ c = mark := by
  rcases List.mem_append.mp h with h | h
  · exact .inl (isNeutral_of_mem_optionalSign h)
  rcases List.mem_append.mp h with h | h
  · exact (mem_mantissaChars h).imp_left .inl
  · exact .inl (isNeutral_of_mem_exponentChars h)

private theorem not_isNeutral (h : c ∈ ['.', ',', '_', '\x27', ' ']) : ¬ IsNeutral c := by
  have hall : ∀ c ∈ ['.', ',', '_', '\x27', ' '],
      ¬ (Text.isDigit c = true ∨ c ∈ ['+', '-', 'e', 'E']) := Text.forall_of_all (by decide)
  exact hall c h

/-! ### Normalization -/

/-- Without the separator the groups stand next to each other. -/
private theorem filter_chars (hneutral : ¬ IsNeutral c) (hmark : c ≠ mark) :
    (g.chars [c] mark).filter (· != c) = g.chars [] mark := by
  have hkeep : ∀ cs : List Char, (∀ a ∈ cs, IsNeutral a ∨ a = mark) → cs.filter (· != c) = cs := by
    intro cs hcs
    refine List.filter_eq_self.mpr fun a ha => bne_iff_ne.mpr ?_
    rintro rfl
    exact (hcs a ha).elim hneutral hmark
  have hgroups : (g.groups.flatMap ([c] ++ ·)).filter (· != c) = g.groups.flatMap ([] ++ ·) := by
    rw [List.filter_flatMap]
    refine List.flatMap_congr fun group hgroup => ?_
    rw [List.filter_append, hkeep group fun a ha => .inl (isNeutral_of_mem_group hgroup ha)]
    simp
  simp only [chars, mantissaChars, List.filter_append, hgroups]
  rw [hkeep _ fun a ha => .inl (isNeutral_of_mem_optionalSign ha),
    hkeep g.first fun a ha => .inl (.inl (g.isDigit_first a ha)),
    hkeep _ fun a ha => (mem_fractionChars ha).imp_left .inl,
    hkeep _ fun a ha => .inl (isNeutral_of_mem_exponentChars ha)]

/-- A comma as the decimal mark is exchanged for a point. -/
private theorem map_chars :
    (g.chars [] ',').map (fun a => if a == ',' then '.' else a) = g.chars [] '.' := by
  have hkeep : ∀ cs : List Char, (∀ a ∈ cs, IsNeutral a) →
      cs.map (fun a => if a == ',' then '.' else a) = cs := by
    intro cs hcs
    refine (List.map_congr_left fun a ha => ?_).trans (List.map_id cs)
    have hne : a ≠ ',' := fun hac => not_isNeutral (by decide) (hac ▸ hcs a ha)
    simp [hne]
  have hgroups : ∀ a ∈ g.groups.flatMap ([] ++ ·), IsNeutral a := by
    intro a ha
    obtain ⟨group, hgroup, ha⟩ := List.mem_flatMap.mp ha
    exact isNeutral_of_mem_group hgroup ha
  have hfraction : (g.fractionChars ',').map (fun a => if a == ',' then '.' else a)
      = g.fractionChars '.' := by
    unfold fractionChars
    split_ifs
    · rfl
    · rw [List.map_cons, hkeep _ fun a ha => .inl (g.isDigit_fraction a ha)]
      rfl
  simp only [chars, mantissaChars, List.map_append, hfraction]
  rw [hkeep _ fun a ha => isNeutral_of_mem_optionalSign ha,
    hkeep g.first fun a ha => .inl (g.isDigit_first a ha), hkeep _ hgroups,
    hkeep _ fun a ha => isNeutral_of_mem_exponentChars ha]

/-- **Normalization** takes the separators out of a number and writes a point. -/
theorem normalizeChars_text (g : GroupedNumber) (s : Settings) :
    normalizeChars s (g.text s).toList = g.chars [] '.' := by
  rw [text, String.toList_ofList, normalizeChars]
  unfold Settings.decimalMark
  cases hsep : s.separator with
  | none => rfl
  | some separator =>
    have hneutral : ¬ IsNeutral separator.char := not_isNeutral (by cases separator <;> decide)
    cases separator with
    | point =>
      have hpoint := filter_chars (g := g) hneutral (by decide : '.' ≠ ',')
      simp only [Separator.char, Option.map_some, Option.toList_some, if_true] at hpoint ⊢
      rw [hpoint]
      exact map_chars
    | _ => exact filter_chars hneutral (by decide)

/-! ### The ends of a number -/

/-- A text ends with a digit. -/
def EndsInDigit (cs : List Char) : Prop := ∃ front d, cs = front ++ [d] ∧ Text.isDigit d = true

private theorem endsInDigit_append {front ds : List Char} (hne : ds ≠ [])
    (hds : ∀ c ∈ ds, Text.isDigit c = true) : EndsInDigit (front ++ ds) :=
  ⟨front ++ ds.dropLast, ds.getLast hne, by rw [List.append_assoc, List.dropLast_append_getLast],
    hds _ (List.getLast_mem hne)⟩

/-- The groups, the fraction and the exponent end with a digit wherever there are any. -/
private theorem endsInDigit_append_flatMap {front : List Char} (h : EndsInDigit front) :
    EndsInDigit (front ++ g.groups.flatMap (between ++ ·)) := by
  rcases List.eq_nil_or_concat' g.groups with hnil | ⟨groups, group, hgroups⟩
  · simpa [hnil] using h
  · obtain ⟨hlen, hdigits⟩ := g.isDigit_group group (by simp [hgroups])
    have hne : group ≠ [] := List.ne_nil_of_length_pos (by omega)
    have hends : EndsInDigit (front ++ groups.flatMap (between ++ ·) ++ between ++ group) :=
      endsInDigit_append hne hdigits
    simpa [hgroups] using hends

theorem endsInDigit_mantissaChars (g : GroupedNumber) (between : List Char) (mark : Char) :
    EndsInDigit (g.mantissaChars between mark) := by
  have hfirst : EndsInDigit ([] ++ g.first) := endsInDigit_append g.first_ne_nil g.isDigit_first
  have hgroups : EndsInDigit ([] ++ g.first ++ g.groups.flatMap (between ++ ·)) :=
    endsInDigit_append_flatMap hfirst
  rw [List.nil_append] at hgroups
  rw [mantissaChars, fractionChars, ← List.append_assoc]
  split_ifs with hnil
  · rwa [List.append_nil]
  · rw [← List.singleton_append, ← List.append_assoc]
    exact endsInDigit_append hnil g.isDigit_fraction

private theorem endsInDigit_chars (g : GroupedNumber) (between : List Char) (mark : Char) :
    EndsInDigit (g.chars between mark) := by
  obtain ⟨front, d, hmantissa, hd⟩ := g.endsInDigit_mantissaChars between mark
  rw [chars, exponentChars]
  split
  · exact ⟨optionalSign g.sign ++ front, d, by simp [hmantissa], hd⟩
  · rename_i letter sign ds hexponent
    obtain ⟨-, hne, hds⟩ := g.isDigit_exponent _ _ _ hexponent
    rw [← List.cons_append, ← List.append_assoc, ← List.append_assoc]
    exact endsInDigit_append hne hds

theorem isBlank_of_isNeutral (h : IsNeutral c) : Text.isBlank c = false := by
  rcases h with h | h
  · exact Bool.eq_false_iff.mpr fun hblank => by simp [Text.isDigit_of_isBlank hblank] at h
  · have hall : ∀ c ∈ ['+', '-', 'e', 'E'], Text.isBlank c = false :=
      Text.forall_of_all (by decide)
    exact hall c h

/-- A number starts with a sign or a digit and ends with a digit, so that it is trimmed. -/
theorem trimChars_text (g : GroupedNumber) (s : Settings) :
    Text.trimChars (g.text s).toList = (g.text s).toList := by
  rw [text, String.toList_ofList, Text.trimChars_eq_self_iff]
  constructor
  · intro c hc
    refine isBlank_of_isNeutral ?_
    obtain ⟨d, ds, hfirst⟩ := List.exists_cons_of_ne_nil g.first_ne_nil
    rcases hsign : optionalSign g.sign with _ | ⟨b, bs⟩
    · rw [chars, hsign, mantissaChars, hfirst] at hc
      obtain rfl : d = c := Option.some.inj hc
      exact .inl (g.isDigit_first d (hfirst ▸ List.mem_cons_self))
    · rw [chars, hsign] at hc
      obtain rfl : b = c := Option.some.inj hc
      have hmem : b ∈ optionalSign g.sign := hsign ▸ List.mem_cons_self
      exact isNeutral_of_mem_optionalSign hmem
  · obtain ⟨front, d, hends, hd⟩ := g.endsInDigit_chars (s.separator.map Separator.char).toList
      s.decimalMark
    rw [hends, List.getLast?_concat]
    rintro c ⟨⟩
    exact isBlank_of_isNeutral (.inl hd)

/-! ### Reading -/

private theorem scanExponent_exponentChars (g : GroupedNumber) :
    Unsigned.scanExponent g.exponentChars = (g.unsigned.exponent, []) := by
  rw [exponentChars, unsigned]
  split
  · rename_i hexponent
    rw [hexponent]
    rfl
  · rename_i letter sign ds hexponent
    obtain ⟨hletter, hne, hds⟩ := g.isDigit_exponent _ _ _ hexponent
    rw [hexponent, ← List.append_nil (letter :: (optionalSign sign ++ ds)),
      Unsigned.scanExponent_append sign hletter hne hds (by simp)]
    rfl

/-- A number without separators and with a point is read with its sign and its parts. -/
private theorem readReal?_chars (g : GroupedNumber) :
    readReal? (g.chars [] '.') = some (g.sign.getD false, g.unsigned) := by
  obtain ⟨c, cs, hfirst⟩ := List.exists_cons_of_ne_nil g.first_ne_nil
  have hwhole : ∀ c ∈ g.first ++ g.groups.flatten, Text.isDigit c = true := by
    intro c hc
    rcases List.mem_append.mp hc with hc | hc
    · exact g.isDigit_first c hc
    · obtain ⟨group, hgroup, hc⟩ := List.mem_flatten.mp hc
      exact (g.isDigit_group group hgroup).2 c hc
  have hhead : ∀ c ∈ g.exponentChars.head?, Text.isDigit c = false ∧ c ≠ '.' := by
    intro c hc
    unfold exponentChars at hc
    split at hc
    · simp at hc
    · rename_i letter sign ds hexponent
      obtain rfl : letter = c := Option.some.inj hc
      rcases (g.isDigit_exponent _ _ _ hexponent).1 with rfl | rfl <;> decide
  have hmantissa : g.mantissaChars [] '.' ++ g.exponentChars = (g.first ++ g.groups.flatten)
      ++ ((if g.fraction = [] then [] else '.' :: g.fraction) ++ g.exponentChars) := by
    simp [mantissaChars, fractionChars, List.flatMap_id']
  have hscan := Unsigned.scan?_append (by simp [g.first_ne_nil]) hwhole g.isDigit_fraction hhead
    g.scanExponent_exponentChars
  rw [← hmantissa] at hscan
  have hsign : ∀ a ∈ (g.mantissaChars [] '.' ++ g.exponentChars).head?, a ≠ '+' ∧ a ≠ '-' := by
    intro a ha
    rw [mantissaChars, hfirst] at ha
    obtain rfl : c = a := Option.some.inj ha
    exact ne_sign_of_isDigit (g.isDigit_first c (hfirst ▸ List.mem_cons_self))
  rw [readReal?, chars, scanSign_optionalSign g.sign hsign]
  simp only [hscan]
  rfl

/-- **A number in groups of digits is read as its value**, if that is finite: in a cell, where its
normalized text has no separators, and in a rule. -/
theorem parseNumber_text (g : GroupedNumber) (s : Settings) (h : g.value.isFinite = true) :
    parseNumber (g.text s) s .floatingPoint
        = .ok (some (.real g.value, String.ofList (g.chars [] '.'))) ∧
      parseReal? (g.text s) s = some g.value := by
  have hread : readReal? (normalizeChars s (Text.trimChars (g.text s).toList))
      = some (g.sign.getD false, g.unsigned) := by
    rw [trimChars_text, normalizeChars_text, readReal?_chars]
  have hvalue : g.unsigned.toDouble (g.sign.getD false) = g.value := rfl
  constructor
  · rw [parseNumber, readNumber, hread, trimChars_text, normalizeChars_text]
    simp only [Option.bind_some, hvalue, finiteReal?, if_pos h]
    rfl
  · rw [parseReal?, hread]
    simp only [hvalue, if_pos h]

end GroupedNumber

end TableRules
