import TableRules.Calendar.Catalog
import TableRules.Proofs.Calendar.RoundTrip
import TableRules.Proofs.Text.Trimming

/-!
# Matching a rendered date-time again

A text is read with the first format of a catalog that reads it. Rendering what was read exchanges
the digits at the places of fields for ASCII digits (`toAscii_eq_render`), and no other format comes
to read the text by that, as long as no format has an ASCII digit among its literals
(`Catalog.NoDigitLiterals`): a literal that is none stands at the same places in both texts. So the
rendered text is read with the same format (`Catalog.match?_render`).
-/

namespace TableRules

/-! ### Exchanged digits -/

namespace Text

/-- Whether a text is another one with some digits exchanged for ASCII digits. -/
def Exchanged (cs cs' : List Char) : Prop :=
  List.Forall₂ (fun c c' => c' = c ∨ c' = asciiDigit c) cs cs'

variable {cs cs' : List Char}

theorem Exchanged.map_asciiDigit (h : Exchanged cs cs') :
    cs'.map asciiDigit = cs.map asciiDigit := by
  induction h with
  | nil => rfl
  | @cons c c' cs cs' hc _ ih =>
    have hdigit : asciiDigit c' = asciiDigit c := by
      rcases hc with rfl | rfl
      · rfl
      · exact asciiDigit_asciiDigit c
    rw [List.map_cons, List.map_cons, hdigit, ih]

/-- A character that is no ASCII digit was not exchanged for one. -/
private theorem eq_of_exchanged {c c' : Char} (h : c' = c ∨ c' = asciiDigit c)
    (hc' : c'.isDigit = false) : c' = c := by
  rcases h with rfl | rfl
  · rfl
  · cases hdigit : isDigit c with
    | false => exact asciiDigit_of_not_isDigit hdigit
    | true => simp [asciiDigit_isDigit hdigit] at hc'

private theorem isBlank_asciiDigit {c : Char} (h : isBlank c = false) :
    isBlank (asciiDigit c) = false := by
  cases hc : isDigit c with
  | true => exact isBlank_of_isDigit (asciiDigit_isDigit hc)
  | false => rwa [asciiDigit_of_not_isDigit hc]

private theorem head_noBlank_of_exchanged (h : Exchanged cs cs')
    (hcs : ∀ c ∈ cs.head?, isBlank c = false) : ∀ c ∈ cs'.head?, isBlank c = false := by
  cases h with
  | nil => simp
  | @cons c c' cs cs' hc _ =>
    intro a ha
    obtain rfl : c' = a := Option.some.inj ha
    have hblank := hcs c rfl
    rcases hc with rfl | rfl
    · exact hblank
    · exact isBlank_asciiDigit hblank

/-- A trimmed text stays trimmed when digits are exchanged. -/
theorem Exchanged.trimChars_eq (h : Exchanged cs cs') (hcs : trimChars cs = cs) :
    trimChars cs' = cs' := by
  rw [trimChars_eq_self_iff, ← List.head?_reverse] at *
  exact ⟨head_noBlank_of_exchanged h hcs.1,
    head_noBlank_of_exchanged (List.forall₂_reverse_iff.mpr h) hcs.2⟩

end Text

/-- A field is read alike at exchanged characters. -/
theorem Field.readField?_of_exchanged (g : Field) {cs cs' : List Char}
    (h : Text.Exchanged cs cs') : DateFormat.readField? g cs' = DateFormat.readField? g cs := by
  rw [← readField?_map_asciiDigit, h.map_asciiDigit, readField?_map_asciiDigit]

namespace Part

/-- The text with the digits at the places of fields exchanged is an exchanged one. -/
theorem exchanged_asciiFields (parts : List Part) (cs : List Char) :
    Text.Exchanged cs (asciiFields parts cs) := by
  have hsame : ∀ cs, Text.Exchanged cs cs := fun cs => List.forall₂_same.mpr fun c _ => .inl rfl
  have hmap : ∀ cs, Text.Exchanged cs (cs.map Text.asciiDigit) := fun cs =>
    List.forall₂_map_right_iff.mpr (List.forall₂_same.mpr fun c _ => .inr rfl)
  induction parts generalizing cs with
  | nil => exact hsame cs
  | cons part parts ih =>
    cases part with
    | literal l =>
      have h : Text.Exchanged (cs.take 1 ++ cs.drop 1) (asciiFields (.literal l :: parts) cs) :=
        List.rel_append (hsame (cs.take 1)) (ih (cs.drop 1))
      rwa [List.take_append_drop] at h
    | field g =>
      have h : Text.Exchanged (cs.take g.width ++ cs.drop g.width)
          (asciiFields (.field g :: parts) cs) :=
        List.rel_append (hmap (cs.take g.width)) (ih (cs.drop g.width))
      rwa [List.take_append_drop] at h

/-- What is captured of a text with exchanged digits is captured of the text itself, where no ASCII
digit stands for itself. -/
theorem capture?_of_exchanged {parts : List Part} {cs cs' : List Char}
    {captures : List (Field × Nat)} (hparts : ∀ l : Char, .literal l ∈ parts → l.isDigit = false)
    (hcs : Text.Exchanged cs cs') (h : DateFormat.capture? parts cs' = some captures) :
    DateFormat.capture? parts cs = some captures := by
  induction parts generalizing cs cs' captures with
  | nil =>
    cases hcs with
    | nil => exact h
    | cons _ _ => simp [DateFormat.capture?] at h
  | cons part parts ih =>
    have hparts' : ∀ l : Char, .literal l ∈ parts → l.isDigit = false := fun l hl =>
      hparts l (List.mem_cons_of_mem part hl)
    cases part with
    | literal l =>
      cases hcs with
      | nil => simp [DateFormat.capture?] at h
      | @cons c c' cs cs' hc hcs =>
        rw [DateFormat.capture?, Option.ite_none_right_eq_some, beq_iff_eq] at h
        obtain ⟨rfl, h⟩ := h
        have hsame : l = c := Text.eq_of_exchanged hc (hparts l List.mem_cons_self)
        rw [DateFormat.capture?, if_pos (beq_iff_eq.mpr hsame), ih hparts' hcs h]
    | field g =>
      rw [DateFormat.capture?, Option.ite_none_left_eq_some, ← hcs.length_eq] at h
      obtain ⟨hlong, h⟩ := h
      have hread := g.readField?_of_exchanged (List.forall₂_take g.width hcs)
      rw [DateFormat.capture?, if_neg hlong, ← hread]
      cases hn : DateFormat.readField? g (cs'.take g.width) with
      | none => simp [hn] at h
      | some n =>
        simp only [hn] at h ⊢
        obtain ⟨rest, hrest, rfl⟩ := Option.map_eq_some_iff.mp h
        rw [ih hparts' (List.forall₂_drop g.width hcs) hrest]
        rfl

end Part

/-! ### Formats and catalogs -/

namespace DateFormat

variable {f : DateFormat} {d : DateTime} {t t' : String}

/-- Whether no character that stands for itself in a format is an ASCII digit. -/
def NoDigitLiterals (f : DateFormat) : Prop :=
  ∀ l : Char, .literal l ∈ f.parts → l.isDigit = false

/-- A date-time read of a text with exchanged digits is read of the text itself. -/
theorem parse?_of_exchanged (hf : f.NoDigitLiterals) (ht : Text.Exchanged t.toList t'.toList)
    (h : f.parse? t' = some d) : f.parse? t = some d := by
  unfold parse? at h ⊢
  split at h
  · simp at h
  · rename_i captures hcapture
    rw [Part.capture?_of_exchanged hf ht hcapture]
    exact h

/-- Rendering what was read gives the text in ASCII digits. -/
theorem toAscii_eq_render (h : f.parse? t = some d) : f.toAscii t = f.render d :=
  (eq_render_of_parse? (hasAsciiFields_toAscii f t) ((parse?_toAscii f t).trans h)).2

theorem exchanged_render (h : f.parse? t = some d) :
    Text.Exchanged t.toList (f.render d).toList := by
  rw [← toAscii_eq_render h, toAscii, String.toList_ofList]
  exact Part.exchanged_asciiFields f.parts t.toList

/-- Formats of the same name are the same. -/
theorem eq_of_name_eq {g : DateFormat} (h : f.name = g.name) : f = g := by
  cases f
  cases g
  simpa using h

end DateFormat

namespace Catalog

variable {c : Catalog} {f : DateFormat} {d : DateTime} {t : String}

/-- Whether no character that stands for itself in a format of a catalog is an ASCII digit. -/
def NoDigitLiterals (c : Catalog) : Prop := ∀ f ∈ c.formats, f.NoDigitLiterals

theorem standard_noDigitLiterals : standard.NoDigitLiterals := by
  have hall : (standard.formats.all fun f => f.name.toList.all fun l => !l.isDigit) = true := by
    decide +kernel
  intro f hf l hl
  have hname : l ∈ f.name.toList := by
    rw [← Part.spell_ofChars f.name.toList]
    exact List.mem_flatMap.mpr ⟨_, hl, List.mem_singleton_self l⟩
  simpa using List.all_eq_true.mp (List.all_eq_true.mp hall f hf) l hname

theorem match?_eq_some_iff :
    c.match? t = some (f, d) ↔ ∃ before after, c.formats = before ++ f :: after ∧
      f.parse? t = some d ∧ ∀ g ∈ before, g.parse? t = none := by
  rw [match?, List.findSome?_eq_some_iff]
  constructor
  · rintro ⟨before, g, after, hformats, hg, hbefore⟩
    obtain ⟨d', hd, heq⟩ := Option.map_eq_some_iff.mp hg
    obtain ⟨rfl, rfl⟩ := Prod.mk.inj heq
    exact ⟨before, after, hformats, hd, fun g hg => Option.map_eq_none_iff.mp (hbefore g hg)⟩
  · rintro ⟨before, after, hformats, hd, hbefore⟩
    exact ⟨before, f, after, hformats, by rw [hd]; rfl, fun g hg => by rw [hbefore g hg]; rfl⟩

/-- The format that reads a text is the one of its name. -/
theorem get?_of_match? (h : c.match? t = some (f, d)) : c.get? f.name = some f := by
  obtain ⟨before, after, hformats, -⟩ := match?_eq_some_iff.mp h
  have hmem : f ∈ c.formats := by
    rw [hformats]
    simp
  cases hget : c.get? f.name with
  | none => exact absurd (List.find?_eq_none.mp hget f hmem) (by simp)
  | some g =>
    have hname := List.find?_some (p := fun g : DateFormat => g.name == f.name) hget
    rw [DateFormat.eq_of_name_eq (beq_iff_eq.mp hname)]

/-- **A rendered date-time is matched again**, by the same format. -/
theorem match?_render (hc : c.NoDigitLiterals) (h : c.match? t = some (f, d)) :
    c.match? (f.render d) = some (f, d) := by
  obtain ⟨before, after, hformats, hd, hbefore⟩ := match?_eq_some_iff.mp h
  refine match?_eq_some_iff.mpr ⟨before, after, hformats, ?_, fun g hg => ?_⟩
  · rw [← DateFormat.toAscii_eq_render hd, DateFormat.parse?_toAscii, hd]
  · have hmem : g ∈ c.formats := by
      rw [hformats]
      exact List.mem_append_left _ hg
    rw [Option.eq_none_iff_forall_ne_some]
    intro d' hd'
    have hsame := DateFormat.parse?_of_exchanged (hc g hmem) (DateFormat.exchanged_render hd) hd'
    rw [hbefore g hg] at hsame
    simp at hsame

end Catalog

end TableRules
