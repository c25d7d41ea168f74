import TableRules.Proofs.Text.Trimming
import TableRules.Value.Coercion

/-!
# Texts with their points and commas exchanged

Where commas separate groups of digits the point is the decimal mark, and the other way round. So
the **mirrored** text (`mirror`), with commas for points and points for commas, is the same number
under the mirrored settings: normalization takes out one of the two marks and makes the other a
point, wherever the marks stand and however often (`normalizeChars_mirror`). Hence a numeric type
reads the same from a text and from its mirrored text (`parseNumber_mirror`, `coerce_mirror`); what
does not fit stays a misfit, with its text mirrored.
-/

namespace TableRules

/-- Exchanges the point and the comma. -/
def mirrorChar (c : Char) : Char := if c = '.' then ',' else if c = ',' then '.' else c

/-- A text with its points and commas exchanged. -/
def mirror (text : String) : String := String.ofList (text.toList.map mirrorChar)

theorem mirrorChar_mirrorChar (c : Char) : mirrorChar (mirrorChar c) = c := by
  by_cases hpoint : c = '.'
  · subst hpoint
    rfl
  · by_cases hcomma : c = ','
    · subst hcomma
      rfl
    · simp [mirrorChar, hpoint, hcomma]

theorem toList_mirror (text : String) : (mirror text).toList = text.toList.map mirrorChar :=
  String.toList_ofList

/-- Exchanging points and commas twice changes nothing. -/
theorem mirror_mirror (text : String) : mirror (mirror text) = text := by
  rw [← String.toList_inj, toList_mirror, toList_mirror, List.map_map]
  exact (List.map_congr_left fun c _ => mirrorChar_mirrorChar c).trans (List.map_id _)

theorem mirror_inj {text text' : String} : mirror text = mirror text' ↔ text = text' :=
  ⟨fun h => by rw [← mirror_mirror text, h, mirror_mirror], congrArg mirror⟩

theorem isEmpty_mirror (text : String) : (mirror text).isEmpty = text.isEmpty := by
  rw [Bool.eq_iff_iff, String.isEmpty_iff, String.isEmpty_iff]
  exact (mirror_inj : mirror text = mirror "" ↔ text = "")

/-! ### Trimming -/

theorem isBlank_mirrorChar (c : Char) : Text.isBlank (mirrorChar c) = Text.isBlank c := by
  unfold mirrorChar
  split_ifs with hpoint hcomma
  · subst hpoint
    decide
  · subst hcomma
    decide
  · rfl

theorem trimChars_mirror (cs : List Char) :
    Text.trimChars (cs.map mirrorChar) = (Text.trimChars cs).map mirrorChar := by
  have hdrop : ∀ cs : List Char,
      Text.dropBlanks (cs.map mirrorChar) = (Text.dropBlanks cs).map mirrorChar := by
    intro cs
    rw [Text.dropBlanks, Text.dropBlanks, List.dropWhile_map]
    exact congrArg (fun p => (cs.dropWhile p).map mirrorChar) (funext isBlank_mirrorChar)
  rw [Text.trimChars, Text.trimChars, hdrop, ← List.map_reverse, hdrop, List.map_reverse]

theorem trim_mirror (text : String) : Text.trim (mirror text) = mirror (Text.trim text) := by
  rw [Text.trim, Text.trim, toList_mirror, trimChars_mirror, mirror, String.toList_ofList]

/-! ### Settings -/

/-- The separator that stands in the mirrored texts. -/
def Separator.mirrored : Separator → Separator
  | .point => .comma
  | .comma => .point
  | separator => separator

/-- Settings for mirrored texts. -/
def Settings.mirrored (s : Settings) : Settings :=
  { s with
    nullValues := s.nullValues.map mirror
    separator := s.separator.map Separator.mirrored }

variable {s : Settings} {c : Catalog} {t : ValueType}

/-- **Normalization** gives the same for a text and for its mirrored text. -/
theorem normalizeChars_mirror (hsep : s.separator = some .comma) (cs : List Char) :
    normalizeChars s.mirrored (cs.map mirrorChar) = normalizeChars s cs := by
  have hsep' : s.mirrored.separator = some .point := by
    rw [Settings.mirrored, hsep]
    rfl
  have hpoint : ∀ a, mirrorChar a = '.' ↔ a = ',' := fun a =>
    ⟨fun h => by rw [← mirrorChar_mirrorChar a, h]; rfl, fun h => by rw [h]; rfl⟩
  have hfilter : (cs.map mirrorChar).filter (· != '.') = (cs.filter (· != ',')).map mirrorChar := by
    rw [List.filter_map]
    refine congrArg (List.map mirrorChar) (List.filter_congr fun a _ => ?_)
    rw [Function.comp_apply, Bool.eq_iff_iff, bne_iff_ne, bne_iff_ne, ne_eq, ne_eq, hpoint]
  -- of the characters that are left only the point was exchanged, and it is put back
  have hback : ((cs.filter (· != ',')).map mirrorChar).map (fun a => if a == ',' then '.' else a)
      = cs.filter (· != ',') := by
    rw [List.map_map]
    refine (List.map_congr_left fun a ha => ?_).trans (List.map_id _)
    have hcomma : a ≠ ',' := bne_iff_ne.mp (List.mem_filter.mp ha).2
    by_cases hpoint : a = '.' <;> simp [mirrorChar, hpoint, hcomma]
  unfold normalizeChars Settings.decimalMark
  rw [hsep, hsep']
  simp only [Separator.char, hfilter]
  exact hback

/-- A text is read as a number exactly as its mirrored text is. -/
theorem parseNumber_mirror (hsep : s.separator = some .comma) (text : String) (t : ValueType) :
    parseNumber (mirror text) s.mirrored t = parseNumber text s t := by
  rw [parseNumber, parseNumber, toList_mirror, trimChars_mirror, normalizeChars_mirror hsep]

theorem parseReal?_mirror (hsep : s.separator = some .comma) (text : String) :
    parseReal? (mirror text) s.mirrored = parseReal? text s := by
  rw [parseReal?, parseReal?, toList_mirror, trimChars_mirror, normalizeChars_mirror hsep]

/-! ### Cells -/

/-- The text of a raw cell is mirrored with it. -/
theorem trim_getD_mirror (raw : Option String) :
    Text.trim ((raw.map mirror).getD "") = mirror (Text.trim (raw.getD "")) := by
  cases raw with
  | none => rfl
  | some text => exact trim_mirror text

/-- A raw cell is null exactly when its mirrored text is. -/
theorem isNull_mirror (raw : Option String) (s : Settings) :
    isNull (raw.map mirror) s.mirrored = isNull raw s := by
  cases raw with
  | none => rfl
  | some text =>
    have hcontains : (s.nullValues.map mirror).contains (mirror (Text.trim text))
        = s.nullValues.contains (Text.trim text) := by
      rw [Bool.eq_iff_iff, List.contains_iff_mem, List.contains_iff_mem, List.mem_map]
      exact ⟨fun ⟨_, hmem, heq⟩ => mirror_inj.mp heq ▸ hmem, fun hmem => ⟨_, hmem, rfl⟩⟩
    simp only [Option.map_some, isNull, trim_mirror, isEmpty_mirror]
    exact congrArg _ hcontains

/-- A reading of the mirrored text: a misfit has this text. -/
def Reading.mirrored : Reading → Reading
  | .value v => .value v
  | .misfit m => .misfit { m with raw := mirror m.raw }

/-- **A numeric type reads the same value** from a raw cell and from its mirrored text. -/
theorem coerce_mirror (hsep : s.separator = some .comma) (ht : t.isNumeric = true)
    (raw : Option String) :
    coerce (raw.map mirror) t s.mirrored c = (coerce raw t s c).map Reading.mirrored := by
  rw [coerce, coerce, isNull_mirror, trim_getD_mirror]
  split_ifs
  · rfl
  · unfold coerceText
    cases t with
    | boolean => simp [ValueType.isNumeric] at ht
    | dateTime => simp [ValueType.isNumeric] at ht
    | string => simp [ValueType.isNumeric] at ht
    | _ =>
      simp only [parseNumber_mirror hsep]
      cases parseNumber (Text.trim (raw.getD "")) s _ with
      | error fault => rfl
      | ok number => cases number <;> rfl

end TableRules
