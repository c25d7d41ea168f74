import TableRules.Proofs.Calendar.Rematching
import TableRules.Proofs.Number.WrittenNumbers
import TableRules.Proofs.Value.Coerced

/-!
# Canonical texts are read back

`renderCanonical` writes a typed value so that coercing the text gives the value again.

* A number is written in digits, signs, points and letters that no separator is, and the decimal
  mark of the settings takes the place of the point, so that normalization undoes exactly this
  (`normalizeChars_localize`).
* A date-time is written in the format that read it, which is again the first to read it.

The one exception is a canonical text that is among the null values of the settings.
-/

namespace TableRules

variable {raw : Option String} {text : String} {t : ValueType} {s : Settings} {c : Catalog}
  {v w : TypedValue}

/-! ### The decimal mark -/

/-- A comma in place of a point. -/
private def pointToComma (a : Char) : Char := if a == '.' then ',' else a

/-- Only where the point separates groups of digits is it exchanged. -/
private theorem toList_localize (text : String) (s : Settings) :
    (localize text s).toList
      = if s.separator = some .point then text.toList.map pointToComma else text.toList := by
  unfold localize Settings.decimalMark
  split_ifs with hsep hpoint
  · simp at hpoint
  · rw [String.toList_ofList]
    rfl
  · rfl
  · simp_all

theorem isBlank_of_isNumeric {a : Char} (h : IsNumeric a) : Text.isBlank a = false := by
  rcases h with h | h
  · exact Text.isBlank_of_isDigit h
  · have hall : (['.', 'e', '+', '-', 'j'].all fun a => !Text.isBlank a) = true := by decide
    simpa using List.all_eq_true.mp hall a h

private theorem localize_of_noPoint (h : '.' ∉ text.toList) : localize text s = text := by
  rw [← String.toList_inj, toList_localize]
  split
  · refine (List.map_congr_left fun a ha => ?_).trans (List.map_id _)
    have hpoint : a ≠ '.' := fun hab => h (hab ▸ ha)
    simp [pointToComma, hpoint]
  · rfl

/-- Where the point does not separate groups of digits, it stays. -/
theorem localize_of_separator_ne (hsep : s.separator ≠ some .point) : localize text s = text := by
  rw [← String.toList_inj, toList_localize, if_neg hsep]

/-- Normalization undoes localization of a written number. -/
theorem normalizeChars_localize (h : ∀ a ∈ text.toList, IsNumeric a) :
    normalizeChars s (localize text s).toList = text.toList := by
  have hother : ∀ b : Char, ¬ IsNumeric b → text.toList.filter (· != b) = text.toList := by
    intro b hb
    rw [List.filter_eq_self]
    intro a ha
    exact bne_iff_ne.mpr fun hab => hb (hab ▸ h a ha)
  rw [toList_localize]
  unfold normalizeChars Settings.decimalMark
  cases hsep : s.separator with
  | none => simp
  | some sep =>
    cases sep with
    | point =>
      -- after localization there is no point to remove, and every comma stands for a point
      have hpoints : (text.toList.map pointToComma).filter (· != '.')
          = text.toList.map pointToComma := by
        rw [List.filter_eq_self]
        intro b hb
        obtain ⟨a, -, rfl⟩ := List.mem_map.mp hb
        by_cases hpoint : a = '.' <;> simp [pointToComma, hpoint]
      have hcommas : ∀ a ∈ text.toList,
          (if pointToComma a == ',' then '.' else pointToComma a) = a := by
        intro a ha
        have hcomma : a ≠ ',' := fun hab => absurd (h a ha) (hab ▸ by decide)
        by_cases hpoint : a = '.' <;> simp [pointToComma, hpoint, hcomma]
      simp only [if_true, Separator.char, hpoints, List.map_map]
      exact (List.map_congr_left hcommas).trans (List.map_id _)
    | comma => simpa [Separator.char] using hother ',' (by decide)
    | underscore => simpa [Separator.char] using hother '_' (by decide)
    | apostrophe => simpa [Separator.char] using hother '\x27' (by decide)
    | space => simpa [Separator.char] using hother ' ' (by decide)

/-- A written number with its decimal mark is trimmed. -/
theorem trim_localize (h : ∀ a ∈ text.toList, IsNumeric a) :
    Text.trim (localize text s) = localize text s := by
  refine Text.trim_eq_self_iff.mpr (Text.trimChars_of_noBlank fun b hb => ?_)
  rw [toList_localize] at hb
  split at hb
  · obtain ⟨a, ha, rfl⟩ := List.mem_map.mp hb
    unfold pointToComma
    split
    · decide
    · exact isBlank_of_isNumeric (h a ha)
  · exact isBlank_of_isNumeric (h b hb)

/-! ### Numbers -/

/-- The text of a number with a point as decimal mark. -/
def Value.numberText (t : ValueType) : Value → String
  | .integer n => Text.decimalInt n
  | .real x => if t = .scientific then x.scientific else x.text
  | .complex re im => Double.complexText re im
  | _ => ""

private theorem readNumber_decimalInt {n : Int}
    (h : (Nat.toDigits 10 n.natAbs).length ≤ digitLimit) :
    readNumber .integer (Text.decimalInt n).toList = .ok (some (.integer n)) := by
  have hsign : (if decide (n < 0) = true then -(n.natAbs : Int) else n.natAbs) = n := by
    by_cases hn : n < 0
    · rw [decide_eq_true hn, if_pos rfl]
      omega
    · rw [decide_eq_false hn, if_neg Bool.false_ne_true]
      omega
  simp only [readNumber, readInteger?_decimalInt, if_neg (not_lt.mpr h), Text.digitsValue_toDigits,
    hsign]

section Reals

variable {negative : Bool} {u : Unsigned} {m : Magnitude}

/-- A spelled real is read as a floating-point number. -/
private theorem readNumber_floatingPoint (hu : u.IsPlain)
    (hspell : text.toList = signChars negative ++ u.spell)
    (hum : u.toDouble negative = .finite negative m) :
    readNumber .floatingPoint text.toList = .ok (some (.real (.finite negative m))) := by
  rw [readNumber, hspell, readReal?_spell hu, Option.bind_some]
  dsimp only
  rw [hum]
  rfl

/-- A spelled real with an exponent is read as a scientific number. -/
private theorem readNumber_scientific (hu : u.IsPlain)
    (hspell : text.toList = signChars negative ++ u.spell) (hexponent : u.exponent.isSome = true)
    (hum : u.toDouble negative = .finite negative m) :
    readNumber .scientific text.toList = .ok (some (.real (.finite negative m))) := by
  rw [readNumber, hspell, readReal?_spell hu, Option.bind_some]
  dsimp only
  rw [if_pos hexponent, hum]
  rfl

end Reals

private theorem readNumber_complexText (negative negative' : Bool) (m n : Magnitude) :
    readNumber .complex (Double.complexText (.finite negative m) (.finite negative' n)).toList
      = .ok (some (.complex (.finite negative m) (.finite negative' n))) := by
  rw [readNumber, Double.readComplex?_complexText]
  rfl

/-- **The text of a number** is read as the number, it is written in the characters of numbers, and
it is the canonical text up to the decimal mark. -/
theorem NumberOf.readNumber_numberText {x : Value} (h : NumberOf t x) :
    readNumber t (x.numberText t).toList = .ok (some x) ∧
      (∀ a ∈ (x.numberText t).toList, IsNumeric a) ∧
      ∀ text format,
        renderCanonical ⟨some x, t, text, format⟩ s c = localize (x.numberText t) s := by
  cases h with
  | integer n hlen =>
    exact ⟨readNumber_decimalInt hlen, fun a ha => isNumeric_of_mem_decimalInt ha,
      fun _ _ => (localize_of_noPoint (point_notMem_decimalInt n)).symm⟩
  | floatingPoint negative m =>
    obtain ⟨u, hu, hspell, hum⟩ := Double.exists_spell_textWith negative m 16 true
    exact ⟨readNumber_floatingPoint hu hspell (hum negative),
      fun a ha => isNumeric_of_mem_sign_spell hu (hspell ▸ ha), fun _ _ => rfl⟩
  | scientific negative m =>
    obtain ⟨u, hu, hspell, hexponent, hum⟩ := Double.exists_spell_scientific negative m
    exact ⟨readNumber_scientific hu hspell hexponent hum,
      fun a ha => isNumeric_of_mem_sign_spell hu (hspell ▸ ha), fun _ _ => rfl⟩
  | complex negative negative' m n =>
    exact ⟨readNumber_complexText negative negative' m n,
      fun a ha => Double.isNumeric_of_mem_complexText ha, fun _ _ => rfl⟩

private theorem normalizeChars_nil (s : Settings) : normalizeChars s [] = [] := by
  unfold normalizeChars
  cases s.separator <;> simp

private theorem readNumber_nil (t : ValueType) : readNumber t [] = .ok none := by
  cases t <;> rfl

/-! ### Coercing canonical texts -/

/-- A trimmed text is coerced, or it is one of the null values. -/
private theorem coerce_of_coerced (htrim : Text.trim text = text) (hne : text ≠ "")
    (hw : Coerced s c text t w) :
    coerce (some text) t s c
      = .ok (.value (if text ∈ s.nullValues then TypedValue.null t else w)) := by
  have hempty : text.isEmpty = false := by simpa using hne
  rw [coerce_eq_value_iff, Option.getD_some, htrim]
  unfold isNull
  dsimp only
  rw [htrim, hempty, Bool.false_or, List.contains_eq_mem, decide_eq_true_eq,
    decide_eq_false_iff_not]
  split_ifs with hnull
  · exact .inl ⟨hnull, rfl⟩
  · exact .inr ⟨hnull, hw⟩

/-- A canonical text that is coerced to a value that differs from the first in its text only is
coerced to an equal one. -/
private theorem exists_coerced {x : Value} {canonical : String} {format : Option String}
    (hself : x.equal x = true) {text' : String}
    (hw : Coerced s c canonical t ⟨some x, t, text', format⟩) :
    ∃ w, Coerced s c canonical t w ∧ w.equal ⟨some x, t, text, format⟩ = true :=
  ⟨_, hw, by simp [TypedValue.equal, TypedValue.equalValues, hself]⟩

/-- What a text is coerced to has a canonical text that is coerced to an equal value. -/
private theorem exists_coerced_renderCanonical (hc : c.NoDigitLiterals)
    (htrim : Text.trim text = text) (hne : text ≠ "") (hv : Coerced s c text t v) :
    Text.trim (renderCanonical v s c) = renderCanonical v s c ∧ renderCanonical v s c ≠ "" ∧
      ∃ w, Coerced s c (renderCanonical v s c) t w ∧ w.equal v = true := by
  have hself : ∀ x, v.value = some x → x.equal x = true := fun x hx => hv.equal_self hx
  cases hv with
  | text => exact ⟨htrim, hne, exists_coerced (hself _ rfl) .text⟩
  | boolean b h =>
    have hself := hself _ rfl
    change Text.trim (if b then "true" else "false") = (if b then "true" else "false") ∧
      (if b then "true" else "false") ≠ "" ∧
      ∃ w, Coerced s c (if b then "true" else "false") .boolean w ∧ _
    cases b with
    | true => exact ⟨by decide, by decide, exists_coerced hself (.boolean true (by decide))⟩
    | false => exact ⟨by decide, by decide, exists_coerced hself (.boolean false (by decide))⟩
  | dateTime f d h =>
    have hrender : renderCanonical ⟨some (.dateTime d), .dateTime, text, some f.name⟩ s c
        = f.render d := by
      simp [renderCanonical, Catalog.get?_of_match? h]
    obtain ⟨before, after, -, hd, -⟩ := Catalog.match?_eq_some_iff.mp h
    have hexchanged := DateFormat.exchanged_render hd
    rw [hrender]
    refine ⟨Text.trim_eq_self_iff.mpr (hexchanged.trimChars_eq (Text.trim_eq_self_iff.mp htrim)),
      fun hempty => hne ?_,
      exists_coerced (hself _ rfl) (.dateTime f d (Catalog.match?_render hc h))⟩
    rw [hempty] at hexchanged
    exact String.toList_eq_nil_iff.mp (List.length_eq_zero_iff.mp hexchanged.length_eq)
  | number t x h =>
    obtain ⟨hread, hnumeric, hrender⟩ :=
      (numberOf_of_readNumber h).readNumber_numberText (s := s) (c := c)
    have htrimmed := trim_localize (s := s) hnumeric
    rw [hrender]
    refine ⟨htrimmed, fun hempty => ?_, exists_coerced (hself _ rfl) (.number t x ?_)⟩
    · -- no type reads a number from the empty text
      rw [← normalizeChars_localize (s := s) hnumeric, hempty, String.toList_empty,
        normalizeChars_nil, readNumber_nil] at hread
      simp at hread
    · rw [Text.trim_eq_self_iff.mp htrimmed, normalizeChars_localize hnumeric, hread]

/-- **Canonical texts are read back.** Whatever a cell was coerced to, coercing its canonical text
with the same type, settings and catalog gives an equal value, unless the canonical text is one of
the null values; then it gives the null value. No format of the catalog may have an ASCII digit that
stands for itself; the standard catalog has none. -/
theorem coerce_renderCanonical :
    Catalog.standard.NoDigitLiterals ∧
      ∀ (raw : Option String) (t : ValueType) (s : Settings) (c : Catalog) (v : TypedValue),
        c.NoDigitLiterals → coerce raw t s c = .ok (.value v) →
          ∃ w, coerce (some (renderCanonical v s c)) t s c = .ok (.value w) ∧
            (renderCanonical v s c ∉ s.nullValues → w.equal v = true) ∧
            (renderCanonical v s c ∈ s.nullValues → w = TypedValue.null t) := by
  refine ⟨Catalog.standard_noDigitLiterals, fun raw t s c v hc hv => ?_⟩
  rcases coerce_eq_value_iff.mp hv with ⟨-, rfl⟩ | ⟨hnull, hv⟩
  · have hblank : coerce (some "") t s c = .ok (.value (TypedValue.null t)) :=
      coerce_eq_value_iff.mpr (.inl ⟨rfl, rfl⟩)
    exact ⟨_, hblank, fun _ => by simp [TypedValue.equal, TypedValue.equalValues, TypedValue.null],
      fun _ => rfl⟩
  · have hne : Text.trim (raw.getD "") ≠ "" := by
      cases raw with
      | none => simp [isNull] at hnull
      | some r =>
        rw [isNull, Bool.or_eq_false_iff] at hnull
        simpa using hnull.1
    obtain ⟨htrim, hne, w, hw, hequal⟩ :=
      exists_coerced_renderCanonical hc (Text.trim_trim _) hne hv
    refine ⟨_, coerce_of_coerced htrim hne hw, fun hmem => ?_, fun hmem => ?_⟩
    · rwa [if_neg hmem]
    · rw [if_pos hmem]

/-- Settings under which a point separates groups of digits and a comma is the decimal mark. -/
def decimalComma : Settings :=
  ⟨["n/a"], some .point, Settings.defaultPrecision, Settings.defaultPrecision_pos⟩

/-- A number of one thousand and more, with a fraction. -/
def amount : TypedValue :=
  ⟨some (.real (Double.ofDecimal false 12345 (-1))), .floatingPoint, "1234.5", none⟩

theorem amount_renderCanonical :
    Catalog.standard.NoDigitLiterals ∧
      coerce (some " 1.234,5") .floatingPoint decimalComma Catalog.standard
        = .ok (.value amount) ∧
      ∃ w, coerce (some "1234,5") .floatingPoint decimalComma Catalog.standard = .ok (.value w) ∧
        w.equal amount = true := by
  have hcoerce : coerce (some " 1.234,5") .floatingPoint decimalComma Catalog.standard
      = .ok (.value amount) := by decide +kernel
  have htext : renderCanonical amount decimalComma Catalog.standard = "1234,5" := by
    decide +kernel
  obtain ⟨hstandard, hround⟩ := coerce_renderCanonical
  obtain ⟨w, hw, hequal, -⟩ := hround _ _ _ _ _ hstandard hcoerce
  rw [htext] at hw hequal
  exact ⟨hstandard, hcoerce, w, hw, hequal (by decide)⟩

end TableRules
