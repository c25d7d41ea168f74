import TableRules.Proofs.Evaluation.Violations
import TableRules.Proofs.Number.NestedTypes
import TableRules.Proofs.Number.WrittenReals
import TableRules.Proofs.RulesText.Arguments

/-!
# Rules on digits follow the written number

The rules on significant digits and on decimal places look at the normalized text of a cell that was
read as a real number. That text is a number as written (`Cell.IsRealOf.exists_written`), so that
its counts are those of `WrittenReal`. Cells that are written alike but for the sign, separators and
leading zeros (`SameNumeral`) satisfy the same of these rules.

**Main result** (`digitRules_follow_written`).
-/

namespace TableRules

open WrittenReal (isZero)

variable {s : Settings} {c : Catalog} {raw raw' : String} {cell cell' : Cell} {v v' : TypedValue}

/-- A cell was read from a text under settings, and as a real number. -/
structure Cell.IsRealOf (s : Settings) (c : Catalog) (raw : String) (cell : Cell) (v : TypedValue) :
    Prop where
  read : ∃ t row, Cell.read s c (some t) row (some raw) = .ok cell
  typed : cell.typed? = some v
  isReal : v.isRealNumber = true

/-- How a number as written violates a rule on its digits. -/
def WrittenReal.digitsViolation? (w : WrittenReal) (kind : DigitKind) (n : Nat) :
    Option Violation :=
  if w.InRange then
    let count := Check.digitCount kind ⟨w.significant, w.places⟩
    Check.demand (count == n) (.digits kind count n)
  else some .notDecimal

/-- Two texts are the same number but for a sign, separators and zeros in front. -/
def SameNumeral (s : Settings) (raw raw' : String) : Prop :=
  ∃ sign sign' zeros zeros' tail,
    (∀ a ∈ zeros, isZero a = true) ∧ (∀ a ∈ zeros', isZero a = true) ∧
    (∀ a ∈ tail.head?, a ≠ '+' ∧ a ≠ '-') ∧
    ungrouped s raw = optionalSign sign ++ (zeros ++ tail) ∧
    ungrouped s raw' = optionalSign sign' ++ (zeros' ++ tail)

/-- What is read as a number of a real type is read as a real. -/
theorem exists_readReal?_of_readNumber {t : ValueType} {cs : List Char} {x : Value}
    (ht : t.isReal = true) (h : readNumber t cs = .ok (some x)) :
    ∃ negative u, readReal? cs = some (negative, u) := by
  cases t with
  | integer =>
    obtain ⟨negative, ds, hread, -⟩ := exists_of_readNumber_integer h
    exact ⟨negative, _, readReal?_of_readInteger? hread⟩
  | floatingPoint =>
    obtain ⟨negative, u, hread, -⟩ := readNumber_floatingPoint_iff.mp h
    exact ⟨negative, u, hread⟩
  | scientific =>
    obtain ⟨⟨negative, u⟩, hread, -⟩ := Option.bind_eq_some_iff.mp (Except.ok.inj h)
    exact ⟨negative, u, hread⟩
  | _ => simp [ValueType.isReal] at ht

namespace Cell.IsRealOf

/-- A cell that was read as a real number has a text that coerces to it. -/
theorem exists_coerce (h : cell.IsRealOf s c raw v) :
    cell.isNull = TableRules.isNull (some raw) s ∧ cell.reading = some (.value v) ∧
      ∃ t x, t.isReal = true ∧ coerce (some raw) t s c = .ok (.value v) ∧ v.value = some x := by
  obtain ⟨⟨type, row, hread⟩, htyped, hreal⟩ := h
  have hshows : cell.Shows ⟨s, c, some type, []⟩ (some raw) := (Cell.shows_of_read hread).2
  obtain ⟨x, hx⟩ := TypedValue.exists_value_of_isRealNumber hreal
  obtain ⟨t, -, ht, hcoerces, -⟩ := (Check.typed_isReal_iff hshows).mp ⟨htyped, hreal, hx⟩
  exact ⟨Bool.eq_iff_iff.mpr (hshows.isNull_iff.trans RawColumn.isNull_iff.symm),
    Cell.typed?_eq_some_iff.mp htyped, t, x, ht, hcoerces, hx⟩

/-- **The text of a real number is a number as written**, the normalized text of its cell. -/
theorem exists_written (h : cell.IsRealOf s c raw v) :
    ∃ w : WrittenReal, w.chars = normalizeChars s (Text.trimChars raw.toList) ∧
      v.text = w.text := by
  obtain ⟨-, -, t, x, ht, hcoerce, hx⟩ := h.exists_coerce
  have htrim : Text.trimChars (Text.trim raw).toList = Text.trimChars raw.toList := by
    rw [Text.trim, String.toList_ofList, Text.trimChars_trimChars]
  rcases coerce_eq_value_iff.mp hcoerce with ⟨-, rfl⟩ | ⟨-, hv⟩
  · cases hx
  · rw [Option.getD_some] at hv
    -- only numbers have a real type
    cases hv with
    | number t x hnumber =>
      rw [htrim] at hnumber
      obtain ⟨negative, u, hread⟩ := exists_readReal?_of_readNumber ht hnumber
      obtain ⟨w, hw⟩ := WrittenReal.exists_chars_eq hread
      exact ⟨w, hw, by rw [htrim, WrittenReal.text, hw]⟩
    | _ => simp [ValueType.isReal] at ht

/-- A cell that was read as a real number is judged by the digits of its text. -/
theorem violation?_digits (h : cell.IsRealOf s c raw v) (column : List Cell) (kind : DigitKind)
    (n : Nat) :
    (Check.digits kind n).violation? s c column cell = .ok (match DigitCount.ofText v.text with
      | .error _ => some .notDecimal
      | .ok d => Check.demand (Check.digitCount kind d == n)
          (.digits kind (Check.digitCount kind d) n)) := by
  obtain ⟨hnull, hreading, t, x, -, hcoerce, hx⟩ := h.exists_coerce
  have hnotNull : ¬ cell.isNull = true := by
    rw [hnull, ← isNull_of_coerce hcoerce, TypedValue.isNull, hx]
    exact Bool.false_ne_true
  rw [Check.violation?, if_neg hnotNull]
  exact Check.onReal_of_value hreading h.isReal hx _

/-- If the text of the cell is a number as written, the cell is judged by this number. -/
theorem violation?_digits_written (h : cell.IsRealOf s c raw v) {w : WrittenReal}
    (htext : v.text = w.text) (column : List Cell) (kind : DigitKind) (n : Nat) :
    (Check.digits kind n).violation? s c column cell = .ok (w.digitsViolation? kind n) := by
  rw [h.violation?_digits, htext, w.ofText_text, WrittenReal.digitsViolation?]
  split_ifs <;> rfl

end Cell.IsRealOf

/-- Normalized texts differ in sign and leading zeros if the texts do. -/
theorem SameNumeral.exists_normalized (h : SameNumeral s raw raw') :
    ∃ sign sign' zeros zeros' tail,
      (∀ a ∈ zeros, isZero a = true) ∧ (∀ a ∈ zeros', isZero a = true) ∧
      (∀ a ∈ tail.head?, a ≠ '+' ∧ a ≠ '-') ∧
      normalizeChars s (Text.trimChars raw.toList) = optionalSign sign ++ (zeros ++ tail) ∧
      normalizeChars s (Text.trimChars raw'.toList) = optionalSign sign' ++ (zeros' ++ tail) := by
  obtain ⟨sign, sign', zeros, zeros', tail, hzeros, hzeros', htail, hraw, hraw'⟩ := h
  have hkeep : ∀ as : List Char, ',' ∉ as →
      (as.map fun a => if a == s.decimalMark then '.' else a) = as := fun as hcomma => by
    refine map_mark_eq_self fun hmark => ?_
    unfold Settings.decimalMark at hmark ⊢
    split_ifs at hmark ⊢
    · exact absurd hmark hcomma
    · rfl
  have hsigns : ∀ sign, ',' ∉ optionalSign sign := by
    rintro (_ | _ | _) <;> decide
  have hnocomma : ∀ as : List Char, (∀ a ∈ as, isZero a = true) → ',' ∉ as := fun as has hmem =>
    absurd (has _ hmem) (by decide)
  refine ⟨sign, sign', zeros, zeros', tail.map fun a => if a == s.decimalMark then '.' else a,
    hzeros, hzeros', fun a ha => ?_, ?_, ?_⟩
  · rw [List.head?_map] at ha
    obtain ⟨b, hb, rfl⟩ := Option.map_eq_some_iff.mp ha
    split_ifs
    · decide
    · exact htail b hb
  · rw [normalizeChars_eq_map, hraw, List.map_append, List.map_append, hkeep _ (hsigns sign),
      hkeep _ (hnocomma zeros hzeros)]
  · rw [normalizeChars_eq_map, hraw', List.map_append, List.map_append, hkeep _ (hsigns sign'),
      hkeep _ (hnocomma zeros' hzeros')]

/-- **Rules on digits follow the written number.** Under any settings, the normalized text of a cell
that was read as a real number is a number as written, and the rules on digits judge the cell by it.
Of such a number the significant digits are those before and after the point without the zeros in
front, but at least one, and the decimal places are those after the point, moved by the exponent;
they are counted if its powers of ten are in range. Two cells that are written alike but for the
sign, separators and zeros in front violate a rule on digits alike, and a greater exponent leaves
the significant digits as they are. -/
theorem digitRules_follow_written (s : Settings) (c : Catalog) :
    (∀ (raw : String) (cell : Cell) (v : TypedValue), cell.IsRealOf s c raw v →
      ∃ w : WrittenReal, w.chars = normalizeChars s (Text.trimChars raw.toList) ∧
        v.text = w.text ∧ ∀ (column : List Cell) (kind : DigitKind) (n : Nat),
          (Check.digits kind n).violation? s c column cell = .ok (w.digitsViolation? kind n)) ∧
    (∀ w : WrittenReal, DigitCount.ofText w.text =
      if w.InRange then .ok ⟨w.significant, w.places⟩ else .error .outOfRange) ∧
    (∀ (raw raw' : String) (cell cell' : Cell) (v v' : TypedValue), cell.IsRealOf s c raw v →
      cell'.IsRealOf s c raw' v' → SameNumeral s raw raw' →
        ∀ (column column' : List Cell) (kind : DigitKind) (n : Nat),
          (Check.digits kind n).violation? s c column cell =
            (Check.digits kind n).violation? s c column' cell') ∧
    ∀ (w w' : WrittenReal) (k : Int), w'.whole = w.whole → w'.fraction = w.fraction →
      w'.exponentValue = w.exponentValue + k → w.InRange → w'.InRange →
        DigitCount.ofText w.text = .ok ⟨w.significant, w.places⟩ ∧
          DigitCount.ofText w'.text =
            .ok ⟨w.significant, (w.fractionDigits.length - (w.exponentValue + k)).toNat⟩ := by
  refine ⟨fun raw cell v h => ?_, WrittenReal.ofText_text, ?_, ?_⟩
  · obtain ⟨w, hw, htext⟩ := h.exists_written
    exact ⟨w, hw, htext, h.violation?_digits_written htext⟩
  · intro raw raw' cell cell' v v' h h' hsame column column' kind n
    obtain ⟨w, hw, htext⟩ := h.exists_written
    obtain ⟨w', hw', htext'⟩ := h'.exists_written
    obtain ⟨sign, sign', zeros, zeros', tail, hzeros, hzeros', htail, hraw, hraw'⟩ :=
      hsame.exists_normalized
    rw [h.violation?_digits, h'.violation?_digits, htext, htext',
      WrittenReal.ofText_zeros hzeros hzeros' htail (hw.trans hraw) (hw'.trans hraw')]
  · intro w w' k hwhole hfraction hexponent hrange hrange'
    have hdigits : w'.fractionDigits = w.fractionDigits := congrArg (·.getD []) hfraction
    have hsignificant : w'.significant = w.significant :=
      WrittenReal.significant_congr (by rw [hwhole]) hdigits
    refine ⟨by rw [w.ofText_text, if_pos hrange], ?_⟩
    rw [w'.ofText_text, if_pos hrange', hsignificant, WrittenReal.places, hdigits, hexponent]

/-! #### Weights in two spellings

The number `-1,234.50` has six significant digits and two decimal places, also if it is written
without separator and with zeros in front. With an exponent the significant digits stay, here in
`3.60e-3` and `3.60e4`. -/

/-- The number `3.60e-3`. -/
def smallWeight : WrittenReal where
  sign := none
  whole := ['3']
  fraction := some ['6', '0']
  exponent := some ⟨'e', some true, ['3'], .inl rfl, by simp, Text.forall_of_all (by decide)⟩
  ne_nil := .inl (by simp)
  isDigit_whole := Text.forall_of_all (by decide)
  isDigit_fraction := Text.forall_of_all (by decide)

/-- The number `3.60e4`. -/
def largeWeight : WrittenReal :=
  { smallWeight with
    exponent := some ⟨'e', none, ['4'], .inl rfl, by simp, Text.forall_of_all (by decide)⟩ }

/-- Two spellings of a weight and two scales of another, and what is counted of them. -/
theorem digitRules_of_weights :
    let s : Settings := { Settings.standard with separator := some .comma }
    (∃ (cell cell' : Cell) (v v' : TypedValue), cell.IsRealOf s .standard "-1,234.50" v ∧
      cell'.IsRealOf s .standard " 001234.50" v' ∧ SameNumeral s "-1,234.50" " 001234.50" ∧
      (∃ w : WrittenReal, w.text = "-1234.50" ∧ ∀ kind n,
        (Check.digits kind n).violation? s .standard [cell] cell
          = .ok (w.digitsViolation? kind n)) ∧
      ∀ kind n, (Check.digits kind n).violation? s .standard [cell] cell =
        (Check.digits kind n).violation? s .standard [cell'] cell') ∧
    smallWeight.text = "3.60e-3" ∧ largeWeight.text = "3.60e4" ∧
    DigitCount.ofText smallWeight.text = .ok ⟨3, 5⟩ ∧
    DigitCount.ofText largeWeight.text = .ok ⟨3, 0⟩ := by
  intro s
  obtain ⟨hwritten, -, hsame, hscale⟩ := digitRules_follow_written s .standard
  have hread : ∀ raw, ((Cell.read s .standard (some .floatingPoint) 1 (some raw)).toOption.any
      fun cell => cell.typed?.any TypedValue.isRealNumber) = true →
        ∃ (cell : Cell) (v : TypedValue), cell.IsRealOf s .standard raw v := by
    intro raw hraw
    obtain ⟨cell, hcell, htyped⟩ := Result.any_toOption_iff.mp hraw
    obtain ⟨v, hv, hreal⟩ := (Option.any_eq_true _ _).mp htyped
    exact ⟨cell, v, ⟨_, _, hcell⟩, hv, hreal⟩
  obtain ⟨cell, v, h⟩ := hread "-1,234.50" (by decide +kernel)
  obtain ⟨cell', v', h'⟩ := hread " 001234.50" (by decide +kernel)
  have hsameNumeral : SameNumeral s "-1,234.50" " 001234.50" :=
    ⟨some true, none, [], ['0', '0'], "1234.50".toList, by simp, Text.forall_of_all (by decide),
      by simp, by decide, by decide⟩
  obtain ⟨hcount, hcount'⟩ := hscale smallWeight largeWeight 7
    rfl rfl (by decide) (by decide) (by decide)
  obtain ⟨w, hw, -, hjudged⟩ := hwritten _ _ _ h
  have htext : w.text = "-1234.50" := by
    rw [WrittenReal.text, hw]
    decide
  exact ⟨⟨cell, cell', v, v', h, h', hsameNumeral, ⟨w, htext, hjudged [cell]⟩,
    hsame _ _ _ _ _ _ h h' hsameNumeral _ _⟩, by decide, by decide, hcount, hcount'⟩

end TableRules
