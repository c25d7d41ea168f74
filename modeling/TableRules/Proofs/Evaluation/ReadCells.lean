import TableRules.Proofs.Evaluation.Interruptions

/-!
# What a raw cell is read as

`RawColumn.ReadAs` lists the readings of a raw cell: the null value for a null cell, a typed value
for a text of the form that the type asks for, and a misfit for any other text. Coercion follows
exactly these, for every text, type, catalog and settings, with one exception: an overlong integer
has no reading, and coercion breaks off there (`coerce_readAs`).
-/

namespace TableRules

/-- The reason that a misfit of a type gives. -/
def Misfit.reasonFor (t : ValueType) : String := if t = .dateTime then noFormat else wrongForm

/-- The readings of a raw cell with a type. -/
inductive RawColumn.ReadAs (col : RawColumn) (raw : Option String) (t : ValueType) : Reading → Prop
  | null (hnull : col.IsNull raw) : ReadAs col raw t (.value (TypedValue.null t))
  | value {v : TypedValue} (hnull : ¬ col.IsNull raw)
      (hv : Coerced col.settings col.catalog (trimmed raw) t v) : ReadAs col raw t (.value v)
  | misfit (hnull : ¬ col.IsNull raw)
      (hform : ∀ v, ¬ Coerced col.settings col.catalog (trimmed raw) t v)
      (hlong : ¬ (t = .integer ∧ col.IsOverlong raw)) :
      ReadAs col raw t (.misfit ⟨trimmed raw, t, Misfit.reasonFor t⟩)

/-- A text that does not fit its type gives a misfit of this text and type. -/
theorem eq_of_coerceText_eq_misfit {text : String} {t : ValueType} {s : Settings} {c : Catalog}
    {m : Misfit} (h : coerceText text t s c = .ok (.misfit m)) :
    m = ⟨text, t, Misfit.reasonFor t⟩ := by
  unfold coerceText at h
  split at h
  · simp at h
  · split at h
    · simp at h
    · exact (Reading.misfit.inj (Except.ok.inj h)).symm
  · split at h
    · simp at h
    · exact (Reading.misfit.inj (Except.ok.inj h)).symm
  · rename_i hdate
    obtain ⟨o, -, hr⟩ := Result.map_eq_ok_iff.mp h
    cases o with
    | some x => simp at hr
    | none =>
      obtain rfl := Reading.misfit.inj hr
      simp only [Misfit.reasonFor, if_neg hdate]

variable {col : RawColumn} {raw : Option String} {t : ValueType}

theorem coerce_eq_misfit {m : Misfit}
    (h : coerce raw t col.settings col.catalog = .ok (.misfit m)) :
    ¬ col.IsNull raw ∧ m = ⟨RawColumn.trimmed raw, t, Misfit.reasonFor t⟩ := by
  rw [coerce] at h
  split_ifs at h with hnull
  · simp at h
  · exact ⟨fun hn => hnull (RawColumn.isNull_iff.mpr hn), eq_of_coerceText_eq_misfit h⟩

/-- Coercion gives a typed value exactly where the cell is read as this value. -/
theorem coerce_eq_value_iff_readAs {v : TypedValue} :
    coerce raw t col.settings col.catalog = .ok (.value v) ↔ col.ReadAs raw t (.value v) := by
  rw [coerce_eq_value_iff, RawColumn.isNull_iff, ← Bool.not_eq_true, RawColumn.isNull_iff]
  constructor
  · rintro (⟨hnull, rfl⟩ | ⟨hnull, hv⟩)
    · exact .null hnull
    · exact .value hnull hv
  · rintro (hnull | ⟨hnull, hv⟩)
    · exact .inl ⟨hnull, rfl⟩
    · exact .inr ⟨hnull, hv⟩

/-- Coercion gives a reading exactly where the cell is read as this. -/
theorem coerce_eq_ok_iff_readAs {r : Reading} :
    coerce raw t col.settings col.catalog = .ok r ↔ col.ReadAs raw t r := by
  cases r with
  | value v => exact coerce_eq_value_iff_readAs
  | misfit m =>
    constructor
    · intro h
      obtain ⟨hnull, rfl⟩ := coerce_eq_misfit h
      refine .misfit hnull (fun v hv => ?_) fun hlong => ?_
      · have hvalue := coerce_eq_value_iff_readAs.mpr (.value hnull hv)
        simp [h] at hvalue
      · have herror := coerce_eq_error_iff.mpr ⟨rfl, hlong⟩
        simp [h] at herror
    · intro h
      cases h with
      | misfit hnull hform hlong =>
        -- of the three outcomes of coercion two are excluded
        rcases hcoerce : coerce raw t col.settings col.catalog with fault | v | m
        · exact absurd (coerce_eq_error_iff.mp hcoerce).2 hlong
        · cases coerce_eq_value_iff_readAs.mp hcoerce with
          | null hnull' => exact absurd hnull' hnull
          | value _ hv => exact absurd hv (hform v)
        · rw [(coerce_eq_misfit hcoerce).2]

/-- **Coercion answers for every raw cell** that is not an overlong integer: it gives the null
value, a typed value or a misfit, whichever the cell is read as. At an overlong integer it breaks
off, and at nothing else. -/
theorem coerce_readAs (col : RawColumn) (raw : Option String) (t : ValueType) :
    (∀ r, coerce raw t col.settings col.catalog = .ok r ↔ col.ReadAs raw t r) ∧
      (∀ fault, coerce raw t col.settings col.catalog = .error fault ↔
        fault = .tooManyDigits ∧ t = .integer ∧ col.IsOverlong raw) ∧
      ((∃ r, col.ReadAs raw t r) ↔ ¬ (t = .integer ∧ col.IsOverlong raw)) := by
  refine ⟨fun r => coerce_eq_ok_iff_readAs, fun fault => coerce_eq_error_iff, ?_, fun hlong => ?_⟩
  · rintro ⟨r, hr⟩ hlong
    have hok := coerce_eq_ok_iff_readAs.mpr hr
    rw [coerce_eq_error_iff.mpr ⟨rfl, hlong⟩] at hok
    simp at hok
  · cases hcoerce : coerce raw t col.settings col.catalog with
    | ok r => exact ⟨r, coerce_eq_ok_iff_readAs.mp hcoerce⟩
    | error fault => exact absurd (coerce_eq_error_iff.mp hcoerce).2 hlong

private theorem normalizeNumber_standard (text : String) :
    normalizeNumber text Settings.standard = text :=
  String.ofList_toList

/-- An integer with one digit more than are read. -/
def longInteger : String := String.ofList (List.replicate (digitLimit + 1) '1')

private theorem toList_longInteger :
    longInteger.toList = List.replicate (digitLimit + 1) '1' := String.toList_ofList

theorem isOverlong_longInteger (hsettings : col.settings = Settings.standard) :
    col.IsOverlong (some longInteger) := by
  have hones : ∀ a ∈ longInteger.toList, a = '1' := fun a ha =>
    List.eq_of_mem_replicate (toList_longInteger ▸ ha)
  have hne : longInteger.toList ≠ [] := by
    rw [toList_longInteger, Ne, List.replicate_eq_nil_iff]
    exact Nat.succ_ne_zero digitLimit
  have htrim : RawColumn.trimmed (some longInteger) = longInteger :=
    Text.trim_eq_self_iff.mpr (Text.trimChars_of_noBlank fun a ha => hones a ha ▸ by decide)
  constructor
  · rw [RawColumn.IsNull, hsettings]
    rintro (h | h | h)
    · cases h
    · exact hne (String.toList_eq_nil_iff.mpr (htrim ▸ h))
    · cases h
  · refine ⟨[], longInteger.toList, .inl rfl, ⟨hne, fun a ha => hones a ha ▸ by decide⟩, ?_, ?_⟩
    · rw [htrim, hsettings, normalizeNumber_standard, List.nil_append]
    · rw [toList_longInteger, List.length_replicate]
      exact Nat.lt_succ_self digitLimit

/-- **A text that has no reading.** -/
theorem longInteger_noReading :
    coerce (some longInteger) .integer Settings.standard Catalog.standard
      = .error .tooManyDigits := by
  let col : RawColumn := ⟨Settings.standard, Catalog.standard, none, []⟩
  change coerce _ _ col.settings col.catalog = _
  exact coerce_eq_error_iff.mpr ⟨rfl, rfl, isOverlong_longInteger rfl⟩

end TableRules
