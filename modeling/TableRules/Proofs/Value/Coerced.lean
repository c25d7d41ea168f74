import TableRules.Proofs.Results
import TableRules.Proofs.Text.Numerals

/-!
# What coercion yields

`Coerced` lists the four ways in which a text that is not null becomes a typed value, and
`coerce_eq_value_iff` says that coercion follows exactly these. Facts about all typed values are
then proved by cases on `Coerced`, and on `NumberOf` for the numbers among them: a typed value
carries the type it was coerced to, and its value equals itself, because no number that differs from
itself is ever read.
-/

namespace TableRules

/-- The typed values that a trimmed text that is not null coerces to. -/
inductive Coerced (s : Settings) (c : Catalog) (text : String) : ValueType → TypedValue → Prop
  | text : Coerced s c text .string ⟨some (.text text), .string, text, none⟩
  | boolean (b : Bool) (h : readBoolean? text = some b) :
      Coerced s c text .boolean ⟨some (.boolean b), .boolean, Text.lowerAscii text, none⟩
  | dateTime (f : DateFormat) (d : DateTime) (h : c.match? text = some (f, d)) :
      Coerced s c text .dateTime ⟨some (.dateTime d), .dateTime, text, some f.name⟩
  | number (t : ValueType) (x : Value)
      (h : readNumber t (normalizeChars s (Text.trimChars text.toList)) = .ok (some x)) :
      Coerced s c text t
        ⟨some x, t, String.ofList (normalizeChars s (Text.trimChars text.toList)), none⟩

/-- A text is coerced to a value exactly in one of the four ways. -/
theorem coerceText_eq_value_iff {text : String} {t : ValueType} {s : Settings} {c : Catalog}
    {v : TypedValue} : coerceText text t s c = .ok (.value v) ↔ Coerced s c text t v := by
  constructor
  · intro h
    unfold coerceText at h
    split at h
    · obtain rfl := Reading.value.inj (Except.ok.inj h)
      exact .text
    · split at h
      · obtain rfl := Reading.value.inj (Except.ok.inj h)
        exact .boolean _ ‹_›
      · exact absurd (Except.ok.inj h) (by simp)
    · split at h
      · obtain rfl := Reading.value.inj (Except.ok.inj h)
        exact .dateTime _ _ ‹_›
      · exact absurd (Except.ok.inj h) (by simp)
    · obtain ⟨o, ho, hr⟩ := Result.map_eq_ok_iff.mp h
      obtain ⟨w, hw, rfl⟩ := Result.map_eq_ok_iff.mp ho
      cases w with
      | none => simp at hr
      | some x =>
        obtain rfl := Reading.value.inj hr
        exact .number _ x hw
  · rintro (_ | ⟨b, h⟩ | ⟨f, d, h⟩ | ⟨t, x, h⟩)
    · rfl
    · simp [coerceText, h]
    · simp [coerceText, h]
    · cases t <;> simp_all [coerceText, parseNumber, readNumber, Except.map]

/-- A raw cell is coerced to a typed value when it is null, and then to the null value, or in one of
the four ways. -/
theorem coerce_eq_value_iff {raw : Option String} {t : ValueType} {s : Settings} {c : Catalog}
    {v : TypedValue} :
    coerce raw t s c = .ok (.value v) ↔
      (isNull raw s = true ∧ v = TypedValue.null t) ∨
        (isNull raw s = false ∧ Coerced s c (Text.trim (raw.getD "")) t v) := by
  unfold coerce
  cases hn : isNull raw s with
  | true => simp [eq_comm]
  | false => simp [coerceText_eq_value_iff]

/-- A typed value carries the type it was coerced to. -/
theorem Coerced.type_eq {text : String} {t : ValueType} {s : Settings} {c : Catalog}
    {v : TypedValue} (h : Coerced s c text t v) : v.type = t := by
  cases h <;> rfl

theorem type_of_coerce {raw : Option String} {t : ValueType} {s : Settings} {c : Catalog}
    {v : TypedValue} (h : coerce raw t s c = .ok (.value v)) : v.type = t := by
  rcases coerce_eq_value_iff.mp h with ⟨-, rfl⟩ | ⟨-, hc⟩
  · rfl
  · exact hc.type_eq

/-- A text that is not null is coerced to nothing but values. -/
theorem Coerced.exists_value {text : String} {t : ValueType} {s : Settings} {c : Catalog}
    {v : TypedValue} (h : Coerced s c text t v) : ∃ x, v.value = some x := by
  cases h <;> exact ⟨_, rfl⟩

/-- A typed value is null exactly if it was read from a null cell. -/
theorem isNull_of_coerce {raw : Option String} {t : ValueType} {s : Settings} {c : Catalog}
    {v : TypedValue} (h : coerce raw t s c = .ok (.value v)) :
    v.isNull = true ↔ isNull raw s = true := by
  rcases coerce_eq_value_iff.mp h with ⟨hnull, rfl⟩ | ⟨hnull, hv⟩
  · exact iff_of_true rfl hnull
  · -- a text that is not null is coerced to nothing but values
    obtain ⟨x, hx⟩ := hv.exists_value
    exact iff_of_false (by simp [TypedValue.isNull, hx]) (by simp [hnull])

/-- A real number has a value. -/
theorem TypedValue.exists_value_of_isRealNumber {v : TypedValue} (h : v.isRealNumber = true) :
    ∃ x, v.value = some x :=
  Option.isSome_iff_exists.mp (Bool.and_eq_true_iff.mp h).2

/-! ### Numbers -/

/-- The numbers of a numeric type: integers of no more digits than are read, finite reals, and
complex numbers with finite parts. -/
inductive NumberOf : ValueType → Value → Prop
  | integer (n : Int) (h : (Nat.toDigits 10 n.natAbs).length ≤ digitLimit) :
      NumberOf .integer (.integer n)
  | floatingPoint (s : Bool) (m : Magnitude) : NumberOf .floatingPoint (.real (.finite s m))
  | scientific (s : Bool) (m : Magnitude) : NumberOf .scientific (.real (.finite s m))
  | complex (s s' : Bool) (m m' : Magnitude) :
      NumberOf .complex (.complex (.finite s m) (.finite s' m'))

theorem Double.exists_eq_finite {x : Double} (h : x.isFinite = true) :
    ∃ s m, x = .finite s m := by
  cases x with
  | finite s m => exact ⟨s, m, rfl⟩
  | infinite s => simp [Double.isFinite] at h
  | nan => simp [Double.isFinite] at h

private theorem finiteReal?_eq_some {x : Double} {v : Value} (h : finiteReal? x = some v) :
    ∃ s m, v = .real (.finite s m) := by
  rw [finiteReal?, Option.ite_none_right_eq_some, Option.some.injEq] at h
  obtain ⟨s, m, rfl⟩ := Double.exists_eq_finite h.1
  exact ⟨s, m, h.2.symm⟩

/-- An integer of at most as many digits as are read is written with no more. -/
theorem length_toDigits_digitsValue {ds : List Char} (h : ds.length ≤ digitLimit) :
    (Nat.toDigits 10 (Text.digitsValue ds)).length ≤ digitLimit := by
  refine (Nat.length_toDigits_le_iff (by decide) (by decide)).mpr ?_
  exact (Text.digitsValue_lt ds).trans_le (Nat.pow_le_pow_right (by decide) h)

/-- What is read as a number of a type is one of its numbers. -/
theorem numberOf_of_readNumber {t : ValueType} {cs : List Char} {v : Value}
    (h : readNumber t cs = .ok (some v)) : NumberOf t v := by
  cases t with
  | integer =>
    simp only [readNumber] at h
    split at h
    · simp at h
    · rename_i negative ds _
      have hlimit : ¬ digitLimit < ds.length := fun hlt => by simp [hlt] at h
      rw [if_neg hlimit] at h
      obtain ⟨n, hn, rfl⟩ : ∃ n : Int, n.natAbs = Text.digitsValue ds ∧ v = .integer n :=
        ⟨_, by cases negative <;> simp, (Option.some.inj (Except.ok.inj h)).symm⟩
      have hlen := length_toDigits_digitsValue (Nat.not_lt.mp hlimit)
      rw [← hn] at hlen
      exact .integer n hlen
  | floatingPoint =>
    obtain ⟨p, -, hp⟩ := Option.bind_eq_some_iff.mp (Except.ok.inj h)
    obtain ⟨s, m, rfl⟩ := finiteReal?_eq_some hp
    exact .floatingPoint s m
  | scientific =>
    obtain ⟨p, -, hp⟩ := Option.bind_eq_some_iff.mp (Except.ok.inj h)
    obtain ⟨-, hp⟩ := Option.ite_none_right_eq_some.mp hp
    obtain ⟨s, m, rfl⟩ := finiteReal?_eq_some hp
    exact .scientific s m
  | complex =>
    obtain ⟨⟨re, im⟩, -, hp⟩ := Option.bind_eq_some_iff.mp (Except.ok.inj h)
    obtain ⟨hfin, hv⟩ := Option.ite_none_right_eq_some.mp hp
    obtain ⟨hre, him⟩ := Bool.and_eq_true_iff.mp hfin
    obtain ⟨s, m, rfl⟩ := Double.exists_eq_finite hre
    obtain ⟨s', m', rfl⟩ := Double.exists_eq_finite him
    exact Option.some.inj hv ▸ .complex s s' m m'
  | boolean => simp [readNumber] at h
  | dateTime => simp [readNumber] at h
  | string => simp [readNumber] at h

/-- A number of a type equals itself, since no part of it is incomparable. -/
theorem NumberOf.equal_self {t : ValueType} {v : Value} (h : NumberOf t v) : v.equal v = true := by
  cases h <;> simp [Value.equal, Double.eq]

/-! ### Values equal themselves -/

/-- The value that a text is coerced to equals itself. -/
theorem Coerced.equal_self {text : String} {t : ValueType} {s : Settings} {c : Catalog}
    {v : TypedValue} {x : Value} (h : Coerced s c text t v) (hx : v.value = some x) :
    x.equal x = true := by
  cases h with
  | text =>
    obtain rfl := Option.some.inj hx
    simp [Value.equal]
  | boolean b h =>
    obtain rfl := Option.some.inj hx
    simp [Value.equal]
  | dateTime f d h =>
    obtain rfl := Option.some.inj hx
    simp [Value.equal]
  | number t y h =>
    obtain rfl := Option.some.inj hx
    exact (numberOf_of_readNumber h).equal_self

end TableRules
