import TableRules.Proofs.Number.GroupedNumbers
import TableRules.Proofs.Results
import TableRules.Proofs.RulesText.Lexemes

/-!
# Real literals

`IsRealLiteral` is the grammar of unsigned reals: digits, or digits around a point, and an exponent
that may be left out.

`Unsigned.scan?` takes a literal off the front of a text (`Unsigned.exists_of_scan?`), and it takes
off a given one whenever what follows cannot go on with it (`IsRealLiteral.exists_scan?`). So there
is at most one way to cut a text into a literal and such a rest (`IsRealLiteral.append_inj`).
-/

namespace TableRules

open Lexeme (IsDigits IsExponent IsOptionalSign)

variable {cs lit lit' rest rest' : List Char} {u : Unsigned}

/-- An unsigned real as written: digits, of which some may stand behind a point, and an exponent.
The digits on one side of the point may be missing. -/
inductive IsRealLiteral : List Char → Prop
  | whole {ds exponent : List Char} (hds : IsDigits ds) (hexponent : IsExponent exponent) :
      IsRealLiteral (ds ++ exponent)
  | point {ds fs exponent : List Char} (hne : ds ≠ [] ∨ fs ≠ [])
      (hds : ∀ c ∈ ds, Text.isDigit c = true) (hfs : ∀ c ∈ fs, Text.isDigit c = true)
      (hexponent : IsExponent exponent) : IsRealLiteral (ds ++ '.' :: (fs ++ exponent))

/-! ### Signs -/

theorem isOptionalSign_optionalSign (sign : Option Bool) : IsOptionalSign (optionalSign sign) := by
  rcases sign with _ | _ | _ <;> simp [IsOptionalSign, optionalSign]

theorem exists_eq_optionalSign (h : IsOptionalSign cs) : ∃ sign, cs = optionalSign sign := by
  rcases h with rfl | rfl | rfl
  · exact ⟨none, rfl⟩
  · exact ⟨some false, rfl⟩
  · exact ⟨some true, rfl⟩

/-- What is taken off as a sign is one. -/
theorem exists_optionalSign (cs : List Char) :
    ∃ sign, cs = optionalSign sign ++ (scanSign cs).2 ∧ (scanSign cs).1 = sign.getD false := by
  unfold scanSign
  split
  · exact ⟨some true, rfl, rfl⟩
  · exact ⟨some false, rfl, rfl⟩
  · exact ⟨none, rfl, rfl⟩

theorem optionalSign_injective : Function.Injective optionalSign := by
  rintro (_ | _ | _) (_ | _ | _) h <;> simp_all [optionalSign]

/-- A sign that may be left out is determined by what it stands in front of. -/
theorem optionalSign_append_inj {sign sign' : Option Bool}
    (hcs : ∀ c ∈ rest.head?, c ≠ '+' ∧ c ≠ '-') (hcs' : ∀ c ∈ rest'.head?, c ≠ '+' ∧ c ≠ '-')
    (h : optionalSign sign ++ rest = optionalSign sign' ++ rest') :
    sign = sign' ∧ rest = rest' := by
  have hscan := congrArg scanSign h
  rw [scanSign_optionalSign sign hcs, scanSign_optionalSign sign' hcs'] at hscan
  obtain rfl := (Prod.mk.inj hscan).2
  exact ⟨optionalSign_injective (List.append_cancel_right h), rfl⟩

/-- Digits do not start with a sign. -/
theorem Lexeme.IsDigits.head_append {ds : List Char} (h : IsDigits ds) (rest : List Char) :
    ∀ c ∈ (ds ++ rest).head?, c ≠ '+' ∧ c ≠ '-' := by
  obtain ⟨d, ds, rfl⟩ := List.exists_cons_of_ne_nil h.1
  exact fun c hc => Option.some.inj hc ▸ ne_sign_of_isDigit (h.2 d List.mem_cons_self)

/-! ### Exponents -/

namespace Unsigned

theorem stops_nil : Stops [] := by simp [Stops]

/-- What is taken off as an exponent is one. -/
private theorem exists_of_scanExponent (cs : List Char) :
    ∃ exponent, IsExponent exponent ∧ cs = exponent ++ (scanExponent cs).2 := by
  cases cs with
  | nil => exact ⟨[], .none, rfl⟩
  | cons c rest =>
    obtain ⟨sign, hrest, -⟩ := exists_optionalSign rest
    simp only [scanExponent]
    split_ifs with hletter hnil
    · exact ⟨[], .none, rfl⟩
    · have hdigits : IsDigits (digits (scanSign rest).2) :=
        ⟨by simpa using hnil, fun a ha => List.mem_takeWhile_imp ha⟩
      refine ⟨c :: (optionalSign sign ++ digits (scanSign rest).2),
        .some (by simpa using hletter) (isOptionalSign_optionalSign sign) hdigits, ?_⟩
      rw [digits, afterDigits, List.cons_append, List.append_assoc,
        List.takeWhile_append_dropWhile, ← hrest]
    · exact ⟨[], .none, rfl⟩

/-- An exponent is taken off as a whole. -/
private theorem exists_scanExponent {exponent : List Char} (h : IsExponent exponent) :
    ∃ e, ∀ rest, Stops rest → scanExponent (exponent ++ rest) = (e, rest) := by
  cases h with
  | none =>
    refine ⟨none, fun rest hrest => ?_⟩
    cases rest with
    | nil => rfl
    | cons c rest =>
      obtain ⟨-, -, he, hE⟩ := hrest c rfl
      simp [scanExponent, he, hE]
  | @some e signChars ds he hsign hds =>
    obtain ⟨sign, rfl⟩ := exists_eq_optionalSign hsign
    exact ⟨some (sign.getD false, ds), fun rest hrest =>
      scanExponent_append sign he hds.1 hds.2 fun c hc => (hrest c hc).1⟩

/-- Neither an exponent nor what ends a literal starts with a digit or a point. -/
private theorem head_exponent_append {exponent : List Char} (h : IsExponent exponent)
    (hrest : Stops rest) :
    ∀ c ∈ (exponent ++ rest).head?, Text.isDigit c = false ∧ c ≠ '.' := by
  cases h with
  | none => exact fun c hc => ⟨(hrest c hc).1, (hrest c hc).2.1⟩
  | some he =>
    intro c hc
    obtain rfl := Option.some.inj hc
    rcases he with rfl | rfl <;> decide

/-! ### Literals -/

/-- **What is taken off as an unsigned real is one.** -/
theorem exists_of_scan? (h : scan? cs = some (u, rest)) :
    ∃ lit, IsRealLiteral lit ∧ cs = lit ++ rest := by
  have hdigits : ∀ cs, ∀ c ∈ digits cs, Text.isDigit c = true := fun cs c hc =>
    List.mem_takeWhile_imp hc
  have happend : ∀ cs, cs = digits cs ++ afterDigits cs := fun cs =>
    List.takeWhile_append_dropWhile.symm
  rw [scan?] at h
  split at h
  · rename_i r hafter
    obtain ⟨exponent, hexponent, hr⟩ := exists_of_scanExponent (afterDigits r)
    rw [Option.ite_none_left_eq_some] at h
    obtain ⟨hne, heq⟩ := h
    have hrest : (scanExponent (afterDigits r)).2 = rest := (Prod.mk.inj (Option.some.inj heq)).2
    refine ⟨digits cs ++ '.' :: (digits r ++ exponent),
      .point (by simpa [imp_iff_not_or] using hne) (hdigits cs) (hdigits r) hexponent, ?_⟩
    conv_lhs => rw [happend cs, hafter, happend r, hr, hrest]
    simp
  · obtain ⟨exponent, hexponent, hr⟩ := exists_of_scanExponent (afterDigits cs)
    rw [Option.ite_none_left_eq_some] at h
    obtain ⟨hne, heq⟩ := h
    have hrest : (scanExponent (afterDigits cs)).2 = rest := (Prod.mk.inj (Option.some.inj heq)).2
    refine ⟨digits cs ++ exponent, .whole ⟨by simpa using hne, hdigits cs⟩ hexponent, ?_⟩
    rw [List.append_assoc, ← hrest, ← hr]
    exact happend cs

/-- Nothing is taken off what cannot go on with a literal. -/
theorem scan?_eq_none (h : Stops rest) : scan? rest = none := by
  cases rest with
  | nil => rfl
  | cons c rest =>
    obtain ⟨hdigit, hpoint, -⟩ := h c rfl
    have hdigits : digits (c :: rest) = [] := by simp [digits, hdigit]
    have hafter : afterDigits (c :: rest) = c :: rest := by simp [afterDigits, hdigit]
    rw [scan?, hdigits, hafter]
    dsimp only
    split
    · rename_i heq
      exact absurd (List.cons.inj heq).1 hpoint
    · rfl

end Unsigned

namespace IsRealLiteral

open Unsigned

/-- **A literal is taken off** whatever follows, as long as that cannot go on with it. -/
theorem exists_scan? (h : IsRealLiteral lit) :
    ∃ u, ∀ rest, Stops rest → scan? (lit ++ rest) = some (u, rest) := by
  cases h with
  | @whole ds exponent hds hexponent =>
    obtain ⟨e, he⟩ := exists_scanExponent hexponent
    refine ⟨⟨ds, [], e⟩, fun rest hrest => ?_⟩
    rw [List.append_assoc]
    exact scan?_digits hds.1 hds.2 (head_exponent_append hexponent hrest) (he rest hrest)
  | @point ds fs exponent hne hds hfs hexponent =>
    obtain ⟨e, he⟩ := exists_scanExponent hexponent
    refine ⟨⟨ds, fs, e⟩, fun rest hrest => ?_⟩
    rw [List.append_assoc, List.cons_append, List.append_assoc]
    exact scan?_point hne hds hfs (fun c hc => (head_exponent_append hexponent hrest c hc).1)
      (he rest hrest)

/-- Only the empty rest is left behind a literal that is read alone. -/
theorem exists_scan?_eq (h : IsRealLiteral lit) :
    ∃ u, scan? lit = some (u, []) ∧ ∀ rest, Stops rest → scan? (lit ++ rest) = some (u, rest) := by
  obtain ⟨u, hu⟩ := h.exists_scan?
  have halone := hu [] stops_nil
  rw [List.append_nil] at halone
  exact ⟨u, halone, hu⟩

/-- **A text is cut in one way** into a literal and what cannot go on with it. -/
theorem append_inj (h : IsRealLiteral lit) (h' : IsRealLiteral lit') (hrest : Stops rest)
    (hrest' : Stops rest') (heq : lit ++ rest = lit' ++ rest') : lit = lit' ∧ rest = rest' := by
  obtain ⟨u, hu⟩ := h.exists_scan?
  obtain ⟨u', hu'⟩ := h'.exists_scan?
  have hscan : some (u, rest) = some (u', rest') := by rw [← hu rest hrest, ← hu' rest' hrest', heq]
  obtain ⟨-, rfl⟩ := Prod.mk.inj (Option.some.inj hscan)
  exact ⟨List.append_cancel_right heq, rfl⟩

/-- A literal does not start with a sign. -/
theorem head_append (h : IsRealLiteral lit) (rest : List Char) :
    ∀ c ∈ (lit ++ rest).head?, c ≠ '+' ∧ c ≠ '-' := by
  intro c hc
  cases h with
  | whole hds =>
    rw [List.append_assoc] at hc
    exact hds.head_append _ c hc
  | @point ds fs exponent _ hds =>
    rw [List.append_assoc] at hc
    cases ds with
    | nil =>
      obtain rfl : '.' = c := Option.some.inj hc
      decide
    | cons d ds => exact IsDigits.head_append ⟨List.cons_ne_nil d ds, hds⟩ _ c hc

end IsRealLiteral

/-- In front of what cannot go on with a literal, a literal is read as it is read alone. -/
theorem Unsigned.scan?_eq_some_iff (hrest : Stops rest) :
    scan? cs = some (u, rest) ↔
      ∃ lit, IsRealLiteral lit ∧ cs = lit ++ rest ∧ scan? lit = some (u, []) := by
  constructor
  · intro h
    obtain ⟨lit, hlit, rfl⟩ := exists_of_scan? h
    obtain ⟨u', halone, hu'⟩ := hlit.exists_scan?_eq
    obtain rfl : u' = u := (Prod.mk.inj (Option.some.inj ((hu' rest hrest).symm.trans h))).1
    exact ⟨lit, hlit, rfl, halone⟩
  · rintro ⟨lit, hlit, rfl, halone⟩
    obtain ⟨u', halone', hu'⟩ := hlit.exists_scan?_eq
    obtain rfl : u' = u := (Prod.mk.inj (Option.some.inj (halone'.symm.trans halone))).1
    exact hu' rest hrest

/-! ### Signed literals -/

/-- A real is read exactly if a literal stands behind its sign. -/
theorem readReal?_eq_some_iff {negative : Bool} :
    readReal? cs = some (negative, u) ↔
      (scanSign cs).1 = negative ∧ Unsigned.scan? (scanSign cs).2 = some (u, []) := by
  rw [readReal?]
  dsimp only
  split
  · rename_i v hscan
    rw [hscan]
    simp
  · rename_i hscan
    refine iff_of_false (by simp) fun h => ?_
    exact hscan u h.2

/-- An integer is read exactly if digits stand behind its sign. -/
theorem readInteger?_eq_some_iff_scanSign {negative : Bool} {ds : List Char} :
    readInteger? cs = some (negative, ds) ↔ scanSign cs = (negative, ds) ∧ IsDigits ds := by
  rw [readInteger?]
  dsimp only
  rw [Option.ite_none_right_eq_some, Option.some.injEq, Prod.ext_iff, and_comm]
  refine and_congr_right fun h => ?_
  obtain ⟨-, rfl⟩ := h
  simp [IsDigits]

/-- An integer is read exactly from an optional sign and digits. -/
theorem readInteger?_eq_some_iff {negative : Bool} {ds : List Char} :
    readInteger? cs = some (negative, ds) ↔
      ∃ sign, IsOptionalSign sign ∧ IsDigits ds ∧ cs = sign ++ ds ∧
        negative = decide (sign = ['-']) := by
  have hminus : ∀ sign, sign.getD false = decide (optionalSign sign = ['-']) := by
    rintro (_ | _ | _) <;> rfl
  rw [readInteger?_eq_some_iff_scanSign]
  constructor
  · rintro ⟨hscan, hds⟩
    obtain ⟨sign, hcs, hsign⟩ := exists_optionalSign cs
    rw [hscan] at hcs hsign
    exact ⟨_, isOptionalSign_optionalSign sign, hds, hcs, hsign.trans (hminus sign)⟩
  · rintro ⟨signChars, hsign, hds, rfl, rfl⟩
    obtain ⟨sign, rfl⟩ := exists_eq_optionalSign hsign
    have hhead : ∀ c ∈ ds.head?, c ≠ '+' ∧ c ≠ '-' := by simpa using hds.head_append []
    rw [scanSign_optionalSign sign hhead, hminus]
    exact ⟨rfl, hds⟩

/-! ### Numbers of a type -/

variable {v : Value} {x : Double}

/-- A number of a type is read from its normalized text. -/
theorem parseNumber_eq (text : String) (s : Settings) (t : ValueType) :
    parseNumber text s t = (readNumber t (normalizeNumber (Text.trim text) s).toList).map
      (Option.map (·, normalizeNumber (Text.trim text) s)) := by
  rw [parseNumber, normalizeNumber, Text.trim, String.toList_ofList, String.toList_ofList]

theorem parseNumber_eq_ok_iff {text n : String} {s : Settings} {t : ValueType} :
    parseNumber text s t = .ok (some (v, n)) ↔
      n = normalizeNumber (Text.trim text) s ∧ readNumber t n.toList = .ok (some v) := by
  simp only [parseNumber_eq, Result.map_eq_ok_iff, Option.map_eq_some_iff, Prod.mk.injEq]
  constructor
  · rintro ⟨_, hread, _, rfl, rfl, rfl⟩
    exact ⟨rfl, hread⟩
  · rintro ⟨rfl, hread⟩
    exact ⟨_, hread, v, rfl, rfl, rfl⟩

theorem finiteReal?_eq_some_iff : finiteReal? x = some v ↔ x.isFinite = true ∧ v = .real x := by
  rw [finiteReal?, Option.ite_none_right_eq_some, Option.some.injEq, eq_comm (a := v)]

end TableRules
