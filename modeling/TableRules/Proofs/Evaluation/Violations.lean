import TableRules.Proofs.Evaluation.Cells

/-!
# A cell satisfies a constraint when it does not violate its check

A constraint is made into a check (`Check.ofConstraint`), and a check looks for a violation in a
cell (`Check.violation?`). The module follows a check through its conditions, from relations of
numbers to membership in a set and uniqueness, and ends with `violation?_eq_none_iff`: wherever the
check gives an answer, the cell violates it exactly when the raw cell does not satisfy the
constraint.
-/

namespace TableRules.Check

/-! ### Conditions -/

theorem demand_eq_none_iff {holds : Bool} {v : Violation} :
    demand holds v = none ↔ holds = true := by
  cases holds <;> simp [demand]

theorem isClose_iff {precision a b : Double} :
    isClose precision a b = true ↔ Close precision a b :=
  Iff.rfl

theorem relates_iff {precision a bound : Double} {op : Comparison} :
    relates precision a bound op = true ↔ op.Holds precision a bound := by
  cases op <;> simp [relates, Comparison.Holds, ← isClose_iff]

theorem keeps_iff {bound : LengthBound} {length limit : Nat} :
    keeps bound length limit = true ↔ bound.Holds length limit := by
  cases bound <;> simp [keeps, LengthBound.Holds]

/-- A part is found exactly when it is a stretch of the text. -/
theorem includes_iff {s part : String} :
    Text.includes s part = true ↔ part.toList <:+: s.toList := by
  rw [Text.includes, Text.isPartOf_iff]
  exact exists_congr fun before => exists_congr fun after => eq_comm

theorem hasPart_iff {condition : PartCondition} {text piece : String} :
    hasPart condition text piece = true ↔ condition.Holds text.toList piece.toList := by
  cases condition with
  | starts => simp [hasPart, PartCondition.Holds, Text.startsWith]
  | ends => simp [hasPart, PartCondition.Holds, Text.endsWith]
  | includes => exact includes_iff
  | excludes =>
    rw [hasPart, Bool.not_eq_true', Bool.eq_false_iff, ne_eq, includes_iff]
    rfl

/-! ### Real numbers -/

variable {col : RawColumn} {raw : Option String} {cell : Cell}

/-- On a cell that was read as a real number, a check on a real number is what is asked of it. -/
theorem onReal_of_value {v : TypedValue} {x : Value} (hv : cell.reading = some (.value v))
    (hreal : v.isRealNumber = true) (hx : v.value = some x)
    (f : TypedValue → Value → Except NumberFault (Option Violation)) : onReal cell f = f v x := by
  rw [onReal, hv]
  simp only [hreal, hx]

/-- A check on a real number finds the same violation whatever is asked of the number, or the cell
was read as one. -/
theorem onReal_cases (cell : Cell) :
    (∃ v, ∀ f, onReal cell f = .ok (some v)) ∨
      ∃ v x, cell.reading = some (.value v) ∧ v.isRealNumber = true ∧ v.value = some x := by
  unfold onReal
  split
  · exact .inl ⟨_, fun _ => rfl⟩
  · exact .inl ⟨_, fun _ => rfl⟩
  · rename_i v hv
    split
    · rename_i x hreal hx
      exact .inr ⟨v, x, hv, hreal, hx⟩
    · exact .inl ⟨_, fun _ => rfl⟩

/-- A check on a real number finds no violation when the cell is read as one that the rest of the
check accepts. -/
theorem onReal_eq_none_iff (hs : cell.Shows col raw)
    {f : TypedValue → Value → Except NumberFault (Option Violation)} :
    onReal cell f = .ok none ↔
      ∃ t v x, col.type = some t ∧ t.isReal = true ∧ col.CoercesTo raw t v ∧ v.value = some x ∧
        f v x = .ok none := by
  constructor
  · intro h
    obtain ⟨v, hv⟩ | ⟨v, x, hv, hreal, hx⟩ := onReal_cases cell
    · simp [hv] at h
    · obtain ⟨t, ht, hc⟩ := hs.reading_value_iff.mp hv
      rw [onReal_of_value hv hreal hx] at h
      have hvt : v.type = t := type_of_coerce hc
      simp only [TypedValue.isRealNumber, hvt, hx, Option.isSome_some, Bool.and_true] at hreal
      exact ⟨t, v, x, ht, hreal, hc, hx, h⟩
  · rintro ⟨t, v, x, ht, hreal, hc, hx, hf⟩
    have hv := hs.reading_value_iff.mpr ⟨t, ht, hc⟩
    have hvt : v.type = t := type_of_coerce hc
    rw [onReal_of_value hv (by simp [TypedValue.isRealNumber, hvt, hreal, hx]) hx, hf]

/-- A cell has a real value exactly when its raw cell is read as a real number. -/
theorem typed_isReal_iff (hs : cell.Shows col raw) {v : TypedValue} {x : Value} :
    (cell.typed? = some v ∧ v.isRealNumber = true ∧ v.value = some x) ↔
      ∃ t, col.type = some t ∧ t.isReal = true ∧ col.CoercesTo raw t v ∧ v.value = some x := by
  rw [Cell.typed?_eq_some_iff, hs.reading_value_iff]
  constructor
  · rintro ⟨⟨t, ht, hc⟩, hreal, hx⟩
    have hvt : v.type = t := type_of_coerce hc
    simp only [TypedValue.isRealNumber, hvt, hx, Option.isSome_some, Bool.and_true] at hreal
    exact ⟨t, ht, hreal, hc, hx⟩
  · rintro ⟨t, ht, hreal, hc, hx⟩
    have hvt : v.type = t := type_of_coerce hc
    exact ⟨⟨t, ht, hc⟩, by simp [TypedValue.isRealNumber, hvt, hreal, hx], hx⟩

/-! ### Sets -/

/-- The number of a cell for the comparison with a set is its real value, or else its text read once
more, whatever the type of the column. -/
theorem setNumber_cases (settings : Settings) (cell : Cell) :
    (∃ v x, cell.typed? = some v ∧ v.isRealNumber = true ∧ v.value = some x ∧
        setNumber settings cell = x.toDouble.map some) ∨
      (¬ ∃ v x, cell.typed? = some v ∧ v.isRealNumber = true ∧ v.value = some x) ∧
        setNumber settings cell = .ok (parseReal? cell.text settings) := by
  by_cases h : ∃ v x, cell.typed? = some v ∧ v.isRealNumber = true ∧ v.value = some x
  · obtain ⟨v, x, hv, hreal, hx⟩ := h
    exact .inl ⟨v, x, hv, hreal, hx, by simp only [setNumber, hv, hreal, hx]⟩
  · refine .inr ⟨h, ?_⟩
    unfold setNumber
    split
    · rename_i v hv
      split
      · rename_i x hreal hx
        exact absurd ⟨v, x, hv, hreal, hx⟩ h
      · rfl
    · rfl

/-- Where a cell has a number for the comparison with a set, it is the one of its raw cell. -/
theorem setNumber_eq_iff (hs : cell.Shows col raw) {o : Option Double}
    (h : setNumber col.settings cell = .ok o) (a : Double) :
    o = some a ↔ col.HasSetNumber raw a := by
  obtain ⟨v, x, hv, hreal, hx, hnumber⟩ | ⟨hno, hnumber⟩ := setNumber_cases col.settings cell
  · -- a real value is compared as it is, and it is the only one the raw cell can have
    obtain ⟨t, ht, htr, hc, -⟩ := (typed_isReal_iff hs).mp ⟨hv, hreal, hx⟩
    obtain ⟨y, hy, rfl⟩ := Result.map_eq_ok_iff.mp (hnumber.symm.trans h)
    have hreads : col.ReadsReal raw v.text x := ⟨t, v, ht, htr, hc, hx, rfl⟩
    constructor
    · rintro ha
      obtain rfl := Option.some.inj ha
      exact .inl ⟨v.text, x, hreads, hy⟩
    · rintro (hnumber | ⟨hno, -⟩)
      · have hnumber' : col.HasNumber raw y := ⟨v.text, x, hreads, hy⟩
        exact congrArg some (hnumber'.unique hnumber)
      · exact absurd ⟨v.text, x, hreads⟩ hno
  · obtain rfl := Except.ok.inj (hnumber.symm.trans h)
    have hno : ¬ ∃ text x, col.ReadsReal raw text x := by
      rintro ⟨w, x, t, v, ht, htr, hc, hx, -⟩
      exact hno ⟨v, x, (typed_isReal_iff hs).mpr ⟨t, ht, htr, hc, hx⟩⟩
    rw [hs.text_eq]
    exact ⟨fun ha => .inr ⟨hno, ha⟩, fun ha => ha.elim
      (fun ⟨w, x, hx, _⟩ => absurd ⟨w, x, hx⟩ hno) fun ha => ha.2⟩

theorem mem_itemTexts_iff {items : List SetItem} {s : String} :
    s ∈ itemTexts items ↔ ∃ w, .text w ∈ items ∧ w.value = s := by
  rw [itemTexts, List.mem_filterMap]
  constructor
  · rintro ⟨item, hmem, h⟩
    cases item with
    | text w => exact ⟨w, hmem, Option.some.inj h⟩
    | number n => simp at h
  · rintro ⟨w, hmem, rfl⟩
    exact ⟨.text w, hmem, rfl⟩

theorem mem_itemNumbers_iff {items : List SetItem} {n : Number} :
    n ∈ itemNumbers items ↔ .number n ∈ items := by
  rw [itemNumbers, List.mem_filterMap]
  constructor
  · rintro ⟨item, hmem, h⟩
    cases item with
    | text w => simp at h
    | number m => exact Option.some.inj h ▸ hmem
  · exact fun hmem => ⟨.number n, hmem, rfl⟩

theorem bound_eq_ok_iff {n : Number} {b : Double} : bound n = .ok b ↔ n.toDouble? = some b := by
  unfold bound
  cases n.toDouble? <;> simp

/-- The numbers of a set's check are the numbers of the set, as doubles. -/
theorem mem_bounds_iff {items : List SetItem} {numbers : List Double}
    (h : (itemNumbers items).mapM bound = .ok numbers) {b : Double} :
    b ∈ numbers ↔ ∃ n, .number n ∈ items ∧ n.toDouble? = some b := by
  have hall := Result.mapM_eq_ok_iff.mp h
  constructor
  · intro hb
    obtain ⟨n, hn, hnb⟩ := Result.exists_mem_of_forall₂ hall.flip hb
    exact ⟨n, mem_itemNumbers_iff.mp hn, bound_eq_ok_iff.mp hnb⟩
  · rintro ⟨n, hn, hnb⟩
    obtain ⟨b', hb', hnb'⟩ := Result.exists_mem_of_forall₂ hall
      (mem_itemNumbers_iff.mpr hn)
    rw [bound_eq_ok_iff.mp hnb'] at hnb
    exact Option.some.inj hnb ▸ hb'

/-- A cell is found in a set exactly when its raw cell is a member. -/
theorem isMember_iff (hs : cell.Shows col raw) {items : List SetItem} {numbers : List Double}
    (hn : (itemNumbers items).mapM bound = .ok numbers) {found : Bool}
    (h : isMember col.settings (itemTexts items) numbers cell = .ok found) :
    found = true ↔ col.InSet raw items := by
  have htext : (itemTexts items).contains cell.text = true ↔
      ∃ w, .text w ∈ items ∧ w.value = RawColumn.trimmed raw := by
    rw [List.contains_iff_mem, hs.text_eq, mem_itemTexts_iff]
  unfold isMember at h
  split at h
  · rename_i hmem
    obtain rfl := Except.ok.inj h
    exact ⟨fun _ => .inl (htext.mp hmem), fun _ => rfl⟩
  · rename_i hmem
    have hno := fun hw => hmem (htext.mpr hw)
    split at h
    · -- without numbers in the set none is read of the cell, and none is missed
      rename_i hempty
      obtain rfl := Except.ok.inj h
      refine ⟨fun hf => absurd hf (by simp), ?_⟩
      rintro (hw | ⟨n, b, a, hmem, hb, -, -⟩)
      · exact absurd hw hno
      · have := (mem_bounds_iff hn).mpr ⟨n, hmem, hb⟩
        rw [List.isEmpty_iff.mp hempty] at this
        exact absurd this List.not_mem_nil
    · obtain ⟨o, ho, rfl⟩ := Result.map_eq_ok_iff.mp h
      rw [Option.any_eq_true]
      constructor
      · rintro ⟨a, ha, hany⟩
        obtain ⟨b, hb, hclose⟩ := List.any_eq_true.mp hany
        obtain ⟨n, hmem, hnb⟩ := (mem_bounds_iff hn).mp hb
        exact .inr ⟨n, b, a, hmem, hnb, (setNumber_eq_iff hs ho a).mp ha, hclose⟩
      · rintro (hw | ⟨n, b, a, hmem, hnb, ha, hclose⟩)
        · exact absurd hw hno
        · exact ⟨a, (setNumber_eq_iff hs ho a).mpr ha,
            List.any_eq_true.mpr ⟨b, (mem_bounds_iff hn).mpr ⟨n, hmem, hnb⟩, hclose⟩⟩

/-! ### Uniqueness -/

/-- In a list without repetition, a test that a member passes is passed by at most one member
exactly when no other member passes it. -/
private theorem length_filter_le_one_iff {α : Type} {p : α → Bool} {xs : List α}
    (hnd : xs.Nodup) {x : α} (hx : x ∈ xs) (hp : p x = true) :
    (xs.filter p).length ≤ 1 ↔ ∀ y ∈ xs, p y = true → y = x := by
  have hxf : x ∈ xs.filter p := List.mem_filter.mpr ⟨hx, hp⟩
  constructor
  · intro hlen y hy hpy
    have hyf : y ∈ xs.filter p := List.mem_filter.mpr ⟨hy, hpy⟩
    obtain ⟨a, ha⟩ := List.length_eq_one_iff.mp
      (Nat.le_antisymm hlen (List.length_pos_of_mem hxf))
    rw [ha, List.mem_singleton] at hxf hyf
    rw [hxf, hyf]
  · intro hall
    have hsub : xs.filter p ⊆ [x] := fun y hy =>
      List.mem_singleton.mpr (hall y (List.mem_filter.mp hy).1 (List.mem_filter.mp hy).2)
    exact (List.subperm_of_subset (hnd.filter p) hsub).length_le

/-- The key of a cell occurs once exactly when no other cell that is not null has it. -/
theorem occurrences_le_one_iff {cells : List Cell} (hcol : Cell.ShowsColumn col cells)
    (hmem : cell ∈ cells) (hs : cell.Shows col raw) (hnull : cell.isNull = false) :
    Cell.occurrences cells cell ≤ 1 ↔
      ∀ row' raw', col.HasCell row' raw' → row' ≠ cell.row → ¬ col.IsNull raw' →
        ¬ col.SameKey raw raw' := by
  -- the count includes the cell itself, which has its own key
  have hnd : cells.Nodup := hcol.increasing.imp fun hlt heq => by
    rw [heq] at hlt
    exact Nat.lt_irrefl _ hlt
  have hself : (!cell.isNull && cell.sameKey cell) = true := by
    rw [hnull, (hs.sameKey_iff hs).mpr (RawColumn.sameKey_self raw)]
    rfl
  rw [Cell.occurrences, length_filter_le_one_iff hnd hmem hself]
  constructor
  · intro hall row' raw' hrow hne hnn hsame
    obtain ⟨other, hother, rfl, hs'⟩ := hcol.exists_cell hrow
    have hn : other.isNull = false := Bool.eq_false_iff.mpr fun h => hnn (hs'.isNull_iff.mp h)
    refine hne (congrArg Cell.row (hall other hother ?_))
    rw [hn, (hs.sameKey_iff hs').mpr hsame]
    rfl
  · intro hall other hother hp
    obtain ⟨hn, hsame⟩ := Bool.and_eq_true_iff.mp hp
    obtain ⟨raw', hrow, hs'⟩ := hcol.shows hother
    by_contra hne
    have hrow_ne : other.row ≠ cell.row := fun heq =>
      hne (hcol.eq_of_row_eq hother hmem heq)
    refine hall other.row raw' hrow hrow_ne (fun hnn => ?_) ((hs.sameKey_iff hs').mp hsame)
    rw [hs'.isNull_iff.mpr hnn] at hn
    exact absurd hn (by simp)

/-! ### Checks -/

variable {column : List Cell}

/-- A cell does not violate the check for a type exactly when its raw cell coerces to the type. -/
theorem typeViolation?_eq_none_iff {s : Settings} {c : Catalog} {t : ValueType} :
    typeViolation? s c t cell = .ok none ↔ ∃ v, coerce cell.raw t s c = .ok (.value v) := by
  rw [typeViolation?, Result.map_eq_ok_iff]
  constructor
  · rintro ⟨r, hr, h⟩
    cases r with
    | value v => exact ⟨v, hr⟩
    | misfit m => simp at h
  · rintro ⟨v, hv⟩
    exact ⟨.value v, hv, rfl⟩

/-- A cell does not violate a comparison exactly when it has a number that stands in the relation to
the bound. -/
theorem valueViolation?_compare_eq_none_iff (hs : cell.Shows col raw) {op : Comparison}
    {b : Double} :
    valueViolation? col.settings col.catalog column cell (.compare op b) = .ok none ↔
      ∃ a, col.HasNumber raw a ∧ op.Holds col.settings.precision a b := by
  rw [valueViolation?, onReal_eq_none_iff hs]
  constructor
  · rintro ⟨t, v, x, ht, hreal, hv, hx, hf⟩
    obtain ⟨a, ha, hd⟩ := Result.map_eq_ok_iff.mp hf
    exact ⟨a, ⟨v.text, x, ⟨t, v, ht, hreal, hv, hx, rfl⟩, ha⟩,
      relates_iff.mp (demand_eq_none_iff.mp hd)⟩
  · rintro ⟨a, ⟨text, x, ⟨t, v, ht, hreal, hv, hx, -⟩, ha⟩, hop⟩
    exact ⟨t, v, x, ht, hreal, hv, hx, Result.map_eq_ok_iff.mpr
      ⟨a, ha, demand_eq_none_iff.mpr (relates_iff.mpr hop)⟩⟩

/-- A cell does not violate a count of digits exactly when it is read as a real number whose text
has that many. -/
theorem valueViolation?_digits_eq_none_iff (hs : cell.Shows col raw) {kind : DigitKind}
    {count : Nat} :
    valueViolation? col.settings col.catalog column cell (.digits kind count) = .ok none ↔
      ∃ text x d, col.ReadsReal raw text x ∧ DigitCount.ofText text = .ok d ∧
        digitCount kind d = count := by
  rw [valueViolation?, onReal_eq_none_iff hs]
  constructor
  · rintro ⟨t, v, x, ht, hreal, hv, hx, hf⟩
    have hf := Except.ok.inj hf
    split at hf
    · simp at hf
    · rename_i d hd
      exact ⟨v.text, x, d, ⟨t, v, ht, hreal, hv, hx, rfl⟩, hd,
        beq_iff_eq.mp (demand_eq_none_iff.mp hf)⟩
  · rintro ⟨text, x, d, ⟨t, v, ht, hreal, hv, hx, rfl⟩, hd, hcount⟩
    refine ⟨t, v, x, ht, hreal, hv, hx, ?_⟩
    rw [hd]
    exact congrArg Except.ok (demand_eq_none_iff.mpr (beq_iff_eq.mpr hcount))

/-- A cell that is not null violates no check exactly when it meets the constraint. -/
theorem valueViolation?_eq_none_iff (hcol : Cell.ShowsColumn col column) (hmem : cell ∈ column)
    (hs : cell.Shows col raw) (hnull : cell.isNull = false) {c : Constraint} {check : Check}
    (hcheck : ofConstraint col.catalog c = .ok check) {v : Option Violation}
    (hv : check.valueViolation? col.settings col.catalog column cell = .ok v) :
    v = none ↔ col.Meets cell.row raw c := by
  have hnone : v = none ↔
      check.valueViolation? col.settings col.catalog column cell = .ok none := by
    rw [hv, Except.ok.injEq]
  cases c with
  | hasType t =>
    obtain rfl := Except.ok.inj hcheck
    rw [hnone, valueViolation?, typeViolation?_eq_none_iff, hs.raw_eq]
    rfl
  | hasFormat w =>
    rw [ofConstraint] at hcheck
    split at hcheck
    · rename_i f hf
      obtain rfl := Except.ok.inj hcheck
      rw [hnone, valueViolation?, Except.ok.injEq, demand_eq_none_iff, hs.text_eq,
        Option.isSome_iff_exists, RawColumn.Meets, hf]
      simp
    · simp at hcheck
  | required =>
    obtain rfl := Except.ok.inj hcheck
    simp [hnone, valueViolation?, RawColumn.Meets]
  | notNull =>
    obtain rfl := Except.ok.inj hcheck
    simp [hnone, valueViolation?, RawColumn.Meets]
  | null =>
    obtain rfl := Except.ok.inj hcheck
    simp [hnone, valueViolation?, RawColumn.Meets]
  | unique =>
    obtain rfl := Except.ok.inj hcheck
    rw [hnone, valueViolation?, Except.ok.injEq, demand_eq_none_iff, decide_eq_true_eq]
    exact occurrences_le_one_iff hcol hmem hs hnull
  | pattern p =>
    obtain rfl := Except.ok.inj hcheck
    rw [hnone, valueViolation?, Except.ok.injEq, demand_eq_none_iff, hs.text_eq]
    rfl
  | member allowed items =>
    obtain ⟨numbers, hn, rfl⟩ := Result.map_eq_ok_iff.mp hcheck
    obtain ⟨found, hfound, rfl⟩ := Result.map_eq_ok_iff.mp hv
    rw [demand_eq_none_iff, beq_iff_eq, RawColumn.Meets, ← isMember_iff hs hn hfound]
    exact Bool.eq_iff_iff
  | text equal w =>
    obtain rfl := Except.ok.inj hcheck
    rw [hnone, valueViolation?, Except.ok.injEq, demand_eq_none_iff, hs.text_eq, beq_iff_eq,
      Bool.eq_iff_iff, beq_iff_eq]
    rfl
  | compare op n =>
    obtain ⟨b, hb, rfl⟩ := Result.map_eq_ok_iff.mp hcheck
    rw [hnone, valueViolation?_compare_eq_none_iff hs, RawColumn.Meets, bound_eq_ok_iff.mp hb]
    simp
  | length bound limit =>
    obtain rfl := Except.ok.inj hcheck
    rw [hnone, valueViolation?, Except.ok.injEq, demand_eq_none_iff, keeps_iff, hs.text_eq]
    rfl
  | part condition w =>
    obtain rfl := Except.ok.inj hcheck
    rw [hnone, valueViolation?, Except.ok.injEq, demand_eq_none_iff, hasPart_iff, hs.text_eq]
    rfl
  | digits kind count =>
    obtain rfl := Except.ok.inj hcheck
    exact hnone.trans (valueViolation?_digits_eq_none_iff hs)

/-- A null cell violates no check exactly when the constraint accepts null cells. -/
theorem nullViolation?_eq_none_iff {catalog : Catalog} {c : Constraint} {check : Check}
    (hcheck : ofConstraint catalog c = .ok check) :
    check.nullViolation? cell = none ↔ c.AcceptsNull := by
  cases c with
  | hasFormat w =>
    rw [ofConstraint] at hcheck
    split at hcheck
    · obtain rfl := Except.ok.inj hcheck
      simp [nullViolation?, Constraint.AcceptsNull]
    · simp at hcheck
  | member allowed items =>
    obtain ⟨numbers, -, rfl⟩ := Result.map_eq_ok_iff.mp hcheck
    simp [nullViolation?, Constraint.AcceptsNull]
  | compare op n =>
    obtain ⟨b, -, rfl⟩ := Result.map_eq_ok_iff.mp hcheck
    simp [nullViolation?, Constraint.AcceptsNull]
  | _ =>
    obtain rfl := Except.ok.inj hcheck
    simp [nullViolation?, Constraint.AcceptsNull]

/-- Where a check gives an answer for a cell of a column, the cell violates the check exactly when
the raw cell does not satisfy the constraint, unless the constraint needs a type that the column
does not declare. -/
theorem violation?_eq_none_iff {cells : List Cell} (hcol : Cell.ShowsColumn col cells)
    (hmem : cell ∈ cells) (hs : cell.Shows col raw) {c : Constraint} {check : Check}
    (hcheck : ofConstraint col.catalog c = .ok check) (htype : ¬ (c.NeedsType ∧ col.type = none))
    {v : Option Violation} (hv : check.violation? col.settings col.catalog cells cell = .ok v) :
    v = none ↔ col.Satisfies cell.row raw c := by
  rw [RawColumn.Satisfies, and_iff_right htype, ← hs.isNull_iff]
  unfold violation? at hv
  split at hv
  · rename_i hnull
    obtain rfl := Except.ok.inj hv
    simp [nullViolation?_eq_none_iff hcheck, hnull]
  · rename_i hnull
    have hnull : cell.isNull = false := by simpa using hnull
    simp [valueViolation?_eq_none_iff hcol hmem hs hnull hcheck hv, hnull]

end TableRules.Check
