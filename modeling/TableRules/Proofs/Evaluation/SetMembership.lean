import TableRules.Proofs.Evaluation.RuleOutcomes

/-!
# Sets and equality

A cell of a column of real numbers is in a set when its text is one of the texts of the set, or
when it equals one of the numbers. The two rules find the number of a cell by different routes: a
comparison takes it from the value of the cell alone, and a set falls back to the text of a cell
that has no value of its type. They agree on every cell that fits its type; a cell that does not is
in a set besides when its text is that of a number close to one of the set
(`Cell.MatchesByText`). No such cell is in a column of floating-point numbers, since their texts
are the ones that are read.

* `Engine.inSet_iff_equal`: when a row passes the rule for a set, and that it then fails the rule
  against the set.
-/

namespace TableRules

open Result

/-! ### Numbers by text -/

/-- A text is read as a number of a set exactly when it is read as a floating-point number. -/
theorem parseReal?_eq_some_iff {text : String} {s : Settings} {x : Double} :
    parseReal? text s = some x ↔
      readNumber .floatingPoint (normalizeChars s (Text.trimChars text.toList))
        = .ok (some (.real x)) := by
  rw [parseReal?, readNumber]
  rcases readReal? (normalizeChars s (Text.trimChars text.toList)) with _ | ⟨negative, u⟩
  · simp
  · by_cases hfinite : (u.toDouble negative).isFinite = true <;> simp [finiteReal?, hfinite]

/-- A cell that does not fit its type is close to a number of a set by its text. -/
def Cell.MatchesByText (s : Settings) (items : List SetItem) (cell : Cell) : Prop :=
  cell.isMisfit = true ∧ ∃ n b a, .number n ∈ items ∧ n.toDouble? = some b ∧
    parseReal? cell.text s = some a ∧ Close s.precision a b

/-- Every cell of a column with a type has a reading. -/
theorem Cell.exists_reading {e : Engine} {table : Table} {column : String} {t : ValueType}
    {cells : List Cell} (h : e.cells table column (some t) = .ok cells) {cell : Cell}
    (hcell : cell ∈ cells) : ∃ r, cell.reading = some r := by
  obtain ⟨hlen, hread⟩ := readFrom_eq_ok h
  obtain ⟨i, hi, rfl⟩ := List.getElem_of_mem hcell
  obtain ⟨r, -, hr⟩ := map_eq_ok_iff.mp (hread i hi (hlen ▸ hi))
  exact ⟨r, by rw [← hr]⟩

namespace RawColumn

variable {col : RawColumn} {raw : Option String} {cell : Cell} {t : ValueType}

/-- In a column of real numbers, a cell that is not null has a real number or does not fit. -/
theorem isMisfit_iff_of_isReal (hs : cell.Shows col raw) (ht : col.type = some t)
    (hreal : t.isReal = true) (hread : ∃ r, cell.reading = some r) (hnull : ¬ col.IsNull raw) :
    cell.isMisfit = true ↔ ¬ ∃ text x, col.ReadsReal raw text x := by
  obtain ⟨r, hr⟩ := hread
  obtain ⟨t', ht', hcoerce⟩ := (hs.reading_iff r).mp hr
  obtain rfl : t = t' := Option.some.inj (ht.symm.trans ht')
  cases r with
  | value v =>
    refine iff_of_false (by simp [Cell.isMisfit, hr, Reading.isMisfit]) (not_not.mpr ?_)
    rcases coerce_eq_value_iff.mp hcoerce with ⟨hn, -⟩ | ⟨-, hv⟩
    · exact absurd (isNull_iff.mp hn) hnull
    · obtain ⟨x, hx⟩ := hv.exists_value
      exact ⟨v.text, x, t, v, ht, hreal, hcoerce, hx, rfl⟩
  | misfit m =>
    refine iff_of_true (by simp [Cell.isMisfit, hr, Reading.isMisfit]) ?_
    rintro ⟨text, x, t', v, ht', -, hv, -⟩
    obtain rfl : t = t' := Option.some.inj (ht.symm.trans ht')
    rw [CoercesTo, hcoerce] at hv
    simp at hv

/-- In a column of floating-point numbers, a text that is read as one fits. -/
theorem exists_readsReal_of_parseReal? (ht : col.type = some .floatingPoint)
    (hnull : ¬ col.IsNull raw) {a : Double} (ha : parseReal? (trimmed raw) col.settings = some a) :
    ∃ text x, col.ReadsReal raw text x := by
  have hv : Coerced col.settings col.catalog (trimmed raw) .floatingPoint _ :=
    .number _ _ (parseReal?_eq_some_iff.mp ha)
  have hnull : isNull raw col.settings = false := by
    rwa [← Bool.not_eq_true, isNull_iff]
  exact ⟨_, _, _, _, ht, rfl, coerce_eq_value_iff.mpr (.inr ⟨hnull, hv⟩), rfl, rfl⟩

/-- A row fails no rule that its cell satisfies, and any other. -/
theorem Judges.notMem_failedRows_iff {rule : Rule} {o : RuleOutcome} (h : col.Judges rule o)
    {row : Nat} (hraw : col.HasCell row raw) :
    row ∉ o.failedRows ↔ col.Satisfies row raw rule.constraint := by
  rw [h.mem_failedRows_iff]
  constructor
  · intro hnot
    by_contra hsat
    exact hnot ⟨raw, hraw, hsat⟩
  · rintro hsat ⟨raw', hraw', hnot⟩
    exact hnot (hraw.unique hraw' ▸ hsat)

/-- A cell satisfies a comparison exactly when it is not null and its number stands in the
relation. -/
theorem satisfies_compare_iff {row : Nat} {op : Comparison} {n : Number} :
    col.Satisfies row raw (.compare op n) ↔ ¬ col.IsNull raw ∧
      ∃ a b, col.HasNumber raw a ∧ n.toDouble? = some b ∧
        op.Holds col.settings.precision a b := by
  constructor
  · rintro ⟨-, ⟨-, hnull⟩ | hmeets⟩
    · exact hnull.elim
    · exact hmeets
  · rintro ⟨hnull, a, b, ⟨text, x, ⟨t, v, ht, hrest⟩, ha⟩, hb, hop⟩
    exact ⟨fun hno => by simp [ht] at hno,
      .inr ⟨hnull, a, b, ⟨text, x, ⟨t, v, ht, hrest⟩, ha⟩, hb, hop⟩⟩

/-- A cell satisfies the constraint for or against a set exactly when it is not null and is, or is
not, in the set. -/
theorem satisfies_member_iff {row : Nat} {allowed : Bool} {items : List SetItem} :
    col.Satisfies row raw (.member allowed items) ↔
      ¬ col.IsNull raw ∧ (col.InSet raw items ↔ allowed = true) := by
  simp [Satisfies, Constraint.NeedsType, Constraint.AcceptsNull, Meets]

/-- **A set in a column of real numbers** contains the texts of the set, the cells that equal a
number of the set, and the cells that do not fit but match a number by their text. -/
theorem inSet_iff_of_isReal {row : Nat} {items : List SetItem} (hs : cell.Shows col raw)
    (ht : col.type = some t) (hreal : t.isReal = true) (hread : ∃ r, cell.reading = some r)
    (hnull : ¬ col.IsNull raw) :
    col.InSet raw items ↔
      (∃ w, .text w ∈ items ∧ w.value = cell.text) ∨
        (∃ n, .number n ∈ items ∧ col.Satisfies row raw (.compare .equal n)) ∨
        t ≠ .floatingPoint ∧ cell.MatchesByText col.settings items := by
  rw [InSet, hs.text_eq]
  refine or_congr_right ?_
  constructor
  · rintro ⟨n, b, a, hn, hb, ha | ⟨hno, ha⟩, hclose⟩
    · exact .inl ⟨n, hn, satisfies_compare_iff.mpr ⟨hnull, a, b, ha, hb, hclose⟩⟩
    · refine .inr ⟨?_, (isMisfit_iff_of_isReal hs ht hreal hread hnull).mpr hno, n, b, a, hn, hb,
        hs.text_eq ▸ ha, hclose⟩
      rintro rfl
      exact hno (exists_readsReal_of_parseReal? ht hnull ha)
  · rintro (⟨n, hn, hsat⟩ | ⟨-, hmisfit, n, b, a, hn, hb, ha, hclose⟩)
    · obtain ⟨-, a, b, ha, hb, hclose⟩ := satisfies_compare_iff.mp hsat
      exact ⟨n, b, a, hn, hb, .inl ha, hclose⟩
    · exact ⟨n, b, a, hn, hb,
        .inr ⟨(isMisfit_iff_of_isReal hs ht hreal hread hnull).mp hmisfit, hs.text_eq ▸ ha⟩, hclose⟩

end RawColumn

/-! ### Rules on a column -/

namespace Engine

variable {e : Engine} {table : Table} {column : String} {t : ValueType} {cells : List Cell}

/-- A cell of a column passes a rule: the check of the rule finds no violation in it. -/
def Passes (e : Engine) (cells : List Cell) (rule : Rule) (cell : Cell) : Prop :=
  ∃ check, e.check rule = .ok check ∧
    check.violation? e.settings e.catalog cells cell = .ok none

/-- Where a rule has an outcome, the cells that pass it are those of the rows that do not fail. -/
theorem notMem_failedRows_iff_passes (hcells : e.cells table column (some t) = .ok cells)
    {rule : Rule} {o : RuleOutcome} (h : e.evaluateRule cells true rule = .ok o) {cell : Cell}
    (hcell : cell ∈ cells) : cell.row ∉ o.failedRows ↔ e.Passes cells rule cell := by
  have hcol := Cell.showsColumn_of_cells hcells
  obtain ⟨raw, hraw, hs⟩ := hcol.shows hcell
  obtain ⟨check, phrase, hcheck, -, ⟨-, hno, -⟩ | ⟨hskip, found, hfound, -⟩⟩ := evaluateRule_eq_ok h
  · cases hno
  · have hjudges := judges_of_evaluateRule hcells h
    obtain ⟨v, hv⟩ := violation?_eq_ok_of_mem hfound hcell
    have htype : ¬ (rule.constraint.NeedsType ∧ some t = none) := fun ⟨_, hnone⟩ => by cases hnone
    rw [hjudges.notMem_failedRows_iff hraw,
      ← Check.violation?_eq_none_iff hcol hcell hs hcheck htype hv]
    constructor
    · rintro rfl
      exact ⟨check, hcheck, hv⟩
    · rintro ⟨check', hcheck', hv'⟩
      obtain rfl := Except.ok.inj (hcheck.symm.trans hcheck')
      exact Except.ok.inj (hv.symm.trans hv')

/-- A cell passes a comparison exactly when its raw cell satisfies it. Checking it alone never
breaks off where it is satisfied, whatever the other cells of the column are. -/
theorem passes_compare_iff (hcells : e.cells table column (some t) = .ok cells) {cell : Cell}
    {raw : Option String} (hcell : cell ∈ cells)
    (hs : cell.Shows (.ofTable e table column (some t)) raw) {op : Comparison} {n : Number}
    {line : Option Int} :
    e.Passes cells ⟨.compare op n, line⟩ cell ↔
      (RawColumn.ofTable e table column (some t)).Satisfies cell.row raw (.compare op n) := by
  have hcol := Cell.showsColumn_of_cells hcells
  constructor
  · rintro ⟨check, hcheck, hv⟩
    exact (Check.violation?_eq_none_iff hcol hcell hs hcheck (fun ⟨_, hnone⟩ => by cases hnone)
      hv).mp rfl
  · intro hsat
    obtain ⟨hnull, a, b, ha, hb, hop⟩ := RawColumn.satisfies_compare_iff.mp hsat
    refine ⟨.compare op b, map_eq_ok_iff.mpr ⟨b, Check.bound_eq_ok_iff.mpr hb, rfl⟩, ?_⟩
    rw [Check.violation?, if_neg (fun hn => hnull (hs.isNull_iff.mp hn))]
    exact (Check.valueViolation?_compare_eq_none_iff hs).mpr ⟨a, ha, hop⟩

/-- Where the rule for a set has an outcome, the rule against it has one. -/
theorem exists_evaluateRule_excluded {items : List SetItem} {line line' : Option Int}
    {o : RuleOutcome} (h : e.evaluateRule cells true ⟨.member true items, line⟩ = .ok o) :
    ∃ o', e.evaluateRule cells true ⟨.member false items, line'⟩ = .ok o' := by
  obtain ⟨check, phrase, hcheck, hphrase, ⟨-, hno, -⟩ | ⟨-, found, hfound, -⟩⟩ :=
    evaluateRule_eq_ok h
  · cases hno
  · obtain ⟨numbers, hnumbers, rfl⟩ := map_eq_ok_iff.mp hcheck
    obtain ⟨words, hwords, -⟩ := Option.map_eq_some_iff.mp hphrase
    -- the two checks look up the same cells
    obtain ⟨found', hfound'⟩ : ∃ found', e.violations
        (.member false (Check.itemTexts items) numbers) cells = .ok found' := by
      refine exists_mapM_eq_ok fun cell hcell => ?_
      obtain ⟨v, hv⟩ := violation?_eq_ok_of_mem hfound hcell
      rw [Check.violation?] at hv ⊢
      split_ifs at hv ⊢ with hnull
      · exact ⟨_, rfl⟩
      · obtain ⟨found, hfound, -⟩ := map_eq_ok_iff.mp hv
        exact ⟨_, map_eq_ok_iff.mpr ⟨found, hfound, rfl⟩⟩
    exact ⟨_, evaluateRule_checks (map_eq_ok_iff.mpr ⟨numbers, hnumbers, rfl⟩)
      (Option.map_eq_some_iff.mpr ⟨words, hwords, rfl⟩) (fun ⟨_, hfalse⟩ => by cases hfalse)
      hfound'⟩

/-- **Membership and equality.** Where the rule for a set has an outcome in a column of real
numbers, a row passes it exactly when its cell is not null and its text is in the set, or it passes
equality with a number of the set, or it does not fit its type and matches a number of the set by
its text. The rows that pass an equality are those that its outcome, if it has one, does not fail.
The rows that are not null pass the rule against the set exactly when they fail the rule for it. -/
theorem inSet_iff_equal (hcells : e.cells table column (some t) = .ok cells)
    (hreal : t.isReal = true) {items : List SetItem} {line : Option Int} {o : RuleOutcome}
    (h : e.evaluateRule cells true ⟨.member true items, line⟩ = .ok o) :
    (∀ cell ∈ cells, cell.row ∉ o.failedRows ↔ cell.isNull = false ∧
      ((∃ w, .text w ∈ items ∧ w.value = cell.text) ∨
        (∃ n, .number n ∈ items ∧ e.Passes cells ⟨.compare .equal n, line⟩ cell) ∨
        t ≠ .floatingPoint ∧ cell.MatchesByText e.settings items)) ∧
      (∀ n o', e.evaluateRule cells true ⟨.compare .equal n, line⟩ = .ok o' →
        ∀ cell ∈ cells, cell.row ∉ o'.failedRows ↔
          e.Passes cells ⟨.compare .equal n, line⟩ cell) ∧
      ∃ o', e.evaluateRule cells true ⟨.member false items, line⟩ = .ok o' ∧
        ∀ cell ∈ cells, cell.isNull = false →
          (cell.row ∉ o'.failedRows ↔ cell.row ∈ o.failedRows) := by
  have hcol := Cell.showsColumn_of_cells hcells
  have hjudges := judges_of_evaluateRule hcells h
  obtain ⟨o', ho'⟩ : ∃ o', e.evaluateRule cells true ⟨.member false items, line⟩ = .ok o' :=
    exists_evaluateRule_excluded h
  have hjudges' := judges_of_evaluateRule hcells ho'
  refine ⟨fun cell hcell => ?_,
    fun n o'' ho'' cell hcell => notMem_failedRows_iff_passes hcells ho'' hcell,
    o', ho', fun cell hcell hnull => ?_⟩
  · obtain ⟨raw, hraw, hs⟩ := hcol.shows hcell
    rw [hjudges.notMem_failedRows_iff hraw, RawColumn.satisfies_member_iff, iff_true_right rfl,
      ← Bool.not_eq_true, hs.isNull_iff]
    refine and_congr_right fun hnull => ?_
    rw [RawColumn.inSet_iff_of_isReal hs rfl hreal (Cell.exists_reading hcells hcell) hnull]
    simp only [passes_compare_iff hcells hcell hs]
    rfl
  · obtain ⟨raw, hraw, hs⟩ := hcol.shows hcell
    rw [hjudges'.notMem_failedRows_iff hraw, ← not_iff_not, hjudges.notMem_failedRows_iff hraw]
    have hnull : ¬ (RawColumn.ofTable e table column (some t)).IsNull raw := by
      rw [← hs.isNull_iff, hnull]
      simp
    simp [RawColumn.satisfies_member_iff, hnull]

/-! #### A column of shares

A whole number, a fraction, an absent cell and a word, read as integers. -/

/-- An engine without rules. -/
def shareEngine : Engine :=
  ⟨⟨.standard, ⟨["share"], false, false, false⟩, [], [], none, List.nodup_nil,
    List.nodup_nil⟩, .standard, 1⟩

/-- Four rows of shares. -/
def shareTable : Table :=
  ⟨["share"], [[("share", some "3")], [("share", some "1.5")], [("share", none)],
    [("share", some "x")]], none⟩

/-- The cells of the shares, as integers. -/
def shareCells : List Cell :=
  [⟨1, some "3", "3", false, some (.value ⟨some (.integer 3), .integer, "3", none⟩)⟩,
    ⟨2, some "1.5", "1.5", false, some (.misfit ⟨"1.5", .integer, Misfit.wrongForm⟩)⟩,
    ⟨3, none, "", true, some (.value (.null .integer))⟩,
    ⟨4, some "x", "x", false, some (.misfit ⟨"x", .integer, Misfit.wrongForm⟩)⟩]

/-- The first two shares as a set. -/
def shareItems : List SetItem :=
  [.number (.integer 3), .number (.real (Double.ofDecimal false 15 (-1)))]

/-- The outcome of the rule for this set. -/
def shareOutcome : RuleOutcome :=
  ⟨"is in [3, 1.5]", "in_set", some 3, 2, [3, 4],
    ["value is null", "value 'x' is not one of the allowed values"], none⟩

theorem cells_shareTable :
    shareEngine.cells shareTable "share" (some .integer) = .ok shareCells := by
  decide +kernel

theorem evaluateRule_shareItems :
    shareEngine.evaluateRule shareCells true ⟨.member true shareItems, some 3⟩
      = .ok shareOutcome := by
  decide +kernel

theorem shareItems_iff_equal :
    shareEngine.cells shareTable "share" (some .integer) = .ok shareCells ∧
      ValueType.integer.isReal = true ∧
      shareEngine.evaluateRule shareCells true ⟨.member true shareItems, some 3⟩
        = .ok shareOutcome ∧
      (∀ cell ∈ shareCells, cell.row ∉ shareOutcome.failedRows ↔ cell.isNull = false ∧
        ((∃ w, .text w ∈ shareItems ∧ w.value = cell.text) ∨
          (∃ n, .number n ∈ shareItems ∧
            shareEngine.Passes shareCells ⟨.compare .equal n, some 3⟩ cell) ∨
          ValueType.integer ≠ .floatingPoint ∧
            cell.MatchesByText shareEngine.settings shareItems)) ∧
      (∀ n o', shareEngine.evaluateRule shareCells true ⟨.compare .equal n, some 3⟩ = .ok o' →
        ∀ cell ∈ shareCells, cell.row ∉ o'.failedRows ↔
          shareEngine.Passes shareCells ⟨.compare .equal n, some 3⟩ cell) ∧
      ∃ o', shareEngine.evaluateRule shareCells true ⟨.member false shareItems, some 3⟩ = .ok o' ∧
        ∀ cell ∈ shareCells, cell.isNull = false →
          (cell.row ∉ o'.failedRows ↔ cell.row ∈ shareOutcome.failedRows) :=
  ⟨cells_shareTable, rfl, evaluateRule_shareItems,
    inSet_iff_equal cells_shareTable rfl evaluateRule_shareItems⟩

/-- **A member of a set that equals no number of it.** The fraction is no integer, so that it
equals nothing, and yet its row passes the rule for the set. -/
theorem shareItems_notEqual :
    shareEngine.cells shareTable "share" (some .integer) = .ok shareCells ∧
      shareEngine.evaluateRule shareCells true ⟨.member true shareItems, some 3⟩
        = .ok shareOutcome ∧
      ∃ cell ∈ shareCells, cell.row ∉ shareOutcome.failedRows ∧
        ¬ (cell.isNull = false ∧
          ((∃ w, .text w ∈ shareItems ∧ w.value = cell.text) ∨
            ∃ n, .number n ∈ shareItems ∧
              shareEngine.Passes shareCells ⟨.compare .equal n, some 3⟩ cell)) := by
  refine ⟨cells_shareTable, evaluateRule_shareItems,
    ⟨2, some "1.5", "1.5", false, some (.misfit ⟨"1.5", .integer, Misfit.wrongForm⟩)⟩,
    .tail _ (.head _), by decide, ?_⟩
  rintro ⟨-, ⟨w, hw, -⟩ | ⟨n, -, check, hcheck, hv⟩⟩
  · simp [shareItems] at hw
  · -- a comparison has nothing to compare in a cell that does not fit
    obtain ⟨b, -, rfl⟩ := map_eq_ok_iff.mp hcheck
    simp [Check.violation?, Check.valueViolation?, Check.onReal] at hv

end Engine

end TableRules
