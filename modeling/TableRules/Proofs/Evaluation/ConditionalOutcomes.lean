import Mathlib.Data.List.Sort
import TableRules.Evaluation.Conditional
import TableRules.Proofs.Evaluation.RuleOutcomes
import TableRules.Proofs.Text.Distinct

/-!
# Conditional rules agree with value rules

A conditional rule is evaluated on its own path: the antecedent picks rows by `Engine.fulfils`, and
the consequent looks for violations in the picked rows only, in the cell at the place of each
(`Engine.exists_consequent_cell`). `Engine.evaluateConditional_follows` says that this path agrees
with the evaluation of both clauses as rules of their whole columns (`Engine.evaluateRule`): the
outcome of the conditional rule is determined by the rows that the two rules fail
(`ConditionalOutcome.Follows`), and it exists wherever both rules are evaluated.

The one difference between the paths is a clause that needs a type where none is declared. The rule
then fails as a whole without being checked; the antecedent then picks no row, and the consequent is
checked all the same, but its check finds a violation in every cell (`violation?_of_untyped`).
-/

namespace TableRules

/-- A raw cell fails coercion to the declared type of its column. -/
def RawColumn.Misfits (col : RawColumn) (raw : Option String) : Prop :=
  ∃ t m, col.type = some t ∧ coerce raw t col.settings col.catalog = .ok (.misfit m)

/-- A conditional outcome follows from the rows that its antecedent and its consequent fail as rules
of their whole columns, `col` being the column of the antecedent and `kind` the kind of its rule. -/
structure ConditionalOutcome.Follows (col : RawColumn) (kind : RuleKind)
    (ifFailed thenFailed : List Nat) (o : ConditionalOutcome) : Prop where
  increasing : o.matchedRows.Pairwise (· < ·)
  mem_matchedRows_iff (row : Nat) :
    row ∈ o.matchedRows ↔
      ∃ raw, col.HasCell row raw ∧ row ∉ ifFailed ∧ ¬ col.Misfits raw ∧
        (¬ col.IsNull raw ∨ kind = .isNull)
  failedRows_eq : o.failedRows = o.matchedRows.filter (thenFailed.contains ·)
  vacuous_iff : o.status = .vacuous ↔ o.matchedRows = []
  failed_iff : o.status = .failed ↔ o.failedRows ≠ []
  ok_iff : o.status = .ok ↔ o.matchedRows ≠ [] ∧ o.failedRows = []

namespace Cell

variable {col : RawColumn} {raw : Option String} {cell : Cell}

/-- Nothing is read of a cell in a column without a type. -/
theorem Shows.reading_eq_none (h : cell.Shows col raw) (hnone : col.type = none) :
    cell.reading = none := by
  refine Option.eq_none_iff_forall_ne_some.mpr fun r hr => ?_
  obtain ⟨t, ht, -⟩ := (h.reading_iff r).mp hr
  rw [hnone] at ht
  exact absurd ht (by simp)

theorem Shows.isMisfit_iff (h : cell.Shows col raw) : cell.isMisfit = true ↔ col.Misfits raw := by
  rw [isMisfit, Option.any_eq_true]
  constructor
  · rintro ⟨r, hr, hm⟩
    obtain ⟨t, ht, hc⟩ := (h.reading_iff r).mp hr
    cases r with
    | value v => simp [Reading.isMisfit] at hm
    | misfit m => exact ⟨t, m, ht, hc⟩
  · rintro ⟨t, m, ht, hc⟩
    exact ⟨.misfit m, (h.reading_iff _).mpr ⟨t, ht, hc⟩, rfl⟩

/-- A cell's row is among the rows of the cells that pass a test exactly when the cell passes it. -/
theorem ShowsColumn.row_mem_filter_iff {cells : List Cell} (h : ShowsColumn col cells)
    (hcell : cell ∈ cells) {p : Cell → Bool} :
    cell.row ∈ (cells.filter p).map Cell.row ↔ p cell = true := by
  rw [List.mem_map]
  constructor
  · rintro ⟨other, hother, hrow⟩
    obtain ⟨hmem, hp⟩ := List.mem_filter.mp hother
    rwa [h.eq_of_row_eq hmem hcell hrow] at hp
  · exact fun hp => ⟨cell, List.mem_filter.mpr ⟨hcell, hp⟩, rfl⟩

/-- The rows of the cells that pass a test are strictly increasing. -/
theorem ShowsColumn.rows_increasing {cells : List Cell} (h : ShowsColumn col cells)
    (p : Cell → Bool) : ((cells.filter p).map Cell.row).Pairwise (· < ·) :=
  List.pairwise_map.mpr (h.increasing.sublist List.filter_sublist)

end Cell

namespace Engine

variable {e : Engine} {table : Table} {column : String} {type : Option ValueType} {rule : Rule}
  {cells : List Cell}

/-! ### Rules that were evaluated -/

/-- Where a needed type is not declared, a check finds a violation in every cell. -/
theorem violation?_of_untyped {check : Check} (hcheck : e.check rule = .ok check)
    (hneeds : rule.constraint.NeedsType) {cell : Cell} (hread : cell.reading = none) :
    ∃ v, check.violation? e.settings e.catalog cells cell = .ok (some v) := by
  have hvalue : check.valueViolation? e.settings e.catalog cells cell = .ok (some .noType) ∧
      check.nullViolation? cell = some .nullValue := by
    -- the constraints that need a type all look at the real number of a cell
    obtain ⟨c, line⟩ := rule
    cases c with
    | compare op n =>
      obtain ⟨b, -, rfl⟩ := Result.map_eq_ok_iff.mp hcheck
      exact ⟨by rw [Check.valueViolation?, Check.onReal, hread], rfl⟩
    | digits kind n =>
      obtain rfl := Except.ok.inj hcheck
      exact ⟨by rw [Check.valueViolation?, Check.onReal, hread], rfl⟩
    | _ => exact hneeds.elim
  unfold Check.violation?
  split
  · exact ⟨_, congrArg Except.ok hvalue.2⟩
  · exact ⟨_, hvalue.1⟩

/-- Where a rule was evaluated, its check gives an answer for every cell, and the failed rows are
those of the cells in which it finds a violation. -/
theorem evaluateRule_checked (hcells : e.cells table column type = .ok cells) {o : RuleOutcome}
    (h : e.evaluateRule cells type.isSome rule = .ok o) :
    ∃ check, e.check rule = .ok check ∧
      (∀ cell ∈ cells, ∃ v, check.violation? e.settings e.catalog cells cell = .ok v) ∧
      o.failedRows = (cells.filter (e.fails check cells)).map Cell.row := by
  have hcol := Cell.showsColumn_of_cells hcells
  obtain ⟨check, phrase, hcheck, -, ⟨hneeds, htyped, rfl⟩ | ⟨-, found, hfound, rfl⟩⟩ :=
    evaluateRule_eq_ok h
  · have hviolation : ∀ cell ∈ cells,
        ∃ v, check.violation? e.settings e.catalog cells cell = .ok (some v) := by
      intro cell hcell
      obtain ⟨raw, -, hs⟩ := hcol.shows hcell
      have hnone : type = none := by simpa using htyped
      exact violation?_of_untyped hcheck (Rule.needsType_iff.mp hneeds) (hs.reading_eq_none hnone)
    refine ⟨check, hcheck, fun cell hcell => ?_, ?_⟩
    · obtain ⟨v, hv⟩ := hviolation cell hcell
      exact ⟨some v, hv⟩
    · have hall : cells.filter (e.fails check cells) = cells :=
        List.filter_eq_self.mpr fun cell hcell => by
          obtain ⟨v, hv⟩ := hviolation cell hcell
          exact fails_eq_isSome hv
      rw [hall]
      rfl
  · exact ⟨check, hcheck, fun cell hcell => violation?_eq_ok_of_mem hfound hcell,
      ruleOutcome_failedRows rule phrase hfound⟩

/-! ### Rows and their cells -/

/-- In every column the cell of a row stands at the place of the row. -/
theorem exists_cell_at_row {column' : String} {type' : Option ValueType} {cells' : List Cell}
    (hcells : e.cells table column type = .ok cells)
    (hcells' : e.cells table column' type' = .ok cells') {cell : Cell} (hcell : cell ∈ cells) :
    0 < cell.row ∧ ∃ other, cells'[cell.row - 1]? = some other ∧ other.row = cell.row := by
  obtain ⟨hlen, hshows⟩ := Cell.shows_getElem hcells
  obtain ⟨hlen', hshows'⟩ := Cell.shows_getElem hcells'
  obtain ⟨i, hi, rfl⟩ := List.getElem_of_mem hcell
  have hrow := (hshows i hi (hlen ▸ hi)).1
  have hcolumns : (table.column column).length = (table.column column').length := by
    simp [Table.column]
  have hi' : i < cells'.length := by omega
  have hrow' := (hshows' i hi' (hlen' ▸ hi')).1
  refine ⟨by omega, cells'[i], ?_, by omega⟩
  rw [hrow, Nat.add_sub_cancel]
  exact List.getElem?_eq_getElem hi'

theorem mem_of_cellAt? {row : Nat} {cell : Cell} (h : cellAt? cells row = some cell) :
    cell ∈ cells := by
  unfold cellAt? at h
  split_ifs at h
  · exact List.mem_of_getLast? h
  · exact List.mem_of_getElem? h

/-- A cell is looked up by its row. -/
theorem cellAt?_row (hcells : e.cells table column type = .ok cells) {cell : Cell}
    (hcell : cell ∈ cells) : cellAt? cells cell.row = some cell := by
  obtain ⟨hpos, other, hother, hrow⟩ := exists_cell_at_row hcells hcells hcell
  have hmem := List.mem_of_getElem? hother
  obtain rfl := (Cell.showsColumn_of_cells hcells).eq_of_row_eq hmem hcell hrow
  rw [cellAt?, if_neg hpos.ne', hother]

theorem failsAt_row (hcells : e.cells table column type = .ok cells) (check : Check) {cell : Cell}
    (hcell : cell ∈ cells) :
    e.failsAt check cells cell.row
      = ofNumber ((check.violation? e.settings e.catalog cells cell).map Option.isSome) := by
  rw [failsAt, cellAt?_row hcells hcell]

/-- Where a check gives an answer for a row, it gives it for the cell of the row. -/
theorem exists_violation?_of_failsAt (hcells : e.cells table column type = .ok cells)
    {check : Check} {row : Nat} (hpos : 0 < row) {b : Bool}
    (h : e.failsAt check cells row = .ok b) :
    ∃ cell ∈ cells, cell.row = row ∧
      ∃ v, check.violation? e.settings e.catalog cells cell = .ok v ∧ v.isSome = b := by
  obtain ⟨hlen, hshows⟩ := Cell.shows_getElem hcells
  rw [failsAt, cellAt?, if_neg hpos.ne'] at h
  cases hcell : cells[row - 1]? with
  | none =>
    rw [hcell] at h
    cases h
  | some cell =>
    rw [hcell] at h
    obtain ⟨hi, rfl⟩ := List.getElem?_eq_some_iff.mp hcell
    have hrow := (hshows (row - 1) hi (hlen ▸ hi)).1
    exact ⟨_, List.getElem_mem hi, by omega,
      Result.map_eq_ok_iff.mp (Result.ofNumber_eq_ok_iff.mp h)⟩

/-! ### The two passes -/

/-- Whether a cell is picked by an antecedent. -/
def picks (e : Engine) (rule : Rule) (check : Check) (column : List Cell) (cell : Cell) : Bool :=
  !cell.isMisfit && (!cell.isNull || rule.kind == .isNull) && !e.fails check column cell

theorem fulfils_eq_picks {check : Check} {cell : Cell} {v : Option Violation}
    (h : check.violation? e.settings e.catalog cells cell = .ok v) :
    e.fulfils rule check cells cell = .ok (e.picks rule check cells cell) := by
  have hfails := fails_eq_isSome h
  unfold fulfils picks
  split
  · simp [*]
  · split
    · rename_i hnull
      obtain ⟨hn, hk⟩ := Bool.and_eq_true_iff.mp hnull
      simp [hn, bne_iff_ne.mp hk]
    · rename_i hmisfit hnull
      have hnull : (!cell.isNull || rule.kind == .isNull) = true := by
        cases hn : cell.isNull with
        | false => rfl
        | true => simpa [hn] using hnull
      rw [h, hfails, hnull]
      cases v <;> simp [Except.map, hmisfit]

/-- What the first pass did when it gave rows. -/
theorem antecedentRows_eq_ok_iff {c : Clause} {rows : List Nat} :
    e.antecedentRows table c = .ok rows ↔
      ∃ cells check, e.cells table c.column (e.clauseType c) = .ok cells ∧
        e.check c.rule = .ok check ∧
        if c.rule.kind.family.needsType && (e.clauseType c).isNone then rows = []
        else ∃ matched, cells.filterM (e.fulfils c.rule check cells) = .ok matched ∧
          matched.map Cell.row = rows := by
  constructor
  · intro h
    obtain ⟨cells, hcells, h⟩ := Result.bind_eq_ok_iff.mp h
    obtain ⟨check, hcheck, h⟩ := Result.bind_eq_ok_iff.mp h
    refine ⟨cells, check, Result.ofNumber_eq_ok_iff.mp hcells, hcheck, ?_⟩
    split_ifs at h ⊢
    · exact (Except.ok.inj h).symm
    · obtain ⟨matched, hmatched, h⟩ :=
        Result.bind_eq_ok_iff.mp (Result.ofNumber_eq_ok_iff.mp h)
      exact ⟨matched, hmatched, Except.ok.inj h⟩
  · rintro ⟨cells, check, hcells, hcheck, h⟩
    refine Result.bind_eq_ok_iff.mpr ⟨cells, Result.ofNumber_eq_ok_iff.mpr hcells,
      Result.bind_eq_ok_iff.mpr ⟨check, hcheck, ?_⟩⟩
    split_ifs at h ⊢
    · exact congrArg Except.ok h.symm
    · obtain ⟨matched, hmatched, rfl⟩ := h
      exact Result.ofNumber_eq_ok_iff.mpr
        (Result.bind_eq_ok_iff.mpr ⟨matched, hmatched, rfl⟩)

/-- The rows that fulfil a condition are rows of its column. -/
theorem mem_rows_of_antecedentRows {clause : Clause} {rows : List Nat}
    (h : e.antecedentRows table clause = .ok rows) :
    ∃ cells, e.cells table clause.column (e.clauseType clause) = .ok cells ∧
      ∀ row ∈ rows, ∃ cell ∈ cells, cell.row = row := by
  obtain ⟨cells, check, hcells, -, h⟩ := antecedentRows_eq_ok_iff.mp h
  refine ⟨cells, hcells, ?_⟩
  split_ifs at h
  · obtain rfl := h
    simp
  · obtain ⟨matched, hmatched, rfl⟩ := h
    intro row hrow
    obtain ⟨cell, hcell, rfl⟩ := List.mem_map.mp hrow
    exact ⟨cell, Result.subset_of_filterM_eq_ok hmatched hcell, rfl⟩

theorem pos_of_antecedentRows {clause : Clause} {rows : List Nat}
    (h : e.antecedentRows table clause = .ok rows) : ∀ row ∈ rows, 0 < row := by
  obtain ⟨cells, hcells, hmem⟩ := mem_rows_of_antecedentRows h
  intro row hrow
  obtain ⟨cell, hcell, rfl⟩ := hmem row hrow
  exact (exists_cell_at_row hcells hcells hcell).1

/-- A row that fulfils the condition of a conditional rule is looked up in the column of the
consequence by its place, and is found there. -/
theorem exists_consequent_cell {c : Conditional} {rows : List Nat}
    (hrows : e.antecedentRows table c.antecedent = .ok rows)
    (hcells : e.cells table c.consequent.column (e.clauseType c.consequent) = .ok cells) :
    ∀ row ∈ rows, 0 < row ∧ ∃ cell, cells[row - 1]? = some cell ∧ cell.row = row := by
  intro row hrow
  obtain ⟨ifCells, hifCells, hmem⟩ := mem_rows_of_antecedentRows hrows
  obtain ⟨cell, hcell, rfl⟩ := hmem row hrow
  exact exists_cell_at_row hifCells hcells hcell

/-- What the second pass did when it gave rows. -/
theorem consequentFailures_eq_ok_iff {c : Clause} {rows failed : List Nat} :
    e.consequentFailures table c rows = .ok failed ↔
      ∃ cells check, e.cells table c.column (e.clauseType c) = .ok cells ∧
        e.check c.rule = .ok check ∧ rows.filterM (e.failsAt check cells) = .ok failed := by
  constructor
  · intro h
    obtain ⟨cells, hcells, h⟩ := Result.bind_eq_ok_iff.mp h
    obtain ⟨check, hcheck, h⟩ := Result.bind_eq_ok_iff.mp h
    exact ⟨cells, check, Result.ofNumber_eq_ok_iff.mp hcells, hcheck, h⟩
  · rintro ⟨cells, check, hcells, hcheck, h⟩
    exact Result.bind_eq_ok_iff.mpr ⟨cells, Result.ofNumber_eq_ok_iff.mpr hcells,
      Result.bind_eq_ok_iff.mpr ⟨check, hcheck, h⟩⟩

/-- The first pass picks the rows whose cells the antecedent picks. -/
theorem antecedentRows_eq_ok {c : Clause}
    (hcells : e.cells table c.column (e.clauseType c) = .ok cells)
    {check : Check} (hcheck : e.check c.rule = .ok check)
    (hok : ∀ cell ∈ cells, ∃ v, check.violation? e.settings e.catalog cells cell = .ok v) :
    e.antecedentRows table c
      = .ok ((cells.filter (e.picks c.rule check cells)).map Cell.row) := by
  have hcol := Cell.showsColumn_of_cells hcells
  unfold antecedentRows
  dsimp only
  rw [hcells, hcheck]
  change (if c.rule.kind.family.needsType && (e.clauseType c).isNone then Except.ok []
    else ofNumber (e.matchedRows c.rule check cells)) = _
  split
  · -- the check is not made; had it been, it would have failed every cell and picked none
    rename_i hskip
    obtain ⟨hneeds, hnone⟩ := Bool.and_eq_true_iff.mp hskip
    have hnil : cells.filter (e.picks c.rule check cells) = [] := by
      refine List.filter_eq_nil_iff.mpr fun cell hcell => ?_
      obtain ⟨raw, -, hs⟩ := hcol.shows hcell
      obtain ⟨v, hv⟩ : ∃ v, check.violation? e.settings e.catalog cells cell = .ok (some v) :=
        violation?_of_untyped hcheck (Rule.needsType_iff.mp hneeds)
          (hs.reading_eq_none (Option.isNone_iff_eq_none.mp hnone))
      simp [picks, fails_eq_isSome hv]
    rw [hnil]
    rfl
  · have hfilter : cells.filterM (e.fulfils c.rule check cells)
        = .ok (cells.filter (e.picks c.rule check cells)) :=
      Result.filterM_eq_ok fun cell hcell => by
        obtain ⟨v, hv⟩ := hok cell hcell
        exact fulfils_eq_picks hv
    rw [matchedRows, hfilter]
    rfl

/-- The second pass keeps the rows among the picked ones that the consequent fails as a rule of its
whole column. -/
theorem consequentFailures_eq_ok {c : Clause}
    (hcells : e.cells table c.column (e.clauseType c) = .ok cells)
    {check : Check} (hcheck : e.check c.rule = .ok check)
    (hok : ∀ cell ∈ cells, ∃ v, check.violation? e.settings e.catalog cells cell = .ok v)
    {rows : List Nat} (hrows : ∀ row ∈ rows, ∃ cell ∈ cells, cell.row = row) :
    e.consequentFailures table c rows
      = .ok (rows.filter (((cells.filter (e.fails check cells)).map Cell.row).contains ·)) := by
  have hcol := Cell.showsColumn_of_cells hcells
  refine consequentFailures_eq_ok_iff.mpr
    ⟨cells, check, hcells, hcheck, Result.filterM_eq_ok fun row hrow => ?_⟩
  obtain ⟨cell, hcell, rfl⟩ := hrows row hrow
  obtain ⟨v, hv⟩ := hok cell hcell
  have hfails : ((cells.filter (e.fails check cells)).map Cell.row).contains cell.row
      = v.isSome := by
    rw [Bool.eq_iff_iff, List.contains_iff_mem, hcol.row_mem_filter_iff hcell, fails_eq_isSome hv]
  rw [failsAt_row hcells check hcell, hv, hfails]
  rfl

/-- Where both columns of a conditional rule are in the data, none is absent. -/
theorem absentColumns_eq_nil {c : Conditional}
    (hif : table.hasColumn c.antecedent.column = true)
    (hthen : table.hasColumn c.consequent.column = true) : absentColumns table c = [] := by
  refine List.filter_eq_nil_iff.mpr fun column hcolumn => ?_
  have hmem := Text.mem_distinct_iff.mp hcolumn
  simp only [List.mem_cons, List.not_mem_nil, or_false] at hmem
  rcases hmem with rfl | rfl
  · simp [hif]
  · simp [hthen]

/-- The status of a conditional outcome tells which of its rows there are. -/
theorem conditionalOutcome_follows {col : RawColumn} {kind : RuleKind} {name : String}
    {ifFailed thenFailed matched : List Nat} (hinc : matched.Pairwise (· < ·))
    (hmem : ∀ row, row ∈ matched ↔ ∃ raw, col.HasCell row raw ∧ row ∉ ifFailed ∧
      ¬ col.Misfits raw ∧ (¬ col.IsNull raw ∨ kind = .isNull)) :
    (conditionalOutcome name matched (matched.filter (thenFailed.contains ·))).Follows col kind
      ifFailed thenFailed := by
  unfold conditionalOutcome
  split
  · rename_i hempty
    obtain rfl := List.isEmpty_iff.mp hempty
    exact ⟨hinc, hmem, rfl, by simp, by simp, by simp⟩
  · rename_i hne
    have hne : matched ≠ [] := fun h => hne (List.isEmpty_iff.mpr h)
    split
    · rename_i hempty
      have hnil := List.isEmpty_iff.mp hempty
      exact ⟨hinc, hmem, rfl, iff_of_false nofun hne, iff_of_false nofun (not_not_intro hnil),
        iff_of_true rfl ⟨hne, hnil⟩⟩
    · rename_i hfailed
      have hfailed := fun h => hfailed (List.isEmpty_iff.mpr h)
      exact ⟨hinc, hmem, rfl, iff_of_false nofun hne, iff_of_true rfl hfailed,
        iff_of_false nofun fun h => hfailed h.2⟩

/-- The picked rows are those that the antecedent does not fail, where the cell was read and is not
null or the antecedent asks for null. -/
theorem mem_picked_iff {check : Check}
    (hcol : Cell.ShowsColumn (.ofTable e table column type) cells) (row : Nat) :
    row ∈ (cells.filter (e.picks rule check cells)).map Cell.row ↔
      ∃ raw, (RawColumn.ofTable e table column type).HasCell row raw ∧
        row ∉ (cells.filter (e.fails check cells)).map Cell.row ∧
        ¬ (RawColumn.ofTable e table column type).Misfits raw ∧
        (¬ (RawColumn.ofTable e table column type).IsNull raw ∨ rule.kind = .isNull) := by
  have hpicks : ∀ {cell raw}, cell ∈ cells → cell.Shows (.ofTable e table column type) raw →
      (e.picks rule check cells cell = true ↔
        cell.row ∉ (cells.filter (e.fails check cells)).map Cell.row ∧
        ¬ (RawColumn.ofTable e table column type).Misfits raw ∧
        (¬ (RawColumn.ofTable e table column type).IsNull raw ∨ rule.kind = .isNull)) := by
    intro cell raw hcell hs
    rw [hcol.row_mem_filter_iff hcell, ← hs.isMisfit_iff, ← hs.isNull_iff]
    simp only [picks, Bool.and_eq_true, Bool.or_eq_true, Bool.not_eq_true', Bool.not_eq_true,
      beq_iff_eq]
    tauto
  constructor
  · intro hrow
    obtain ⟨cell, hcell, rfl⟩ := List.mem_map.mp hrow
    obtain ⟨hmem, hp⟩ := List.mem_filter.mp hcell
    obtain ⟨raw, hraw, hs⟩ := hcol.shows hmem
    exact ⟨raw, hraw, (hpicks hmem hs).mp hp⟩
  · rintro ⟨raw, hraw, h⟩
    obtain ⟨cell, hmem, rfl, hs⟩ := hcol.exists_cell hraw
    exact (hcol.row_mem_filter_iff hmem).mpr ((hpicks hmem hs).mpr h)

/-- **Agreement of the two phases.** Where both columns of a conditional rule are in the data and
both clauses are evaluated as rules of their whole columns, the conditional rule is evaluated as
well, and its outcome follows from the rows that the two rules fail. -/
theorem evaluateConditional_follows {c : Conditional}
    (hif : table.hasColumn c.antecedent.column = true)
    (hthen : table.hasColumn c.consequent.column = true) {ifCells thenCells : List Cell}
    (hifCells : e.cells table c.antecedent.column (e.clauseType c.antecedent) = .ok ifCells)
    (hthenCells : e.cells table c.consequent.column (e.clauseType c.consequent) = .ok thenCells)
    {ifOutcome thenOutcome : RuleOutcome}
    (hifRule : e.evaluateRule ifCells (e.clauseType c.antecedent).isSome c.antecedent.rule
      = .ok ifOutcome)
    (hthenRule : e.evaluateRule thenCells (e.clauseType c.consequent).isSome c.consequent.rule
      = .ok thenOutcome) :
    ∃ o, e.evaluateConditional table c = .ok o ∧
      o.Follows (.ofTable e table c.antecedent.column (e.clauseType c.antecedent))
        c.antecedent.rule.kind ifOutcome.failedRows thenOutcome.failedRows := by
  have hifCol := Cell.showsColumn_of_cells hifCells
  obtain ⟨ifCheck, hifCheck, hifOk, hifFailed⟩ := evaluateRule_checked hifCells hifRule
  obtain ⟨thenCheck, hthenCheck, hthenOk, hthenFailed⟩ :=
    evaluateRule_checked hthenCells hthenRule
  set matched := (ifCells.filter (e.picks c.antecedent.rule ifCheck ifCells)).map Cell.row
  have hinc : matched.Pairwise (· < ·) := hifCol.rows_increasing _
  have hrows : ∀ row ∈ matched, ∃ cell ∈ thenCells, cell.row = row := by
    intro row hrow
    obtain ⟨cell, hcell, rfl⟩ := List.mem_map.mp hrow
    obtain ⟨-, other, hother, hrow⟩ :=
      exists_cell_at_row hifCells hthenCells (List.mem_filter.mp hcell).1
    exact ⟨other, List.mem_of_getElem? hother, hrow⟩
  have houtcome : e.evaluateConditional table c = .ok (conditionalOutcome c.name matched
      (matched.filter (thenOutcome.failedRows.contains ·))) := by
    -- the rows that the first pass picks are handed on to the second
    unfold evaluateConditional
    rw [absentColumns_eq_nil hif hthen]
    change (e.antecedentRows table c.antecedent >>= fun matched =>
      e.consequentFailures table c.consequent matched >>= fun failed =>
        pure (conditionalOutcome c.name matched failed)) = _
    refine Result.bind_eq_ok_iff.mpr ⟨matched, antecedentRows_eq_ok hifCells hifCheck hifOk, ?_⟩
    refine Result.bind_eq_ok_iff.mpr
      ⟨_, consequentFailures_eq_ok hthenCells hthenCheck hthenOk hrows, ?_⟩
    rw [← hthenFailed]
    rfl
  refine ⟨_, houtcome, conditionalOutcome_follows hinc fun row => ?_⟩
  rw [hifFailed]
  exact mem_picked_iff hifCol row

/-! #### Parcels by weight

Parcels above ten kilograms must say who carries them. The four weights are light, missing, no
number, and heavy; one more heavy parcel names its carrier. -/

/-- A parcel above ten names its carrier. -/
def parcelRule : Conditional :=
  ⟨"heavy", ⟨"weight", ⟨.compare .greater (.integer 10), some 4⟩⟩,
    ⟨"carrier", ⟨.required, some 5⟩⟩, some 3⟩

/-- An engine with that conditional rule and the type of the weights. -/
def parcelEngine : Engine :=
  ⟨⟨.standard, ⟨["weight", "carrier"], false, false, false⟩,
    [⟨"weight", [⟨.hasType .integer, some 2⟩]⟩], [parcelRule], none, by decide,
    List.nodup_singleton "heavy"⟩, .standard, 1⟩

/-- Five parcels. -/
def parcelTable : Table :=
  ⟨["weight", "carrier"],
    [[("weight", some "3")], [("weight", none)], [("weight", some "x")],
      [("weight", some "30"), ("carrier", some " ")],
      [("weight", some "30"), ("carrier", some "rail")]], none⟩

/-- Their weights. -/
def parcelWeights : List Cell :=
  [⟨1, some "3", "3", false, some (.value ⟨some (.integer 3), .integer, "3", none⟩)⟩,
    ⟨2, none, "", true, some (.value (.null .integer))⟩,
    ⟨3, some "x", "x", false, some (.misfit ⟨"x", .integer, Misfit.wrongForm⟩)⟩,
    ⟨4, some "30", "30", false, some (.value ⟨some (.integer 30), .integer, "30", none⟩)⟩,
    ⟨5, some "30", "30", false, some (.value ⟨some (.integer 30), .integer, "30", none⟩)⟩]

/-- Their carriers. -/
def parcelCarriers : List Cell :=
  [⟨1, none, "", true, none⟩, ⟨2, none, "", true, none⟩, ⟨3, none, "", true, none⟩,
    ⟨4, some " ", "", true, none⟩, ⟨5, some "rail", "rail", false, none⟩]

/-- The condition as a rule of the whole column. -/
def parcelWeightOutcome : RuleOutcome :=
  ⟨"is > 10", "greater_than", some 4, 2, [1, 2, 3],
    ["value 3 is not > 10", "value is null", "'x': value does not match declared type"], none⟩

/-- The consequence as a rule of the whole column. -/
def parcelCarrierOutcome : RuleOutcome :=
  ⟨"is required", "required", some 5, 1, [1, 2, 3, 4],
    ["value is missing", "value is missing", "value is missing", "value is missing"], none⟩

/-- The heavy parcels are the fourth and the fifth, and the fourth fails. -/
theorem parcelRule_follows :
    (parcelEngine.cells parcelTable parcelRule.antecedent.column
        (parcelEngine.clauseType parcelRule.antecedent) = .ok parcelWeights ∧
      parcelEngine.cells parcelTable parcelRule.consequent.column
        (parcelEngine.clauseType parcelRule.consequent) = .ok parcelCarriers ∧
      parcelEngine.evaluateRule parcelWeights
        (parcelEngine.clauseType parcelRule.antecedent).isSome parcelRule.antecedent.rule
          = .ok parcelWeightOutcome ∧
      parcelEngine.evaluateRule parcelCarriers
        (parcelEngine.clauseType parcelRule.consequent).isSome parcelRule.consequent.rule
          = .ok parcelCarrierOutcome) ∧
    (∃ o, parcelEngine.evaluateConditional parcelTable parcelRule = .ok o ∧
      o.Follows (.ofTable parcelEngine parcelTable parcelRule.antecedent.column
          (parcelEngine.clauseType parcelRule.antecedent))
        parcelRule.antecedent.rule.kind parcelWeightOutcome.failedRows
        parcelCarrierOutcome.failedRows) ∧
    parcelEngine.evaluateConditional parcelTable parcelRule
      = .ok ⟨"heavy", .failed, [4, 5], [4], none⟩ := by
  have hweights : parcelEngine.cells parcelTable parcelRule.antecedent.column
      (parcelEngine.clauseType parcelRule.antecedent) = .ok parcelWeights := by
    decide +kernel
  have hcarriers : parcelEngine.cells parcelTable parcelRule.consequent.column
      (parcelEngine.clauseType parcelRule.consequent) = .ok parcelCarriers := by
    decide +kernel
  have hheavy : parcelEngine.evaluateRule parcelWeights
      (parcelEngine.clauseType parcelRule.antecedent).isSome parcelRule.antecedent.rule
        = .ok parcelWeightOutcome := by
    decide +kernel
  have hcarrier : parcelEngine.evaluateRule parcelCarriers
      (parcelEngine.clauseType parcelRule.consequent).isSome parcelRule.consequent.rule
        = .ok parcelCarrierOutcome := by
    decide +kernel
  exact ⟨⟨hweights, hcarriers, hheavy, hcarrier⟩,
    evaluateConditional_follows (by decide +kernel) (by decide +kernel) hweights hcarriers hheavy
      hcarrier, by decide +kernel⟩

end Engine

end TableRules
