import Mathlib.Logic.Equiv.Fin.Rotate
import TableRules.Proofs.Evaluation.MovedCells
import TableRules.Proofs.Evaluation.Reports

/-!
# The order of the rows does not matter

A table with its rows in another order is validated exactly as the table itself, except that every
row is called by its new number. The lemmas follow the evaluation from a rule to a block, to the two
passes of a conditional rule and to the report; each says that its part comes to the moved result.
A check looks beyond its cell only to count equal cells, and the second pass looks up rows that the
first one has found, so both move with the rows.

**Main result** (`Engine.evaluate_permute`): where a table has a report, the permuted table has the
moved one (`Report.Moved`).
-/

namespace TableRules

open Result

namespace Engine

variable {e : Engine} {table : Table} {f : Nat → Nat} {cells cells' : List Cell}

/-! ### Rules -/

/-- The row of a cell that fails a check, with its message. -/
def failure? (e : Engine) (check : Check) (column : List Cell) (cell : Cell) :
    Option (Nat × String) :=
  (check.violation? e.settings e.catalog column cell).toOption.join.map fun v =>
    (cell.row, v.message cell.text)

/-- The failures of a column are those of its cells. -/
theorem failures_eq_filterMap {check : Check} {found : List (Option Violation)}
    (h : e.violations check cells = .ok found) :
    failures cells found = cells.filterMap (e.failure? check cells) := by
  have hall : ∀ {column cells : List Cell} {found : List (Option Violation)},
      List.Forall₂ (fun cell v => check.violation? e.settings e.catalog column cell = .ok v)
        cells found → failures cells found = cells.filterMap (e.failure? check column) := by
    intro column cells found h
    induction h with
    | nil => rfl
    | @cons cell v cells found hv _ ih =>
      have hfailure : e.failure? check column cell
          = v.map fun v => (cell.row, v.message cell.text) := by
        rw [failure?, hv]
        rfl
      rw [failures] at ih ⊢
      rw [List.zip_cons_cons, List.filterMap_cons, List.filterMap_cons, ih, hfailure]
  exact hall (mapM_eq_ok_iff.mp h)

/-- The failures of moved cells are moved and keep their messages. -/
theorem failures_perm (h : CellsMoved f cells cells') {check : Check}
    {found found' : List (Option Violation)} (hfound : e.violations check cells = .ok found)
    (hfound' : e.violations check cells' = .ok found') :
    (failures cells' found').Perm ((failures cells found).map (Prod.map f id)) := by
  have hfailure : ∀ cell, e.failure? check cells' (cell.renumber f)
      = (e.failure? check cells cell).map (Prod.map f id) := fun cell => by
    rw [failure?, failure?, h.violation?_eq, Option.map_map]
    rfl
  rw [failures_eq_filterMap hfound, failures_eq_filterMap hfound', List.map_filterMap]
  have hperm := h.perm.filterMap (e.failure? check cells')
  rw [List.filterMap_map] at hperm
  rwa [show e.failure? check cells' ∘ Cell.renumber f = fun cell =>
    (e.failure? check cells cell).map (Prod.map f id) from funext hfailure] at hperm

/-- Where a needed type is not declared, moved cells fail as the cells do, all with one message. -/
theorem untypedOutcome_moved (h : CellsMoved f cells cells') (rule : Rule) (phrase : String) :
    (untypedOutcome rule phrase cells).Moved f (untypedOutcome rule phrase cells') := by
  have hfailed : ∀ cells : List Cell, (untypedOutcome rule phrase cells).failedRows
        = (cells.map fun cell => (cell.row, Violation.noTypeMessage)).map (·.1) ∧
      (untypedOutcome rule phrase cells).messages
        = (cells.map fun cell => (cell.row, Violation.noTypeMessage)).map (·.2) := fun cells => by
    rw [List.map_map, List.map_map]
    exact ⟨rfl, rfl⟩
  refine RuleOutcome.moved_of_failures _ _ rfl rfl rfl rfl rfl (hfailed cells) (hfailed cells')
    ?_ ?_
  · rw [List.map_map]
    exact h.rows.increasing
  · have hperm := h.perm.map fun cell => (cell.row, Violation.noTypeMessage)
    rw [List.map_map] at hperm ⊢
    exact hperm

/-- Where a check is made, the outcome on moved cells is moved. -/
theorem ruleOutcome_moved (h : CellsMoved f cells cells') (rule : Rule) (phrase : String)
    {check : Check} {found found' : List (Option Violation)}
    (hfound : e.violations check cells = .ok found)
    (hfound' : e.violations check cells' = .ok found') :
    (ruleOutcome rule phrase cells found).Moved f (ruleOutcome rule phrase cells' found') := by
  have hperm := failures_perm h hfound hfound'
  refine RuleOutcome.moved_of_failures _ _ rfl rfl rfl ?_ rfl ⟨rfl, rfl⟩ ⟨rfl, rfl⟩ ?_ hperm
  · change cells'.length - _ = cells.length - _
    rw [h.length_eq, hperm.length_eq, List.length_map]
  · rw [failures_rows (mapM_eq_ok_iff.mp hfound')]
    exact List.pairwise_map.mpr (h.increasing.sublist List.filter_sublist)

/-- **A rule on moved cells** comes to the moved outcome. -/
theorem exists_evaluateRule_moved (h : CellsMoved f cells cells') {typed : Bool} {rule : Rule}
    {o : RuleOutcome} (ho : e.evaluateRule cells typed rule = .ok o) :
    ∃ o', e.evaluateRule cells' typed rule = .ok o' ∧ o.Moved f o' := by
  obtain ⟨check, phrase, hcheck, hphrase, ⟨hneeds, htyped, rfl⟩ | ⟨hskip, found, hfound, rfl⟩⟩ :=
    evaluateRule_eq_ok ho
  · subst htyped
    exact ⟨_, evaluateRule_untyped hcheck hphrase hneeds, untypedOutcome_moved h rule phrase⟩
  · obtain ⟨found', hfound'⟩ : ∃ found', e.violations check cells' = .ok found' :=
      exists_mapM_eq_ok fun cell' hcell' => by
        obtain ⟨cell, hcell, rfl⟩ := h.exists_of_mem hcell'
        rw [h.violation?_eq]
        exact violation?_eq_ok_of_mem hfound hcell
    exact ⟨_, evaluateRule_checks hcheck hphrase hskip hfound',
      ruleOutcome_moved h rule phrase hfound hfound'⟩

/-! ### Blocks -/

/-- **A block on a permuted table** comes to the moved outcome. -/
theorem exists_evaluateColumn_permute (σ : Equiv.Perm (Fin table.rows.length)) {b : Block}
    {o : ColumnOutcome} (ho : e.evaluateColumn table b = .ok o) :
    ∃ o', e.evaluateColumn (table.permute σ) b = .ok o' ∧ o.Moved (Table.movedRow σ) o' := by
  obtain ⟨cells, outcomes, hcells, houtcomes, rfl⟩ := evaluateColumn_eq_ok_iff.mp ho
  obtain ⟨cells', hcells', hmoved⟩ := exists_cells_permute σ hcells
  obtain ⟨outcomes', houtcomes', hrules⟩ :
      ∃ outcomes', b.rules.mapM (e.evaluateRule cells' b.valueType.isSome) = .ok outcomes' ∧
        List.Forall₂ (RuleOutcome.Moved (Table.movedRow σ)) outcomes outcomes' := by
    refine exists_mapM_forall₂ (List.forall₂_same.mpr fun _ _ => rfl) ?_ houtcomes
    rintro rule _ rfl o ho
    exact exists_evaluateRule_moved hmoved ho
  exact ⟨_, evaluateColumn_eq_ok_iff.mpr ⟨cells', outcomes', hcells', houtcomes', rfl⟩, rfl, hrules,
    (hmoved.filter fun _ _ => rfl).length_eq⟩

/-! ### Conditional rules -/

/-- A moved cell fulfils a condition exactly if the cell does. -/
theorem fulfils_renumber (h : CellsMoved f cells cells') (rule : Rule) (check : Check)
    (cell : Cell) :
    e.fulfils rule check cells' (cell.renumber f) = e.fulfils rule check cells cell := by
  unfold fulfils
  rw [h.violation?_eq]
  rfl

/-- **The first pass** on a permuted table finds the moved rows. -/
theorem exists_antecedentRows_permute (σ : Equiv.Perm (Fin table.rows.length)) {c : Clause}
    {rows : List Nat} (h : e.antecedentRows table c = .ok rows) :
    ∃ rows', e.antecedentRows (table.permute σ) c = .ok rows' ∧
      RowsMoved (Table.movedRow σ) rows rows' := by
  obtain ⟨cells, check, hcells, hcheck, h⟩ := antecedentRows_eq_ok_iff.mp h
  obtain ⟨cells', hcells', hmoved⟩ := exists_cells_permute σ hcells
  split_ifs at h with hskip
  · obtain rfl := h
    exact ⟨[], antecedentRows_eq_ok_iff.mpr ⟨cells', check, hcells', hcheck, by rw [if_pos hskip]⟩,
      .nil⟩
  · obtain ⟨matched, hmatched, rfl⟩ := h
    obtain ⟨matched', hmatched', hrows⟩ := hmoved.exists_filterM
      (fun cell _ => fulfils_renumber hmoved c.rule check cell) hmatched
    refine ⟨_, antecedentRows_eq_ok_iff.mpr ⟨cells', check, hcells', hcheck, ?_⟩, hrows.rows⟩
    rw [if_neg hskip]
    exact ⟨matched', hmatched', rfl⟩

/-- **The second pass** on a permuted table, given the moved rows, finds the moved failures. -/
theorem exists_consequentFailures_permute (σ : Equiv.Perm (Fin table.rows.length)) {c : Clause}
    {rows rows' failed : List Nat} (hrows : RowsMoved (Table.movedRow σ) rows rows')
    (hpos : ∀ row ∈ rows, 0 < row) (h : e.consequentFailures table c rows = .ok failed) :
    ∃ failed', e.consequentFailures (table.permute σ) c rows' = .ok failed' ∧
      RowsMoved (Table.movedRow σ) failed failed' := by
  obtain ⟨cells, check, hcells, hcheck, hkept⟩ := consequentFailures_eq_ok_iff.mp h
  obtain ⟨cells', hcells', hmoved⟩ := exists_cells_permute σ hcells
  have hrow : ∀ row ∈ rows,
      e.failsAt check cells' (Table.movedRow σ row) = e.failsAt check cells row := by
    intro row hrow
    -- the cell of the row was moved with it
    obtain ⟨cell, hcell, rfl, -⟩ := exists_violation?_of_failsAt hcells (hpos row hrow)
      (eq_ok_of_filterM_eq_ok hkept hrow)
    have hcell' : cell.renumber (Table.movedRow σ) ∈ cells' :=
      hmoved.perm.mem_iff.mpr (List.mem_map_of_mem hcell)
    have hmovedRow := failsAt_row hcells' check hcell'
    rw [hmoved.violation?_eq] at hmovedRow
    rw [failsAt_row hcells check hcell]
    exact hmovedRow
  obtain ⟨failed', hfailed', hfailures⟩ := hrows.exists_filterM hrow hkept
  exact ⟨failed', consequentFailures_eq_ok_iff.mpr ⟨cells', check, hcells', hcheck, hfailed'⟩,
    hfailures⟩

theorem conditionalOutcome_moved {name : String} {matched matched' failed failed' : List Nat}
    (hmatched : RowsMoved f matched matched') (hfailed : RowsMoved f failed failed') :
    (conditionalOutcome name matched failed).Moved f
      (conditionalOutcome name matched' failed') := by
  unfold conditionalOutcome
  rw [hmatched.isEmpty_eq, hfailed.isEmpty_eq]
  split_ifs <;> exact ⟨rfl, rfl, hmatched, hfailed, rfl⟩

/-- **A conditional rule on a permuted table** comes to the moved outcome. -/
theorem exists_evaluateConditional_permute (σ : Equiv.Perm (Fin table.rows.length))
    {c : Conditional} {o : ConditionalOutcome} (ho : e.evaluateConditional table c = .ok o) :
    ∃ o', e.evaluateConditional (table.permute σ) c = .ok o' ∧ o.Moved (Table.movedRow σ) o' := by
  have habsent : absentColumns (table.permute σ) c = absentColumns table c := rfl
  unfold evaluateConditional at ho ⊢
  rw [habsent]
  generalize absentColumns table c = absent at ho ⊢
  cases absent with
  | nil =>
    obtain ⟨matched, hmatched, ho⟩ := bind_eq_ok_iff.mp ho
    obtain ⟨failed, hfailed, ho⟩ := bind_eq_ok_iff.mp ho
    obtain rfl := Except.ok.inj ho
    obtain ⟨matched', hmatched', hrows⟩ := exists_antecedentRows_permute σ hmatched
    obtain ⟨failed', hfailed', hfailures⟩ := exists_consequentFailures_permute σ hrows
      (pos_of_antecedentRows hmatched) hfailed
    exact ⟨_, bind_eq_ok_iff.mpr ⟨matched', hmatched', bind_eq_ok_iff.mpr ⟨failed', hfailed', rfl⟩⟩,
      conditionalOutcome_moved hrows hfailures⟩
  | cons column columns =>
    obtain rfl := Except.ok.inj ho
    exact ⟨_, rfl, rfl, rfl, .nil, .nil, rfl⟩

/-! ### Reports -/

/-- The numbers of missing values do not depend on the order of the rows. -/
theorem missingValues_permute (σ : Equiv.Perm (Fin table.rows.length)) :
    e.missingValues (table.permute σ) = e.missingValues table := by
  unfold missingValues
  refine List.map_congr_left fun column _ => ?_
  rw [((Table.column_permute_perm column).filter _).length_eq]

/-- The assembly of a validation is moved before any outcome is recorded. -/
theorem opening_permute (σ : Equiv.Perm (Fin table.rows.length)) :
    (e.opening table).Moved (Table.movedRow σ) (e.opening (table.permute σ)) where
  source := rfl
  rowCount := Table.length_rows_permute
  columnCount := rfl
  ruleset := rfl
  findings := by
    refine Finding.forall₂_moved fun x hx => ?_
    rw [findings_opening] at hx
    rcases List.mem_append.mp hx with hx | hx
    · obtain ⟨message, column, rule, rfl⟩ := Ruleset.exists_of_mem_linkFindings hx
      rfl
    · obtain ⟨severity, message, column, rfl⟩ := ColumnSpec.exists_of_mem_checkHeader hx
      rfl
  missingValues := congrArg Keyed.ofList (missingValues_permute σ)
  columns := by
    refine List.forall₂_same.mpr fun place hplace => ?_
    obtain ⟨b, -, rfl⟩ := List.mem_map.mp hplace
    exact ⟨rfl, .none⟩
  conditionals := by
    refine List.forall₂_same.mpr fun place hplace => ?_
    obtain ⟨c, -, rfl⟩ := List.mem_map.mp hplace
    exact ⟨rfl, .none⟩

/-- **The order of the rows does not matter.** Whenever a table has a report, the table with its
rows in any other order has one as well, and it is the moved report: rows are called by their new
numbers, each failed row keeps its message, and everything else is the same, the findings about the
header among it. -/
theorem evaluate_permute (e : Engine) (table : Table) (σ : Equiv.Perm (Fin table.rows.length))
    (report : Report) (h : e.evaluate table = .ok report) :
    ∃ report', e.evaluate (table.permute σ) = .ok report' ∧
      report.Moved (Table.movedRow σ) report' ∧
      (report'.findings.filter fun x => x.category = .header)
        = report.findings.filter fun x => x.category = .header := by
  obtain ⟨columns, hcolumns, h⟩ := bind_eq_ok_iff.mp h
  obtain ⟨conditionals, hconditionals, h⟩ := bind_eq_ok_iff.mp h
  rw [mapError_eq_ok_iff] at hcolumns hconditionals h
  -- the outcomes are moved, one by one
  obtain ⟨columns', hcolumns', hmovedColumns⟩ :
      ∃ columns', e.evaluateColumns (table.permute σ) = .ok columns' ∧
        List.Forall₂ (ColumnOutcome.Moved (Table.movedRow σ)) columns columns' := by
    refine exists_mapM_forall₂ (List.forall₂_same.mpr fun _ _ => rfl) ?_ hcolumns
    rintro b _ rfl o ho
    exact exists_evaluateColumn_permute σ ho
  obtain ⟨conditionals', hconditionals', hmovedConditionals⟩ :
      ∃ conditionals', e.evaluateConditionals (table.permute σ) = .ok conditionals' ∧
        List.Forall₂ (ConditionalOutcome.Moved (Table.movedRow σ)) conditionals conditionals' := by
    refine exists_mapM_forall₂ (List.forall₂_same.mpr fun _ _ => rfl) ?_ hconditionals
    rintro c _ rfl o ho
    exact exists_evaluateConditional_permute σ ho
  -- so is the assembly, with every outcome that is recorded
  obtain ⟨a, ha, h⟩ := bind_eq_ok_iff.mp h
  obtain ⟨b, hb, hbuild⟩ := bind_eq_ok_iff.mp h
  obtain ⟨a', ha', hmoved⟩ := exists_foldlM_forall₂ hmovedColumns
    (fun _ _ _ _ hs ho _ => hs.recordColumn ho) (opening_permute σ) ha
  obtain ⟨b', hb', hmoved⟩ := exists_foldlM_forall₂ hmovedConditionals
    (fun _ _ _ _ hs ho _ => hs.recordConditional ho) hmoved hb
  obtain ⟨report', hreport', hmoved⟩ := hmoved.exists_build hbuild
  refine ⟨report', ?_, hmoved, Finding.filter_category hmoved.findings rfl⟩
  refine bind_eq_ok_iff.mpr ⟨columns', mapError_eq_ok_iff.mpr hcolumns', ?_⟩
  refine bind_eq_ok_iff.mpr ⟨conditionals', mapError_eq_ok_iff.mpr hconditionals', ?_⟩
  exact mapError_eq_ok_iff.mpr
    (bind_eq_ok_iff.mpr ⟨a', ha', bind_eq_ok_iff.mpr ⟨b', hb', hreport'⟩⟩)

/-! #### A depot

The goods in a depot are to have different labels and weights below ten, and those below five a
label. One label occurs twice, one weight is too heavy and one unreadable, and something light has
no label. -/

/-- An engine with these rules; a column for the carrier is required as well. -/
def depotEngine : Engine :=
  ⟨⟨.standard, ⟨["label", "weight", "carrier"], true, false, false⟩,
    [⟨"label", [⟨.unique, some 3⟩]⟩,
      ⟨"weight", [⟨.hasType .integer, some 5⟩, ⟨.compare .less (.integer 10), some 6⟩]⟩],
    [⟨"light", ⟨"weight", ⟨.compare .less (.integer 5), some 9⟩⟩,
      ⟨"label", ⟨.required, some 10⟩⟩, some 8⟩],
    none, by decide, by decide⟩, .standard, 1⟩

/-- Four goods. -/
def depotTable : Table :=
  ⟨["label", "weight"],
    [[("label", some "a"), ("weight", some "4")], [("label", some "b"), ("weight", some "12")],
      [("label", some " a"), ("weight", some "x")], [("weight", some "3")]], none⟩

/-- The rows that fail the rules of columns, and those that conditional rules match and fail. -/
def outcomeRows (r : Report) : List (List Nat) :=
  (r.columns.flatMap fun o => o.rules.map RuleOutcome.failedRows) ++
    r.conditionals.flatMap fun o => [o.matchedRows, o.failedRows]

/-- With the last of the goods put first, the report names the same goods. -/
theorem depotTable_permute :
    ∃ report report', depotEngine.evaluate depotTable = .ok report ∧
      depotEngine.evaluate (depotTable.permute (finRotate 4)) = .ok report' ∧
      report.Moved (Table.movedRow (finRotate 4)) report' ∧
      (report'.findings.filter fun x => x.category = .header)
        = (report.findings.filter fun x => x.category = .header) ∧
      outcomeRows report = [[1, 3], [3], [2, 3], [1, 4], [4]] ∧
      outcomeRows report' = [[2, 4], [4], [3, 4], [1, 2], [1]] := by
  have hrun : (depotEngine.evaluate depotTable).toOption.any
      (fun r => outcomeRows r == [[1, 3], [3], [2, 3], [1, 4], [4]]) = true := by
    decide +kernel
  have hrun' : (depotEngine.evaluate (depotTable.permute (finRotate 4))).toOption.any
      (fun r => outcomeRows r == [[2, 4], [4], [3, 4], [1, 2], [1]]) = true := by
    decide +kernel
  obtain ⟨report, hreport, hrows⟩ := any_toOption_iff.mp hrun
  obtain ⟨report', hreport', hrows'⟩ := any_toOption_iff.mp hrun'
  obtain ⟨moved, hmoved, hreports, hheader⟩ :=
    evaluate_permute depotEngine depotTable (finRotate 4) report hreport
  obtain rfl := Except.ok.inj (hreport'.symm.trans hmoved)
  exact ⟨report, report', hreport, hreport', hreports, hheader, beq_iff_eq.mp hrows,
    beq_iff_eq.mp hrows'⟩

end Engine

end TableRules
