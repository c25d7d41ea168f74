import TableRules.Proofs.Metrics.Conservation

/-!
# Statuses of evaluated rules

Every evaluated rule is counted as passed or as failed. The count looks at the failed rows only,
while a rule in a report passes if it has neither a failed row nor a note. The two differ where a
rule fails as a whole and there is no row to show it: a rule that needs a type, on a column without
one, in a table without rows (`CompletedRun.hiddenRules`). Such a rule is counted as passed although
the report says that it failed.

**Main result** (`totals_count_statuses`): the totals by status are the numbers of rules that passed
and failed in the reports, apart from the hidden ones; so they agree with the reports exactly where
none is hidden. They do not agree everywhere (`emptyListRun_hidden`).
-/

namespace TableRules

open Result

/-! ### Evaluated rules in reports -/

namespace CompletedRun

variable (r : CompletedRun)

/-- The outcomes of rules in the report. -/
def ruleOutcomes : List RuleOutcome := r.report.columns.flatMap ColumnOutcome.rules

/-- The rules in the report that passed. -/
def passedRules : Nat := r.ruleOutcomes.countP fun o => o.passed

/-- The rules in the report that did not pass. -/
def failedRules : Nat := r.ruleOutcomes.countP fun o => !o.passed

/-- The rules of the evaluated blocks that need a type where the block declares none. -/
def untypedRules : List Rule :=
  (r.blocks.filter fun b => b.valueType.isNone).flatMap fun b =>
    b.rules.filter fun rule => rule.kind.family.needsType

/-- The rules that failed as a whole while no row is there to show it. -/
def hiddenRules : Nat := if r.table.rowCount = 0 then r.untypedRules.length else 0

end CompletedRun

/-- Whether the labels of a series name a status. -/
def Labels.nameStatus (status : String) (labels : Labels) : Bool :=
  labels.contains ("status", status)

/-- The number of evaluated rules that are counted with a status. -/
def Readings.rulesWith (readings : Readings) (status : String) : Int :=
  readings.sumWhere .rulesEvaluated (Labels.nameStatus status)

/-- Totals by status count the rules of some validations: those that passed and those that failed in
the reports, except that hidden ones are counted as passed. So the totals agree with the reports
exactly if no table without rows has a rule that needs a type on a column without one. -/
structure CountsStatuses (runs : List CompletedRun) (total : String → Int) : Prop where
  failed : total "failed" + (runs.map CompletedRun.hiddenRules).sum =
    (runs.map CompletedRun.failedRules).sum
  passed : total "passed" =
    (runs.map CompletedRun.passedRules).sum + (runs.map CompletedRun.hiddenRules).sum
  agrees_iff : (total "failed" = (runs.map CompletedRun.failedRules).sum ∧
      total "passed" = (runs.map CompletedRun.passedRules).sum) ↔
    ∀ r ∈ runs, r.table.rowCount = 0 → r.untypedRules = []

/-! ### Outcomes without failed rows -/

namespace Engine

variable {e : Engine} {table : Table} {cells : List Cell} {typed : Bool}

/-- A rule has no failed row if it passed, or else if it needs a type where there is none, and there
are no cells. -/
theorem isEmpty_failedRows_of_evaluateRule {rule : Rule} {o : RuleOutcome}
    (h : e.evaluateRule cells typed rule = .ok o) :
    (if o.failedRows.isEmpty then 1 else 0) = (if o.passed then 1 else 0) +
      if cells.isEmpty && !typed then (if rule.kind.family.needsType then 1 else 0) else 0 := by
  obtain ⟨check, phrase, -, -, ⟨hneeds, rfl, rfl⟩ | ⟨hskip, found, -, rfl⟩⟩ :=
    evaluateRule_eq_ok h
  · -- the rule fails as a whole, and only where there are cells it has failed rows
    have hpassed : (untypedOutcome rule phrase cells).passed = false := Bool.and_false _
    rw [hpassed, hneeds]
    simp [untypedOutcome]
  · have hpassed : (ruleOutcome rule phrase cells found).passed =
        (ruleOutcome rule phrase cells found).failedRows.isEmpty := Bool.and_true _
    rw [hpassed, left_eq_add]
    split_ifs with huntyped hneeds
    · exact absurd ⟨hneeds, by simpa using (Bool.and_eq_true_iff.mp huntyped).2⟩ hskip
    · rfl
    · rfl

/-- Of the outcomes of rules, those without failed rows are the passed ones and, where there are no
cells and no type, those of the rules that need one. -/
theorem countP_isEmpty_failedRows {rules : List Rule} {outcomes : List RuleOutcome}
    (h : List.Forall₂ (fun rule o => e.evaluateRule cells typed rule = .ok o) rules outcomes) :
    (outcomes.countP fun o => o.failedRows.isEmpty) =
      (outcomes.countP fun o => o.passed) +
        if cells.isEmpty && !typed then rules.countP fun rule => rule.kind.family.needsType
        else 0 := by
  induction h with
  | nil => simp
  | @cons rule o rules outcomes ho _ ih =>
    rw [List.countP_cons, List.countP_cons, List.countP_cons, ih,
      isEmpty_failedRows_of_evaluateRule ho]
    split_ifs <;> omega

/-- The same of the outcomes of an evaluated block. -/
theorem countP_isEmpty_failedRows_of_evaluateColumn {b : Block} {o : ColumnOutcome}
    (h : e.evaluateColumn table b = .ok o) :
    (o.rules.countP fun outcome => outcome.failedRows.isEmpty) =
      (o.rules.countP fun outcome => outcome.passed) +
        if table.rowCount = 0 ∧ b.valueType.isNone then
          b.rules.countP fun rule => rule.kind.family.needsType
        else 0 := by
  obtain ⟨cells, outcomes, hcells, houtcomes, rfl⟩ := evaluateColumn_eq_ok_iff.mp h
  rw [countP_isEmpty_failedRows (mapM_eq_ok_iff.mp houtcomes), ← length_cells hcells]
  simp

/-- The same of the outcomes of some evaluated blocks. -/
theorem countP_isEmpty_failedRows_of_forall₂ {blocks : List Block} {columns : List ColumnOutcome}
    (h : List.Forall₂ (fun b o => e.evaluateColumn table b = .ok o) blocks columns) :
    ((columns.flatMap ColumnOutcome.rules).countP fun outcome => outcome.failedRows.isEmpty) =
      ((columns.flatMap ColumnOutcome.rules).countP fun outcome => outcome.passed) +
        if table.rowCount = 0 then
          ((blocks.filter fun b => b.valueType.isNone).flatMap fun b =>
            b.rules.filter fun rule => rule.kind.family.needsType).length
        else 0 := by
  induction h with
  | nil => simp
  | @cons b o blocks columns ho _ ih =>
    rw [List.flatMap_cons, List.countP_append, List.countP_append, ih,
      countP_isEmpty_failedRows_of_evaluateColumn ho, List.filter_cons]
    by_cases hrows : table.rowCount = 0 <;> by_cases htype : b.valueType.isNone
    all_goals
      simp only [hrows, htype, and_self, and_true, true_and, if_true, if_false,
        Bool.false_eq_true, List.flatMap_cons, List.length_append, List.countP_eq_length_filter]
      omega

end Engine

namespace CompletedRun

variable (r : CompletedRun)

/-- The rules without failed rows in a report are those that passed and the hidden ones. -/
theorem countP_isEmpty_failedRows :
    (r.ruleOutcomes.countP fun o => o.failedRows.isEmpty) = r.passedRules + r.hiddenRules := by
  rw [passedRules, ruleOutcomes, Engine.countP_isEmpty_failedRows_of_forall₂ r.forall₂_columns,
    hiddenRules, untypedRules]

/-- The rules with failed rows and the hidden ones are those that did not pass. -/
theorem countP_failedRows_add_hiddenRules :
    (r.ruleOutcomes.countP fun o => !o.failedRows.isEmpty) + r.hiddenRules = r.failedRules := by
  have hempty := r.countP_isEmpty_failedRows
  have hrows := List.length_eq_countP_add_countP (fun o : RuleOutcome => o.failedRows.isEmpty)
    (l := r.ruleOutcomes)
  have hpassed := List.length_eq_countP_add_countP (fun o : RuleOutcome => o.passed)
    (l := r.ruleOutcomes)
  rw [failedRules, passedRules] at *
  simp only [Bool.not_eq_true, Bool.decide_eq_false] at *
  omega

end CompletedRun

/-! ### What is counted -/

namespace Increment

variable {status : String}

/-- What an increment adds to the number of rules that are counted with a status. -/
def ruleShare (status : String) (i : Increment) : Nat :=
  i.shareWhere .rulesEvaluated (Labels.nameStatus status)

/-- What an evaluated rule adds to the series of a status. -/
theorem sum_ruleShare_ofRule (family column : String) (cells failures : Nat) :
    ((ofRule family column cells failures).map (ruleShare status)).sum =
      if (if failures = 0 then "passed" else "failed") = status then 1 else 0 := by
  have hsort := fun v w => sortLabels_pair (by decide : ¬"status" < "rule_type") v w
  simp [ruleShare, shareWhere, ofRule, Labels.nameStatus, hsort, Number.count, eq_comm]

/-- Other counters add nothing to it. -/
theorem sum_ruleShare_eq_zero {is : List Increment} (h : ∀ i ∈ is, i.counter ≠ .rulesEvaluated) :
    (is.map (ruleShare status)).sum = 0 := by
  rw [List.sum_eq_zero_iff]
  intro n hn
  obtain ⟨i, hi, rfl⟩ := List.mem_map.mp hn
  simp [ruleShare, shareWhere, Labels.nameStatus, h i hi]

end Increment

/-- The status with which a rule is counted: only failed rows make it failed. -/
def RuleOutcome.countedStatus (o : RuleOutcome) : String :=
  if o.failedCount = 0 then "passed" else "failed"

/-- An evaluated block adds one for each of its rules to the series of the rule's status. -/
theorem Engine.sum_ruleShare_columnIncrements {e : Engine} {table : Table} {b : Block}
    {o : ColumnOutcome} (h : e.evaluateColumn table b = .ok o) (status : String) :
    ((e.columnIncrements table b).map (Increment.ruleShare status)).sum =
      o.rules.countP fun outcome => outcome.countedStatus = status := by
  obtain ⟨cells, -, hincrements⟩ := columnIncrements_eq h
  have hreading : ((readingIncrements b cells).map (Increment.ruleShare status)).sum = 0 :=
    Increment.sum_ruleShare_eq_zero fun i hi => by
      rw [counter_of_mem_readingIncrements hi]
      decide
  have hlen : o.rules.length ≤ b.rules.length := (isOf_of_evaluateColumn h).2.length_eq.ge
  have hrules : ((b.rules.zip o.rules).map fun p =>
      if p.2.countedStatus = status then 1 else 0) =
        o.rules.map fun outcome => if outcome.countedStatus = status then 1 else 0 := by
    conv_rhs => rw [← List.map_snd_zip hlen, List.map_map]
    rfl
  rw [hincrements, List.map_append, List.sum_append, hreading, Nat.zero_add, sum_map_flatMap]
  simp only [Increment.sum_ruleShare_ofRule]
  rw [List.countP_eq_length_filter]
  refine (congrArg List.sum hrules).trans ?_
  rw [← sum_map_filter]
  simp

namespace CompletedRun

variable (r : CompletedRun)

/-- A completed validation adds one for each rule in the report to the series of the rule's
status. -/
theorem sum_ruleShare_recordings (status : String) :
    ((Recording.increments r.recordings).map (Increment.ruleShare status)).sum =
      r.ruleOutcomes.countP fun o => o.countedStatus = status := by
  have hconditionals : ((r.report.conditionals.map fun o => Increment.ofConditional o.status).map
      (Increment.ruleShare status)).sum = 0 :=
    Increment.sum_ruleShare_eq_zero (List.forall_mem_map.mpr fun _ _ => nofun)
  have hfindings : ((r.report.findings.map Increment.ofFinding).map
      (Increment.ruleShare status)).sum = 0 :=
    Increment.sum_ruleShare_eq_zero (List.forall_mem_map.mpr fun _ _ => nofun)
  have hblocks : (r.report.columns.map fun o =>
      o.rules.countP fun outcome => outcome.countedStatus = status) =
        r.blocks.map fun b => ((r.engine.columnIncrements r.table b).map
          (Increment.ruleShare status)).sum :=
    map_eq_of_forall₂ (r.forall₂_columns.imp fun b o ho =>
      (Engine.sum_ruleShare_columnIncrements ho status).symm)
  rw [r.increments_recordings, List.map_append, List.map_append, List.sum_append, List.sum_append,
    hconditionals, hfindings, sum_map_flatMap, ← hblocks, ruleOutcomes, List.countP_flatMap]
  rfl

/-- The rules counted as passed are those that passed and the hidden ones. -/
theorem countP_countedStatus_passed :
    (r.ruleOutcomes.countP fun o => o.countedStatus = "passed") =
      r.passedRules + r.hiddenRules := by
  rw [← countP_isEmpty_failedRows]
  refine List.countP_congr fun o _ => ?_
  simp [RuleOutcome.countedStatus, RuleOutcome.failedCount]

/-- The rules counted as failed and the hidden ones are those that did not pass. -/
theorem countP_countedStatus_failed :
    (r.ruleOutcomes.countP fun o => o.countedStatus = "failed") + r.hiddenRules =
      r.failedRules := by
  rw [← countP_failedRows_add_hiddenRules]
  congr 1
  refine List.countP_congr fun o _ => ?_
  simp [RuleOutcome.countedStatus, RuleOutcome.failedCount]

end CompletedRun

/-! ### Many validations -/

/-- No rule of some validations is hidden exactly if no table without rows has a rule that needs a
type on a column without one. -/
theorem sum_hiddenRules_eq_zero_iff {runs : List CompletedRun} :
    (runs.map CompletedRun.hiddenRules).sum = 0 ↔
      ∀ r ∈ runs, r.table.rowCount = 0 → r.untypedRules = [] := by
  rw [List.sum_eq_zero_iff]
  simp only [List.forall_mem_map, CompletedRun.hiddenRules, ite_eq_right_iff,
    List.length_eq_zero_iff]

/-- The rules that are counted with a status are those of all reports. -/
theorem rulesWith_record {S H : Type} {R : Register S H} {shown : S → Readings}
    {key : H → Counter × Labels} (hR : R.IsExact shown key) {runs : List CompletedRun}
    {recorded : List Recording}
    (hrecorded : recorded.Perm (runs.flatMap CompletedRun.recordings)) (status : String) :
    (shown (recorded.foldl R.record R.start)).rulesWith status =
      ((runs.map fun r =>
        r.ruleOutcomes.countP fun o => o.countedStatus = status).sum : Nat) := by
  have hcounts : ∀ i, .increment i ∈ recorded → i.IsCount := by
    intro i hi
    obtain ⟨r, -, hr⟩ := List.mem_flatMap.mp (hrecorded.mem_iff.mp hi)
    exact r.isCount_of_mem (Recording.mem_increments_iff.mpr hr)
  calc (shown (recorded.foldl R.record R.start)).rulesWith status
      = (((Recording.increments recorded).map (Increment.ruleShare status)).sum : Nat) :=
        hR.sumWhere_record _ hcounts
    _ = _ := by
      rw [sum_weights_of_perm hrecorded]
      simp only [CompletedRun.sum_ruleShare_recordings]

/-- **Statuses are counted by failed rows.** Take any validations that ended with reports, of any
rulesets and with any numbers of workers, and record what they recorded in any order, starting with
no series, in a register that keeps whole numbers exactly. Then the rules counted as failed are
those that did not pass in the reports, except for those that failed as a whole on a table without
rows, which are counted as passed. -/
theorem totals_count_statuses {S H : Type} (R : Register S H) (shown : S → Readings)
    (key : H → Counter × Labels) (hR : R.IsExact shown key) (runs : List CompletedRun)
    (recorded : List Recording)
    (hrecorded : recorded.Perm (runs.flatMap CompletedRun.recordings)) :
    CountsStatuses runs (shown (recorded.foldl R.record R.start)).rulesWith := by
  have htotal := rulesWith_record hR hrecorded
  have hfailed : (runs.map fun r => r.ruleOutcomes.countP fun o => o.countedStatus = "failed").sum +
      (runs.map CompletedRun.hiddenRules).sum = (runs.map CompletedRun.failedRules).sum := by
    rw [← List.sum_map_add]
    simp only [CompletedRun.countP_countedStatus_failed]
  have hpassed : (runs.map fun r => r.ruleOutcomes.countP fun o => o.countedStatus = "passed").sum =
      (runs.map CompletedRun.passedRules).sum + (runs.map CompletedRun.hiddenRules).sum := by
    rw [← List.sum_map_add]
    simp only [CompletedRun.countP_countedStatus_passed]
  -- The totals differ from the numbers in the reports by the hidden rules, one way and the other.
  constructor
  case failed => rw [htotal]; omega
  case passed => rw [htotal]; omega
  case agrees_iff =>
    rw [← sum_hiddenRules_eq_zero_iff, htotal, htotal]
    omega

/-! #### A list without prices

A price is to be above one, the block declares no type, and the table has no rows. -/

/-- An engine that compares prices without a type. -/
def priceEngine : Engine :=
  ⟨⟨.standard, ⟨["price"], false, false, false⟩,
    [⟨"price", [⟨.compare .greater (.integer 1), some 3⟩]⟩], [], none, by decide,
    List.nodup_nil⟩, .standard, 1⟩

/-- The validation of a list without prices. -/
def emptyListRun : CompletedRun :=
  .of priceEngine ⟨["price"], [], none⟩ (by decide +kernel)

/-- The comparison of the prices is counted as passed, beside the one rule that the freight
passes. -/
theorem emptyListRun_count_statuses :
    let recorded := emptyListRun.recordings ++ freightRun.recordings
    let total := (Series.wholeReadings (recorded.foldl Register.whole.record [])).rulesWith
    Register.whole.IsExact Series.wholeReadings id ∧
      recorded.Perm ([freightRun, emptyListRun].flatMap CompletedRun.recordings) ∧
      CountsStatuses [freightRun, emptyListRun] total ∧
      total "failed" = 2 ∧ total "passed" = 2 ∧
      [freightRun, emptyListRun].map CompletedRun.failedRules = [2, 1] ∧
      [freightRun, emptyListRun].map CompletedRun.passedRules = [1, 0] := by
  intro recorded total
  have hrecorded : recorded.Perm ([freightRun, emptyListRun].flatMap CompletedRun.recordings) := by
    rw [List.flatMap_cons, List.flatMap_singleton]
    exact List.perm_append_comm
  have hcounts := totals_count_statuses Register.whole Series.wholeReadings id
    Register.whole_isExact _ recorded hrecorded
  have hhidden : [freightRun, emptyListRun].map CompletedRun.hiddenRules = [0, 1] := by
    decide +kernel
  have hfailedRules : [freightRun, emptyListRun].map CompletedRun.failedRules = [2, 1] := by
    decide +kernel
  have hpassedRules : [freightRun, emptyListRun].map CompletedRun.passedRules = [1, 0] := by
    decide +kernel
  have hfailed := hcounts.failed
  have hpassed := hcounts.passed
  rw [hhidden, hfailedRules] at hfailed
  rw [hhidden, hpassedRules] at hpassed
  have hfailed : total "failed" + 1 = 3 := hfailed
  exact ⟨Register.whole_isExact, hrecorded, hcounts, by omega, hpassed, hfailedRules, hpassedRules⟩

/-- **A rule that failed is counted as passed** where it needs a type, there is none, and no row is
there to show it. -/
theorem emptyListRun_hidden :
    let total :=
      (Series.wholeReadings (emptyListRun.recordings.foldl Register.whole.record [])).rulesWith
    Register.whole.IsExact Series.wholeReadings id ∧
      (emptyListRun.ruleOutcomes.map fun o => (o.rule, o.note, o.passed)) =
        [("is > 1", some "no type declared", false)] ∧
      (total "failed" = 0 ∧ emptyListRun.failedRules = 1) ∧
      (total "passed" = 1 ∧ emptyListRun.passedRules = 0) := by
  intro total
  have hrecorded : emptyListRun.recordings.Perm
      ([emptyListRun].flatMap CompletedRun.recordings) := by rw [List.flatMap_singleton]
  have htotal := rulesWith_record Register.whole_isExact hrecorded
  have hfailed : total "failed" = 0 := (htotal "failed").trans (by decide +kernel)
  have hpassed : total "passed" = 1 := (htotal "passed").trans (by decide +kernel)
  exact ⟨Register.whole_isExact, by decide +kernel, ⟨hfailed, by decide +kernel⟩, hpassed,
    by decide +kernel⟩

end TableRules
