import TableRules.Proofs.Metrics.Contributions

/-!
# Counters conserve cells and findings

What a validation adds to the counters is what it found. The counters are kept up to date at distant
places, while blocks, conditional rules and the report are worked on, and amounts of zero are left
out. A validation that ended with a report still adds just this, in any order
(`CompletedRun.increments_recordings`):

* for every block that declares a type, one for each cell, as read, as a misfit or as null;
* for every rule of a block, one for each cell of its column, and one for each failed row;
* one for each outcome of a conditional rule and one for each finding of the report.

**Main result** (`totals_conserve`): after any number of validations, the totals of the counters
account for all their cells, failed rows, outcomes and findings.
-/

namespace TableRules

open Result

/-! ### Completed validations -/

/-- A validation that ended with a report. -/
structure CompletedRun where
  engine : Engine
  table : Table
  report : Report
  completed : engine.evaluate table = .ok report

namespace CompletedRun

/-- What a validation recorded. -/
def recordings (r : CompletedRun) : List Recording := r.engine.recordings r.table

/-- The blocks that were evaluated. -/
def blocks (r : CompletedRun) : List Block := r.engine.presentBlocks r.table

/-- The evaluated blocks that declare a type. -/
def typedBlocks (r : CompletedRun) (t : ValueType) : List Block :=
  r.blocks.filter fun b => b.valueType = some t

/-- The rows of the table, for each evaluated block that declares a type. -/
def typedRows (r : CompletedRun) (t : ValueType) : Nat :=
  ((r.typedBlocks t).map fun _ => r.table.rowCount).sum

/-- The cells that do not fit a type, in the blocks that declare it. -/
def misfits (r : CompletedRun) (t : ValueType) : Nat :=
  ((r.typedBlocks t).map fun b =>
    ((r.table.column b.column).filter (r.engine.misfits t)).length).sum

/-- The null cells in the blocks that declare a type. -/
def nulls (r : CompletedRun) (t : ValueType) : Nat :=
  ((r.typedBlocks t).map fun b =>
    ((r.table.column b.column).filter fun raw => isNull raw r.engine.settings).length).sum

/-- The rows of the table, for each rule of a family in the evaluated blocks. -/
def checkedCells (r : CompletedRun) (f : RuleFamily) : Nat :=
  (((r.blocks.flatMap Block.rules).filter fun rule => rule.kind.family = f).map fun _ =>
    r.table.rowCount).sum

/-- The failed rows in the report, for each rule of a family on a column. -/
def failures (r : CompletedRun) (f : RuleFamily) (column : String) : Nat :=
  ((((r.report.columns.filter fun o => o.column = column).flatMap ColumnOutcome.rules).filter
    fun o => o.family? = some f).map fun o => o.failedRows.length).sum

/-- The conditional rules in the report that came to a status. -/
def outcomes (r : CompletedRun) (s : ConditionalStatus) : Nat :=
  (r.report.conditionals.filter fun o => o.status = s).length

/-- The findings of the report of a severity in a category. -/
def findings (r : CompletedRun) (s : Severity) (c : Category) : Nat :=
  (r.report.findings.filter fun x => x.severity = s ∧ x.category = c).length

end CompletedRun

/-- The totals of counters account for some validations: all cells of typed columns are counted as
read, as misfits or as null, all cells that rules were applied to are counted, and the failed rows,
the outcomes of conditional rules and the findings are those of the reports. -/
structure Conserves (runs : List CompletedRun) (total : Counter → Labels → Int) : Prop where
  coercions (t : ValueType) :
    total .typeCoercions (.coercion "success" t) + total .typeCoercions (.coercion "failure" t) +
        total .typeCoercions (.coercion "null" t) =
      (runs.map fun r => r.typedRows t).sum
  misfits (t : ValueType) :
    total .typeCoercions (.coercion "failure" t) = (runs.map fun r => r.misfits t).sum
  nulls (t : ValueType) :
    total .typeCoercions (.coercion "null" t) = (runs.map fun r => r.nulls t).sum
  cells (f : RuleFamily) :
    total .cellsEvaluated (.family f) = (runs.map fun r => r.checkedCells f).sum
  failures (f : RuleFamily) (column : String) :
    total .ruleFailures (.failure f column) = (runs.map fun r => r.failures f column).sum
  outcomes (s : ConditionalStatus) :
    total .conditionalOutcomes (.outcome s) = (runs.map fun r => r.outcomes s).sum
  findings (s : Severity) (c : Category) :
    total .findings (.finding s c) = (runs.map fun r => r.findings s c).sum

/-! ### What a validation records -/

namespace Recording

theorem increments_append (as bs : List Recording) :
    increments (as ++ bs) = increments as ++ increments bs :=
  List.filterMap_append

theorem increments_map (is : List Increment) : increments (is.map .increment) = is := by
  rw [increments, List.filterMap_map]
  exact List.filterMap_some

theorem increments_rows_cons (n : Nat) (recorded : List Recording) :
    increments (.rows n :: recorded) = increments recorded := rfl

theorem increments_phase_cons (name : String) (recorded : List Recording) :
    increments (.phase name :: recorded) = increments recorded := rfl

end Recording

namespace CompletedRun

variable (r : CompletedRun)

/-- The outcomes in the report are those of the evaluated blocks. -/
theorem forall₂_columns :
    List.Forall₂ (fun b o => r.engine.evaluateColumn r.table b = .ok o) r.blocks
      r.report.columns :=
  mapM_eq_ok_iff.mp (Engine.outcomes_of_evaluate r.completed).1

/-- The outcomes in the report are those of the conditional rules. -/
theorem forall₂_conditionals :
    List.Forall₂ (fun c o => r.engine.evaluateConditional r.table c = .ok o)
      r.engine.ruleset.conditionals r.report.conditionals :=
  mapM_eq_ok_iff.mp (Engine.outcomes_of_evaluate r.completed).2.1

/-- What a completed validation counts: first the blocks, then the conditional rules, and in the end
the findings. -/
theorem increments_recordings :
    Recording.increments r.recordings =
      r.blocks.flatMap (r.engine.columnIncrements r.table) ++
        (r.report.conditionals.map fun o => .ofConditional o.status) ++
          r.report.findings.map .ofFinding := by
  have hcolumns : r.engine.evaluateColumns r.table = .ok r.report.columns :=
    (Engine.outcomes_of_evaluate r.completed).1
  -- Nothing broke off, so everything was attempted, whether side by side or one after another.
  have hblocks : r.engine.attempted (r.engine.evaluateColumn r.table)
      (r.engine.presentBlocks r.table) = r.blocks :=
    Engine.attempted_of_forall₂ r.forall₂_columns
  rw [recordings, Engine.recordings, hcolumns]
  dsimp only
  rw [Engine.columnRecordings, Engine.conditionalRecordings, Engine.reportRecordings, r.completed,
    hblocks, Engine.attempted_of_forall₂ r.forall₂_conditionals,
    Engine.flatMap_conditionalIncrements r.forall₂_conditionals]
  have hfindings : (r.report.findings.map fun f => Recording.increment (.ofFinding f)) =
      (r.report.findings.map .ofFinding).map .increment := by
    rw [List.map_map]
    rfl
  have hnil : Recording.increments [] = [] := rfl
  simp only [hfindings, List.cons_append, Recording.increments_append, Recording.increments_map,
    Recording.increments_rows_cons, Recording.increments_phase_cons, hnil, List.append_nil,
    List.nil_append, List.append_assoc]

end CompletedRun

/-! ### What a validation contributes -/

namespace CompletedRun

variable (r : CompletedRun)

/-- A completed validation only counts. -/
theorem isCount_of_mem {i : Increment} (h : i ∈ Recording.increments r.recordings) :
    i.IsCount := by
  rw [r.increments_recordings, List.mem_append, List.mem_append, List.mem_flatMap, List.mem_map,
    List.mem_map] at h
  rcases h with (⟨b, hb, hi⟩ | ⟨o, -, rfl⟩) | ⟨x, -, rfl⟩
  · obtain ⟨o, -, ho⟩ := exists_mem_of_forall₂ r.forall₂_columns hb
    exact Engine.isCount_of_mem_columnIncrements ho hi
  · exact ⟨⟨1, rfl⟩, by rw [Increment.ofConditional, sortLabels_singleton]; rfl⟩
  · exact ⟨⟨1, rfl⟩, by rw [Increment.ofFinding, sortLabels_pair (by decide)]; rfl⟩

variable {c : Counter} {labels : Labels}

theorem counter_of_mem_block {b : Block} (hb : b ∈ r.blocks) {i : Increment}
    (hi : i ∈ r.engine.columnIncrements r.table b) :
    i.counter ≠ .conditionalOutcomes ∧ i.counter ≠ .findings := by
  obtain ⟨o, -, ho⟩ := exists_mem_of_forall₂ r.forall₂_columns hb
  obtain ⟨cells, -, hincrements⟩ := Engine.columnIncrements_eq ho
  rw [hincrements, List.mem_append, List.mem_flatMap] at hi
  rcases hi with hi | ⟨p, -, hi⟩
  · rw [Engine.counter_of_mem_readingIncrements hi]
    decide
  · have hcounter := Engine.counter_of_mem_ofRule hi
    exact ⟨fun h => absurd (h ▸ hcounter) (by decide), fun h => absurd (h ▸ hcounter) (by decide)⟩

/-- What is counted of blocks, of conditional rules and of findings. -/
theorem shares_recordings :
    Increment.shares c labels (Recording.increments r.recordings) =
      (r.blocks.map fun b =>
        Increment.shares c labels (r.engine.columnIncrements r.table b)).sum +
      Increment.shares c labels (r.report.conditionals.map fun o => .ofConditional o.status) +
      Increment.shares c labels (r.report.findings.map .ofFinding) := by
  rw [r.increments_recordings, Increment.shares_append, Increment.shares_append,
    Increment.shares_flatMap]

theorem shares_conditionals_eq_zero (hc : c ≠ .conditionalOutcomes) :
    Increment.shares c labels (r.report.conditionals.map fun o => .ofConditional o.status) = 0 := by
  refine Increment.shares_eq_zero fun i hi => ?_
  obtain ⟨o, -, rfl⟩ := List.mem_map.mp hi
  exact hc.symm

theorem shares_findings_eq_zero (hc : c ≠ .findings) :
    Increment.shares c labels (r.report.findings.map .ofFinding) = 0 := by
  refine Increment.shares_eq_zero fun i hi => ?_
  obtain ⟨x, -, rfl⟩ := List.mem_map.mp hi
  exact hc.symm

theorem shares_blocks_eq_zero (hc : c = .conditionalOutcomes ∨ c = .findings) :
    (r.blocks.map fun b =>
      Increment.shares c labels (r.engine.columnIncrements r.table b)).sum = 0 := by
  rw [List.sum_eq_zero_iff]
  intro n hn
  obtain ⟨b, hb, rfl⟩ := List.mem_map.mp hn
  refine Increment.shares_eq_zero fun i hi => ?_
  obtain ⟨hconditional, hfinding⟩ := r.counter_of_mem_block hb hi
  rcases hc with rfl | rfl
  · exact hconditional
  · exact hfinding

/-- What a validation counts of its blocks, given what it counts of each. -/
theorem shares_eq_sum_blocks (hc : c ≠ .conditionalOutcomes ∧ c ≠ .findings) {n : Block → Nat}
    (hn : ∀ b o, r.engine.evaluateColumn r.table b = .ok o →
      Increment.shares c labels (r.engine.columnIncrements r.table b) = n b) :
    Increment.shares c labels (Recording.increments r.recordings) = (r.blocks.map n).sum := by
  rw [shares_recordings, shares_conditionals_eq_zero r hc.1, shares_findings_eq_zero r hc.2]
  refine congrArg List.sum (List.map_congr_left fun b hb => ?_)
  obtain ⟨o, -, ho⟩ := exists_mem_of_forall₂ r.forall₂_columns hb
  exact hn b o ho

/-- The misfits of a type are counted. -/
theorem shares_misfits (t : ValueType) :
    Increment.shares .typeCoercions (.coercion "failure" t) (Recording.increments r.recordings) =
      r.misfits t := by
  rw [misfits, typedBlocks, sum_map_filter]
  exact r.shares_eq_sum_blocks (by decide) fun b o ho =>
    (Engine.shares_columnIncrements_coercion ho t).2.1

/-- The null cells of a type are counted. -/
theorem shares_nulls (t : ValueType) :
    Increment.shares .typeCoercions (.coercion "null" t) (Recording.increments r.recordings) =
      r.nulls t := by
  rw [nulls, typedBlocks, sum_map_filter]
  exact r.shares_eq_sum_blocks (by decide) fun b o ho =>
    (Engine.shares_columnIncrements_coercion ho t).2.2

/-- All cells of a type are counted. -/
theorem shares_coercions (t : ValueType) :
    Increment.shares .typeCoercions (.coercion "success" t) (Recording.increments r.recordings) +
        Increment.shares .typeCoercions (.coercion "failure" t)
          (Recording.increments r.recordings) +
        Increment.shares .typeCoercions (.coercion "null" t) (Recording.increments r.recordings) =
      r.typedRows t := by
  have hblocks : ∀ labels, Increment.shares .typeCoercions labels
      (Recording.increments r.recordings) =
        (r.blocks.map fun b => Increment.shares .typeCoercions labels
          (r.engine.columnIncrements r.table b)).sum :=
    fun labels => r.shares_eq_sum_blocks (by decide) fun b o ho => rfl
  rw [hblocks, hblocks, hblocks, ← List.sum_map_add, ← List.sum_map_add, typedRows, typedBlocks,
    sum_map_filter]
  refine congrArg List.sum (List.map_congr_left fun b hb => ?_)
  obtain ⟨o, -, ho⟩ := exists_mem_of_forall₂ r.forall₂_columns hb
  exact (Engine.shares_columnIncrements_coercion ho t).1

/-- The cells that the rules of a family are applied to are counted. -/
theorem shares_checkedCells (f : RuleFamily) :
    Increment.shares .cellsEvaluated (.family f) (Recording.increments r.recordings) =
      r.checkedCells f := by
  rw [checkedCells, List.filter_flatMap, sum_map_flatMap]
  exact r.shares_eq_sum_blocks (by decide) fun b o ho =>
    Engine.shares_columnIncrements_cells ho f

/-- The failed rows in the report are counted. -/
theorem shares_failures (f : RuleFamily) (column : String) :
    Increment.shares .ruleFailures (.failure f column) (Recording.increments r.recordings) =
      r.failures f column := by
  have houtcomes : (r.report.columns.map fun o => if o.column = column then
      ((o.rules.filter fun outcome => outcome.family? = some f).map fun outcome =>
        outcome.failedRows.length).sum else 0) =
          r.blocks.map fun b => Increment.shares .ruleFailures (.failure f column)
            (r.engine.columnIncrements r.table b) :=
    map_eq_of_forall₂ (r.forall₂_columns.imp fun b o ho =>
      (Engine.shares_columnIncrements_failures ho f column).symm)
  rw [r.shares_eq_sum_blocks (by decide) fun b o ho => rfl, ← houtcomes, failures,
    List.filter_flatMap, sum_map_flatMap, sum_map_filter]

/-- The outcomes of conditional rules in the report are counted. -/
theorem shares_outcomes (s : ConditionalStatus) :
    Increment.shares .conditionalOutcomes (.outcome s) (Recording.increments r.recordings) =
      r.outcomes s := by
  rw [shares_recordings, shares_blocks_eq_zero r (.inl rfl), shares_findings_eq_zero r (by decide),
    Increment.shares_ofConditional, outcomes, Nat.zero_add, Nat.add_zero]

/-- The findings of the report are counted. -/
theorem shares_ofReport (s : Severity) (c : Category) :
    Increment.shares .findings (.finding s c) (Recording.increments r.recordings) =
      r.findings s c := by
  rw [shares_recordings, shares_blocks_eq_zero r (.inr rfl),
    shares_conditionals_eq_zero r (by decide), Increment.shares_ofFinding, findings,
    Nat.zero_add]

end CompletedRun

/-! ### Many validations -/

/-- What is recorded in any order weighs what the recordings of each validation weigh. -/
theorem sum_weights_of_perm {runs : List CompletedRun} {recorded : List Recording}
    (h : recorded.Perm (runs.flatMap CompletedRun.recordings)) (weight : Increment → Nat) :
    ((Recording.increments recorded).map weight).sum =
      (runs.map fun r => ((Recording.increments r.recordings).map weight).sum).sum := by
  have hincrements : (Recording.increments recorded).Perm
      (runs.flatMap fun r => Recording.increments r.recordings) := by
    have hruns : (runs.flatMap fun r => Recording.increments r.recordings) =
        Recording.increments (runs.flatMap CompletedRun.recordings) :=
      (List.filterMap_flatMap ..).symm
    rw [hruns]
    exact h.filterMap _
  rw [(hincrements.map _).sum_eq, sum_map_flatMap]

/-- What is recorded in any order contributes what each validation does. -/
theorem shares_of_perm {runs : List CompletedRun} {recorded : List Recording}
    (h : recorded.Perm (runs.flatMap CompletedRun.recordings)) (c : Counter) (labels : Labels) :
    Increment.shares c labels (Recording.increments recorded) =
      (runs.map fun r =>
        Increment.shares c labels (Recording.increments r.recordings)).sum :=
  sum_weights_of_perm h (Increment.share c labels)

/-- **Counters conserve cells and findings.** Take any validations that ended with reports, of any
rulesets and with any numbers of workers, and record what they recorded in any order, starting with
no series, in a register that keeps whole numbers exactly. Then no recorded amount is negative, and
the totals account for all cells of the typed columns, as read, as misfits and as null, for all
cells that the rules of each family were applied to, and for the failed rows, the outcomes of
conditional rules and the findings of the reports. -/
theorem totals_conserve {S H : Type} (R : Register S H) (shown : S → Readings)
    (key : H → Counter × Labels) (hR : R.IsExact shown key) (runs : List CompletedRun)
    (recorded : List Recording)
    (hrecorded : recorded.Perm (runs.flatMap CompletedRun.recordings)) :
    (∀ i, .increment i ∈ recorded → ∃ n : Nat, i.amount = .integer n) ∧
      Conserves runs (shown (recorded.foldl R.record R.start)).total := by
  have hcounts : ∀ i, .increment i ∈ recorded → i.IsCount := by
    intro i hi
    obtain ⟨r, -, hr⟩ := List.mem_flatMap.mp (hrecorded.mem_iff.mp hi)
    exact r.isCount_of_mem (Recording.mem_increments_iff.mpr hr)
  -- Every total is a sum over the validations, so each law is one about a single validation.
  have htotal : ∀ c labels, (shown (recorded.foldl R.record R.start)).total c labels =
      ((runs.map fun r =>
        Increment.shares c labels (Recording.increments r.recordings)).sum : Nat) := by
    intro c labels
    rw [hR.total_record hcounts, shares_of_perm hrecorded]
  refine ⟨fun i hi => (hcounts i hi).amount, ?_⟩
  constructor
  case coercions =>
    intro t
    rw [htotal, htotal, htotal, ← Int.natCast_add, ← Int.natCast_add, ← List.sum_map_add,
      ← List.sum_map_add]
    simp only [CompletedRun.shares_coercions]
  case misfits =>
    intro t
    simp only [htotal, CompletedRun.shares_misfits]
  case nulls =>
    intro t
    simp only [htotal, CompletedRun.shares_nulls]
  case cells =>
    intro f
    simp only [htotal, CompletedRun.shares_checkedCells]
  case failures =>
    intro f column
    simp only [htotal, CompletedRun.shares_failures]
  case outcomes =>
    intro s
    simp only [htotal, CompletedRun.shares_outcomes]
  case findings =>
    intro s c
    simp only [htotal, CompletedRun.shares_ofReport]

/-! #### Two tables

A load of freight, with a weight that is no integer, and the readings of a meter, with four that are
missing and one that is no integer. -/

/-- A result that is there is what is found. -/
private theorem eq_ok_get {ε α : Type} {x : Except ε α} (h : x.toOption.isSome) :
    x = .ok (x.toOption.get h) := by
  cases x with
  | error fault => simp [Except.toOption] at h
  | ok a => rfl

/-- The validation of a table, where there is a report. -/
def CompletedRun.of (e : Engine) (table : Table) (h : (e.evaluate table).toOption.isSome) :
    CompletedRun where
  engine := e
  table := table
  report := (e.evaluate table).toOption.get h
  completed := eq_ok_get h

/-- The validation of the freight. -/
def freightRun : CompletedRun :=
  .of Engine.freightEngine Engine.freightTable (by decide +kernel)

/-- The validation of the readings. -/
def meterRun : CompletedRun :=
  .of Engine.meterEngine Engine.meterTable (by decide +kernel)

/-- Values that are whole numbers. -/
def Register.whole : Register (Series Int) (Counter × Labels) :=
  listed 0 fun value amount => some (value + amount.count)

/-- What such values show. -/
def Series.wholeReadings : Series Int → Readings := Series.readings id

theorem Register.whole_isExact : Register.whole.IsExact Series.wholeReadings id :=
  listed_isExact rfl fun _ _ => ⟨_, rfl, rfl⟩

/-- The totals account for both tables, although the second was recorded first. -/
theorem freightRun_meterRun_conserve :
    let recorded := meterRun.recordings ++ freightRun.recordings
    let total := (Series.wholeReadings (recorded.foldl Register.whole.record [])).total
    Register.whole.IsExact Series.wholeReadings id ∧
      recorded.Perm ([freightRun, meterRun].flatMap CompletedRun.recordings) ∧
      (∀ i, .increment i ∈ recorded → ∃ n : Nat, i.amount = .integer n) ∧
      Conserves [freightRun, meterRun] total ∧
      total .typeCoercions (.coercion "success" .integer) = 3 ∧
      total .typeCoercions (.coercion "failure" .integer) = 2 ∧
      total .typeCoercions (.coercion "null" .integer) = 4 ∧
      total .findings (.finding .error .valueRule) = 6 := by
  intro recorded total
  have hrecorded : recorded.Perm ([freightRun, meterRun].flatMap CompletedRun.recordings) := by
    rw [List.flatMap_cons, List.flatMap_singleton]
    exact List.perm_append_comm
  obtain ⟨hcounts, hconserves⟩ := totals_conserve Register.whole Series.wholeReadings id
    Register.whole_isExact _ recorded hrecorded
  have hmisfits : ([freightRun, meterRun].map fun r => r.misfits .integer) = [1, 1] := by
    decide +kernel
  have hnulls : ([freightRun, meterRun].map fun r => r.nulls .integer) = [0, 4] := by
    decide +kernel
  have hrows : ([freightRun, meterRun].map fun r => r.typedRows .integer) = [3, 6] := by
    decide +kernel
  have herrors : ([freightRun, meterRun].map fun r => r.findings .error .valueRule) = [2, 4] := by
    decide +kernel
  have hfailure := hconserves.misfits .integer
  have hnull := hconserves.nulls .integer
  have hall := hconserves.coercions .integer
  have hfindings := hconserves.findings .error .valueRule
  rw [hmisfits] at hfailure
  rw [hnulls] at hnull
  rw [hrows, hfailure, hnull] at hall
  rw [herrors] at hfindings
  have hsuccess : total .typeCoercions (.coercion "success" .integer) + 2 + 4 = 9 := hall
  exact ⟨Register.whole_isExact, hrecorded, hcounts, hconserves, by omega, hfailure, hnull,
    hfindings⟩

end TableRules
