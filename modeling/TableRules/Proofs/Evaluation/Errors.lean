import Mathlib.Data.Finset.Card
import Mathlib.Data.Finset.SDiff
import Mathlib.Data.Finset.Dedup
import TableRules.CommandLine.Run
import TableRules.Proofs.Evaluation.Reports

/-!
# The errors of a report

A report tells in three ways that something failed: by its error findings, by the outcomes it holds,
and by the names in its summary. `Engine.evaluate_errors` says that they agree: the error findings
are one for each declared column that the header lacks and for each extra column, as far as the
ruleset asks for that, one for each rule that did not pass, and one for each conditional rule that
failed. So a report has errors, and a run that reports it ends with the status of errors, exactly if
the header is at fault or the summary names a column or a conditional rule.

The findings are counted section by section. Only the findings about the header, about blocks and
about conditional rules hold errors, and those about blocks are counted through the outcomes of
their columns (`Report.IsComplete.filterMap_column?`).
-/

namespace TableRules

variable {e : Engine} {table : Table} {report : Report}

/-- Whether a finding is an error. -/
def Finding.isError (f : Finding) : Bool := f.severity = .error

/-- The number of declared columns that a header lacks, as far as all are required. -/
def ColumnSpec.missingCount (spec : ColumnSpec) (header : List String) : Nat :=
  if spec.allRequired then (spec.names.toFinset \ header.toFinset).card else 0

/-- The number of columns of a header that are not declared, as far as extra ones are forbidden. -/
def ColumnSpec.extraCount (spec : ColumnSpec) (header : List String) : Nat :=
  if spec.noExtra then (header.toFinset \ spec.names.toFinset).card else 0

/-- A header lacks a required column, or has a forbidden one. -/
def ColumnSpec.IsBroken (spec : ColumnSpec) (header : List String) : Prop :=
  (spec.allRequired = true ∧ ∃ c ∈ spec.names, c ∉ header) ∨
    (spec.noExtra = true ∧ ∃ c ∈ header, c ∉ spec.names)

/-- The outcomes of a column that did not pass. -/
def ColumnOutcome.failures (o : ColumnOutcome) : List RuleOutcome :=
  o.rules.filter fun r => !r.passed

/-- The outcomes of rules that did not pass. -/
def Report.ruleFailures (r : Report) : List RuleOutcome := r.columns.flatMap ColumnOutcome.failures

/-- The outcomes of conditional rules that failed. -/
def Report.conditionalFailures (r : Report) : List ConditionalOutcome :=
  r.conditionals.filter fun o => o.status = .failed

/-! ### Findings without errors -/

theorem countP_isError_eq_zero {fs : List Finding} (h : ∀ f ∈ fs, f.severity ≠ .error) :
    fs.countP Finding.isError = 0 :=
  List.countP_eq_zero.mpr fun f hf => by simpa [Finding.isError] using h f hf

theorem Engine.severity_of_mem_summary {f : Finding} (h : f ∈ e.summary table) :
    f.severity = .info := by
  rcases List.mem_append.mp h with h | h
  · rcases List.mem_cons.mp h with rfl | h
    · rfl
    · obtain rfl := List.mem_singleton.mp h
      rfl
  · obtain ⟨column, -, rfl⟩ := List.mem_map.mp h
    rfl

/-- All that is found about the declarations of a ruleset are warnings. -/
theorem Ruleset.severity_of_mem_linkFindings {r : Ruleset} {f : Finding}
    (h : f ∈ r.linkFindings) : f.severity = .warning := by
  obtain ⟨message, column, rule, rfl⟩ := exists_of_mem_linkFindings h
  rfl

/-! ### Findings about the header -/

namespace ColumnSpec

variable {spec : ColumnSpec} {declared header : List String}

/-- The names of a list that another list lacks, each counted once. -/
private theorem length_filter_notMem {xs ys : List String} :
    ((Text.distinct xs).filter fun c => !ys.contains c).length
      = (xs.toFinset \ ys.toFinset).card := by
  rw [← List.toFinset_card_of_nodup ((Text.nodup_distinct xs).filter _)]
  congr 1
  ext c
  simp [Text.mem_distinct_iff]

theorem countP_missingColumns :
    (missingColumns (Text.distinct spec.names) header).countP Finding.isError
      = (spec.names.toFinset \ header.toFinset).card := by
  have hall : ∀ f ∈ missingColumns (Text.distinct spec.names) header, f.isError = true := by
    intro f hf
    obtain ⟨c, -, rfl⟩ := List.mem_map.mp hf
    rfl
  rw [List.countP_eq_length.mpr hall, missingColumns, List.length_map, length_filter_notMem]

theorem countP_extraColumns :
    (extraColumns (Text.distinct spec.names) header).countP Finding.isError
      = (header.toFinset \ spec.names.toFinset).card := by
  have hall : ∀ f ∈ extraColumns (Text.distinct spec.names) header, f.isError = true := by
    intro f hf
    obtain ⟨c, -, rfl⟩ := List.mem_map.mp hf
    rfl
  have hdeclared : ∀ c, (Text.distinct spec.names).contains c = spec.names.contains c := fun c =>
    Bool.eq_iff_iff.mpr (by simp [Text.mem_distinct_iff])
  rw [List.countP_eq_length.mpr hall, extraColumns, List.length_map]
  simp only [hdeclared]
  exact length_filter_notMem

theorem countP_orderMismatch : (orderMismatch declared header).countP Finding.isError = 0 := by
  refine countP_isError_eq_zero fun f hf => ?_
  unfold orderMismatch at hf
  dsimp only at hf
  split at hf
  · cases hf
  · obtain rfl := List.mem_singleton.mp hf
    exact nofun

/-- The errors about a header are one for each column that it lacks or has in excess. -/
theorem countP_checkHeader : (spec.checkHeader header).countP Finding.isError
    = spec.missingCount header + spec.extraCount header := by
  rw [checkHeader, List.countP_append, List.countP_append, missingCount, extraCount]
  have horder : (if spec.checkOrder then orderMismatch (Text.distinct spec.names) header
      else []).countP Finding.isError = 0 := by
    split
    · exact countP_orderMismatch
    · rfl
  rw [horder, Nat.add_zero]
  congr 1
  · split
    · exact countP_missingColumns
    · rfl
  · split
    · exact countP_extraColumns
    · rfl

/-- A header is broken exactly if there is an error to count. -/
theorem isBroken_iff : spec.IsBroken header ↔
    0 < spec.missingCount header + spec.extraCount header := by
  have hcard : ∀ xs ys : List String, 0 < (xs.toFinset \ ys.toFinset).card ↔
      ∃ c ∈ xs, c ∉ ys := by
    intro xs ys
    rw [Finset.card_pos, Finset.sdiff_nonempty, Finset.not_subset]
    simp
  rw [Nat.add_pos_iff_pos_or_pos, IsBroken, missingCount, extraCount, ← hcard, ← hcard]
  split <;> split <;> simp [*]

end ColumnSpec

/-! ### Findings about blocks -/

theorem Report.mem_of_column? {name : String} {o : ColumnOutcome}
    (h : report.column? name = some o) : o ∈ report.columns ∧ o.column = name := by
  have hkey := List.find?_some h
  exact ⟨List.mem_of_find?_eq_some h, beq_iff_eq.mp hkey⟩

namespace Report.IsComplete

/-- The outcomes of a complete report are those of its blocks. -/
theorem filterMap_column? (h : report.IsComplete e table) :
    e.ruleset.blocks.filterMap (fun b => report.column? b.column) = report.columns := by
  have hkeys : report.columns.map ColumnOutcome.column
      = (e.presentBlocks table).map Block.column :=
    Result.map_eq_of_forall₂ (h.columns.imp fun _ _ ho => ho.2.1)
  have hsub : (report.columns.map ColumnOutcome.column).Sublist
      (e.ruleset.blocks.map Block.column) := hkeys ▸ List.filter_sublist.map _
  have hslots := Keyed.filterMap_slots e.ruleset.blocks_nodup hsub
  rw [Keyed.slots, List.filterMap_map, List.filterMap_map] at hslots
  exact hslots

/-- A block that is reported has an error finding for each rule that did not pass. -/
theorem countP_of_isReported (h : report.IsComplete e table) {b : Block}
    (hb : b ∈ e.ruleset.blocks) {fs : List Finding}
    (hfs : Block.IsReported table b (report.column? b.column) fs) :
    fs.countP Finding.isError
      = ((report.column? b.column).toList.flatMap ColumnOutcome.failures).length := by
  cases ho : report.column? b.column with
  | none =>
    rw [ho] at hfs
    obtain ⟨-⟩ := hfs
    rfl
  | some o =>
    rw [ho] at hfs
    rw [Option.toList_some, List.flatMap_singleton]
    cases hfs with
    | empty hpresent hrules =>
      -- a block without rules has an outcome without rules, since no other block has its column
      obtain ⟨hmem, hkey⟩ := mem_of_column? ho
      obtain ⟨b', hb', -, hcolumn, hrule⟩ := Result.exists_mem_of_forall₂ h.columns.flip hmem
      obtain rfl : b' = b := List.inj_on_of_nodup_map e.ruleset.blocks_nodup
        (List.mem_filter.mp hb').1 hb (hcolumn.symm.trans hkey)
      rw [hrules, List.forall₂_nil_left_iff] at hrule
      rw [ColumnOutcome.failures, hrule]
      rfl
    | passed hpresent hrules hpassed =>
      have hnone : o.failures = [] := List.filter_eq_nil_iff.mpr fun r hr => by
        simp [hpassed r hr]
      rw [hnone]
      rfl
    | failed hpresent hfailed hfs =>
      have hall : ∀ f ∈ fs, f.isError = true := fun f hf => by
        obtain ⟨r, -, hr⟩ := Result.exists_mem_of_forall₂ hfs.flip hf
        exact decide_eq_true hr.severity
      rw [List.countP_eq_length.mpr hall]
      exact hfs.length_eq.symm

/-- The errors about blocks are one for each rule that did not pass. -/
theorem countP_perBlock (h : report.IsComplete e table) {perBlock : List (List Finding)}
    (hperBlock : List.Forall₂ (fun b fs => Block.IsReported table b (report.column? b.column) fs)
      e.ruleset.blocks perBlock) :
    perBlock.flatten.countP Finding.isError = report.ruleFailures.length := by
  have hsum : ∀ (bs : List Block) (fss : List (List Finding)), (∀ b ∈ bs, b ∈ e.ruleset.blocks) →
      List.Forall₂ (fun b fs => Block.IsReported table b (report.column? b.column) fs) bs fss →
        fss.flatten.countP Finding.isError
          = ((bs.filterMap fun b => report.column? b.column).flatMap
              ColumnOutcome.failures).length := by
    intro bs fss hbs hfss
    induction hfss with
    | nil => rfl
    | @cons b fs bs fss hfs _ ih =>
      obtain ⟨hb, hbs⟩ := List.forall_mem_cons.mp hbs
      rw [List.flatten_cons, List.countP_append, ih hbs, h.countP_of_isReported hb hfs,
        List.filterMap_cons]
      cases report.column? b.column <;> simp
  rw [hsum _ _ (fun _ hb => hb) hperBlock, h.filterMap_column?]
  rfl

/-- The errors about conditional rules are one for each that failed. -/
theorem countP_conditional {os : List ConditionalOutcome} {fs : List Finding}
    (h : List.Forall₂ Finding.IsConditional os fs) :
    fs.countP Finding.isError = (os.filter fun o => o.status = .failed).length := by
  induction h with
  | nil => rfl
  | @cons o f os fs hf _ ih =>
    have herror : f.isError = decide (o.status = .failed) := decide_eq_decide.mpr hf.error
    rw [List.countP_cons, List.filter_cons, ih, herror]
    split <;> simp

/-- **The error findings of a complete report, counted.** -/
theorem count_error (h : report.IsComplete e table) :
    report.count .error
      = e.ruleset.columns.missingCount table.header + e.ruleset.columns.extraCount table.header
        + report.ruleFailures.length + report.conditionalFailures.length := by
  obtain ⟨perBlock, conditional, hfindings, hperBlock, hconditional⟩ := h.findings
  have hsummary : (e.summary table).countP Finding.isError = 0 :=
    countP_isError_eq_zero fun f hf => by simp [Engine.severity_of_mem_summary hf]
  have hlink : e.ruleset.linkFindings.countP Finding.isError = 0 :=
    countP_isError_eq_zero fun f hf => by simp [Ruleset.severity_of_mem_linkFindings hf]
  calc report.count .error
      = report.findings.countP Finding.isError := List.countP_eq_length_filter.symm
    _ = _ := by
      rw [hfindings]
      simp only [List.countP_append]
      rw [hsummary, hlink, ColumnSpec.countP_checkHeader, h.countP_perBlock hperBlock,
        countP_conditional hconditional, Nat.add_zero, Nat.zero_add]
      rfl

end Report.IsComplete

namespace Report

theorem ruleFailures_ne_nil_iff : report.ruleFailures ≠ [] ↔ report.failedColumns ≠ [] := by
  rw [ruleFailures, failedColumns, ne_eq, ne_eq, List.flatMap_eq_nil_iff, List.map_eq_nil_iff,
    List.filter_eq_nil_iff]
  refine not_congr (forall₂_congr fun o _ => ?_)
  simp [ColumnOutcome.failures, ColumnOutcome.allPassed]

theorem hasErrors_iff : report.hasErrors = true ↔ 0 < report.count .error := by
  rw [hasErrors, count, bySeverity, List.length_pos_iff, List.any_eq_true, ne_eq,
    List.filter_eq_nil_iff]
  push Not
  rfl

end Report

namespace Engine

/-- **The errors of a report are exact.** Whenever a validation gives a report, its error findings
are one for each declared column that is missing although all are required, one for each extra
column although none is allowed, one for each rule that did not pass, and one for each conditional
rule that failed. So the report has errors, and a run that reports it ends with status 1, exactly if
the header is broken or the summary names a failed column or conditional rule. -/
theorem evaluate_errors (e : Engine) (table : Table) (report : Report)
    (h : e.evaluate table = .ok report) :
    report.count .error
        = e.ruleset.columns.missingCount table.header + e.ruleset.columns.extraCount table.header
          + report.ruleFailures.length + report.conditionalFailures.length ∧
      (report.hasErrors = true ↔ e.ruleset.columns.IsBroken table.header ∨
        report.summary.failedColumns ≠ [] ∨ report.summary.failedConditionals ≠ []) ∧
      ∀ (plan : RunPlan) (notes : List SessionNote) (file : Path),
        (plan.reported notes report file).status.code = 1 ↔ report.hasErrors = true := by
  have hcount := (evaluate_isComplete e table report h).count_error
  refine ⟨hcount, ?_, fun plan notes file => ?_⟩
  · have hconditionals : report.conditionalFailures ≠ [] ↔
        report.summary.failedConditionals ≠ [] :=
      not_congr List.map_eq_nil_iff.symm
    rw [Report.hasErrors_iff, hcount, ColumnSpec.isBroken_iff, ← hconditionals,
      ← List.length_pos_iff (l := report.conditionalFailures), Nat.add_pos_iff_pos_or_pos,
      Nat.add_pos_iff_pos_or_pos, List.length_pos_iff, Report.ruleFailures_ne_nil_iff, or_assoc]
    rfl
  · rw [RunPlan.reported]
    split <;> simp [ExitStatus.code, *]

/-! #### A delivery

The declared stock is missing, and colours are delivered instead. One price is given twice, and
prices are compared without having a type. -/

/-- An engine that asks for exactly the declared columns. -/
def deliveryEngine : Engine :=
  ⟨⟨.standard, ⟨["id", "price", "stock", "stock"], true, true, true⟩,
    [⟨"id", [⟨.required, some 3⟩]⟩,
      ⟨"price", [⟨.unique, some 5⟩, ⟨.compare .less (.integer 10), some 6⟩]⟩,
      ⟨"stock", [⟨.required, some 8⟩]⟩],
    [⟨"priced", ⟨"id", ⟨.required, some 10⟩⟩, ⟨"price", ⟨.required, some 11⟩⟩, some 9⟩],
    none, by decide, by decide⟩, .standard, 2⟩

/-- Three articles. -/
def deliveryTable : Table :=
  ⟨["colour", "id", "price", "colour"],
    [[("id", some "a"), ("price", some "4")], [("id", some "b"), ("price", some "4")],
      [("id", some "c"), ("price", none)]], none⟩

/-- The delivery has five errors, and a run that reports it ends with status 1. -/
theorem deliveryTable_errors :
    ∃ report, deliveryEngine.evaluate deliveryTable = .ok report ∧
      report.count .error
        = deliveryEngine.ruleset.columns.missingCount deliveryTable.header
          + deliveryEngine.ruleset.columns.extraCount deliveryTable.header
          + report.ruleFailures.length + report.conditionalFailures.length ∧
      deliveryEngine.ruleset.columns.missingCount deliveryTable.header = 1 ∧
      deliveryEngine.ruleset.columns.extraCount deliveryTable.header = 1 ∧
      report.ruleFailures.length = 2 ∧ report.conditionalFailures.length = 1 ∧
      ∀ (plan : RunPlan) (notes : List SessionNote) (file : Path),
        (plan.reported notes report file).status.code = 1 := by
  have hfailed : (deliveryEngine.evaluate deliveryTable).toOption.any (fun report =>
      report.ruleFailures.length == 2 && report.conditionalFailures.length == 1 &&
        report.summary.failedColumns == ["price"]) = true := by
    decide +kernel
  obtain ⟨report, hreport, hfailed⟩ := Result.any_toOption_iff.mp hfailed
  simp only [Bool.and_eq_true, beq_iff_eq] at hfailed
  obtain ⟨⟨hrules, hconditionals⟩, hcolumns⟩ := hfailed
  obtain ⟨hcount, herrors, hstatus⟩ :=
    evaluate_errors deliveryEngine deliveryTable report hreport
  refine ⟨report, hreport, hcount, by decide, by decide, hrules, hconditionals,
    fun plan notes file => (hstatus plan notes file).mpr (herrors.mpr (.inr (.inl ?_)))⟩
  rw [hcolumns]
  exact List.cons_ne_nil _ _

end Engine

end TableRules
