import TableRules.Proofs.Evaluation.Pools
import TableRules.Proofs.Evaluation.Reports
import TableRules.Proofs.Report.RecordingOrder

/-!
# The report does not depend on the schedule

The columns of a table are evaluated by a pool, and then its conditional rules by another one. What
comes of them is recorded in an assembly. `Engine.evaluate_schedules` says that neither the number
of workers, nor the order in which evaluations end, nor the order in which their outcomes are
recorded has an influence on the report (`Engine.IndependentOfSchedule`), as long as no evaluation
breaks off. It puts together what `Pool.settles` says about pools and what
`Assembly.foldlM_record_perm` says about recording.
-/

namespace TableRules

open Result

namespace Engine

variable {e : Engine} {table : Table} {columns : List ColumnOutcome}
  {conditionals : List ConditionalOutcome} {report : Report}

/-- The outcomes and the report of a table do not depend on the schedule: any number of workers
settles at the outcomes that evaluating in turn gives, and recording the outcomes in any order gives
the report, as it gives some one report if other findings are in the assembly. -/
structure IndependentOfSchedule (e : Engine) (table : Table) (columns : List ColumnOutcome)
    (conditionals : List ConditionalOutcome) (report : Report) : Prop where
  columns_eq : e.evaluateColumns table = .ok columns
  conditionals_eq : e.evaluateConditionals table = .ok conditionals
  report_eq : e.evaluate table = .ok report
  settles_columns (workers : Nat) :
    Pool.Settles workers (e.evaluateColumn table) (e.presentBlocks table) columns
  settles_conditionals (workers : Nat) :
    Pool.Settles workers (e.evaluateConditional table) e.ruleset.conditionals conditionals
  record_opening (os : List (ColumnOutcome ⊕ ConditionalOutcome)) :
    os.Perm (Assembly.outcomes columns conditionals) →
      (os.foldlM Assembly.record (e.opening table) >>= Assembly.build) = .ok report
  record_ready (a : Assembly) : a.Ready e.ruleset →
    ∃ report', ∀ os : List (ColumnOutcome ⊕ ConditionalOutcome),
      os.Perm (Assembly.outcomes columns conditionals) →
        (os.foldlM Assembly.record a >>= Assembly.build) = .ok report'

/-- The outcomes of an evaluation belong to the ruleset. -/
theorem belongs_of_mem_outcomes (hcolumns : e.evaluateColumns table = .ok columns)
    (hconditionals : e.evaluateConditionals table = .ok conditionals) :
    ∀ o ∈ Assembly.outcomes columns conditionals, Assembly.Belongs e.ruleset o := by
  intro o ho
  rcases List.mem_append.mp ho with ho | ho
  · obtain ⟨column, hmem, rfl⟩ := List.mem_map.mp ho
    obtain ⟨b, hb, hrun⟩ := exists_mem_of_forall₂ (mapM_eq_ok_iff.mp hcolumns).flip hmem
    obtain ⟨hcolumn, hexplained⟩ := evaluateColumn_reportable hrun
    exact ⟨hcolumn ▸ List.mem_map_of_mem (List.mem_filter.mp hb).1, hexplained⟩
  · obtain ⟨conditional, hmem, rfl⟩ := List.mem_map.mp ho
    obtain ⟨c, hc, hrun⟩ := exists_mem_of_forall₂ (mapM_eq_ok_iff.mp hconditionals).flip hmem
    have hname : conditional.name ∈ e.ruleset.conditionals.map Conditional.name :=
      evaluateConditional_name hrun ▸ List.mem_map_of_mem hc
    exact hname

/-- A report is assembled from its outcomes as they are recorded in turn. -/
theorem evaluate_eq (hcolumns : e.evaluateColumns table = .ok columns)
    (hconditionals : e.evaluateConditionals table = .ok conditionals) :
    e.evaluate table = ((Assembly.outcomes columns conditionals).foldlM Assembly.record
      (e.opening table) >>= Assembly.build).mapError .assembly := by
  rw [evaluate, hcolumns, hconditionals, Assembly.foldlM_outcomes, bind_assoc]
  rfl

/-- **The report does not depend on the schedule.** Where no block and no conditional rule breaks
off on a table, there is a report, and neither the number of workers nor the order in which
evaluations end and outcomes are recorded has an influence on it. -/
theorem evaluate_schedules (e : Engine) (table : Table)
    (hcolumns : ∀ b ∈ e.presentBlocks table, ∃ o, e.evaluateColumn table b = .ok o)
    (hconditionals : ∀ c ∈ e.ruleset.conditionals,
      ∃ o, e.evaluateConditional table c = .ok o) :
    ∃ columns conditionals report,
      e.IndependentOfSchedule table columns conditionals report := by
  obtain ⟨columns, hcolumns⟩ := exists_mapM_eq_ok hcolumns
  obtain ⟨conditionals, hconditionals⟩ := exists_mapM_eq_ok hconditionals
  have hbelongs := belongs_of_mem_outcomes hcolumns hconditionals
  have hplaces : ((Assembly.outcomes columns conditionals).map Assembly.placeOf).Nodup := by
    refine Assembly.nodup_placeOf_outcomes ?_ ?_
    · rw [column_eq_of_mapM hcolumns]
      exact e.ruleset.blocks_nodup.sublist (List.filter_sublist.map _)
    · rw [name_eq_of_mapM hconditionals]
      exact e.ruleset.conditionals_nodup
  obtain ⟨report, hreport⟩ :=
    (Assembly.ready_opening e table).exists_build_perm hplaces hbelongs
  refine ⟨columns, conditionals, report, hcolumns, hconditionals, ?_,
    fun workers => Pool.settles workers hcolumns,
    fun workers => Pool.settles workers hconditionals, hreport,
    fun a ha => ha.exists_build_perm hplaces hbelongs⟩
  rw [evaluate_eq hcolumns hconditionals, hreport _ (List.Perm.refl _)]
  rfl

/-- The report on a load of freight does not depend on the schedule. -/
theorem freightTable_schedules :
    (∀ b ∈ freightEngine.presentBlocks freightTable,
        ∃ o, freightEngine.evaluateColumn freightTable b = .ok o) ∧
      (∀ c ∈ freightEngine.ruleset.conditionals,
        ∃ o, freightEngine.evaluateConditional freightTable c = .ok o) ∧
      ∃ columns conditionals report,
        columns.map ColumnOutcome.column = ["id", "weight", "note"] ∧
        freightEngine.IndependentOfSchedule freightTable columns conditionals report := by
  have hcolumns : ∀ b ∈ freightEngine.presentBlocks freightTable,
      ∃ o, freightEngine.evaluateColumn freightTable b = .ok o := by
    have hall : (freightEngine.presentBlocks freightTable).all (fun b =>
        (freightEngine.evaluateColumn freightTable b).toOption.any fun _ => true) = true := by
      decide +kernel
    intro b hb
    obtain ⟨o, ho, -⟩ := any_toOption_iff.mp (List.all_eq_true.mp hall b hb)
    exact ⟨o, ho⟩
  have hconditionals : ∀ c ∈ freightEngine.ruleset.conditionals,
      ∃ o, freightEngine.evaluateConditional freightTable c = .ok o := by
    have hall : freightEngine.ruleset.conditionals.all (fun c =>
        (freightEngine.evaluateConditional freightTable c).toOption.any fun _ => true) = true := by
      decide +kernel
    intro c hc
    obtain ⟨o, ho, -⟩ := any_toOption_iff.mp (List.all_eq_true.mp hall c hc)
    exact ⟨o, ho⟩
  obtain ⟨columns, conditionals, report, h⟩ :=
    evaluate_schedules freightEngine freightTable hcolumns hconditionals
  refine ⟨hcolumns, hconditionals, columns, conditionals, report, ?_, h⟩
  exact column_eq_of_mapM h.columns_eq

end Engine

end TableRules
