import TableRules.Proofs.Evaluation.Reports

/-!
# Outcomes looked up in a report

The outcomes in a report are what the blocks and the conditional rules came to, in order
(`Engine.outcomes_of_evaluate`). So an outcome can be looked up by the column of its block or by the
name of its conditional rule (`Engine.exists_column?`, `Engine.exists_conditional?`). This is how
reports on different tables, or of different rulesets, are compared.
-/

namespace TableRules.Engine

open Result

variable {e : Engine} {table : Table} {report : Report}

/-- The outcomes in a report are those of the blocks and of the conditional rules, and it counts the
rows and the missing values of its table. -/
theorem outcomes_of_evaluate (h : e.evaluate table = .ok report) :
    e.evaluateColumns table = .ok report.columns ∧
      e.evaluateConditionals table = .ok report.conditionals ∧
      report.missingValues = e.missingValues table ∧ report.rowCount = table.rowCount := by
  obtain ⟨columns, hcolumns, h⟩ := bind_eq_ok_iff.mp h
  obtain ⟨conditionals, hconditionals, h⟩ := bind_eq_ok_iff.mp h
  rw [mapError_eq_ok_iff] at hcolumns hconditionals h
  have hcolumnKeys := column_eq_of_mapM hcolumns
  have hconditionalKeys := name_eq_of_mapM hconditionals
  have hsub : (columns.map ColumnOutcome.column).Sublist (e.ruleset.blocks.map Block.column) :=
    hcolumnKeys ▸ List.filter_sublist.map _
  have hbuild := assemble_eq_ok (e.ruleset.blocks_nodup.sublist hsub)
    (hconditionalKeys ▸ e.ruleset.conditionals_nodup) h
  obtain ⟨findings, -, rfl⟩ := map_eq_ok_iff.mp hbuild
  refine ⟨hcolumns.trans ?_, hconditionals.trans ?_, missingValues_opening, rfl⟩
  · exact congrArg Except.ok (Keyed.filterMap_slots e.ruleset.blocks_nodup hsub).symm
  · exact congrArg Except.ok (Keyed.filterMap_slots e.ruleset.conditionals_nodup
      (hconditionalKeys ▸ List.Sublist.refl _)).symm

/-- The outcome of a block whose column is in the data is found in the report by its column. -/
theorem exists_column? (h : e.evaluate table = .ok report) {b : Block}
    (hb : b ∈ e.ruleset.blocks) (hpresent : table.hasColumn b.column = true) :
    ∃ o, report.column? b.column = some o ∧ e.evaluateColumn table b = .ok o := by
  have hcolumns := (outcomes_of_evaluate h).1
  have hkeys : (report.columns.map ColumnOutcome.column).Nodup :=
    column_eq_of_mapM hcolumns ▸ e.ruleset.blocks_nodup.sublist (List.filter_sublist.map _)
  obtain ⟨o, ho, hrun⟩ :=
    exists_mem_of_forall₂ (mapM_eq_ok_iff.mp hcolumns) (List.mem_filter.mpr ⟨hb, hpresent⟩)
  exact ⟨o, (isOf_of_evaluateColumn hrun).1 ▸ Keyed.find?_key hkeys ho, hrun⟩

/-- The outcome of a conditional rule is found in the report by its name. -/
theorem exists_conditional? (h : e.evaluate table = .ok report) {c : Conditional}
    (hc : c ∈ e.ruleset.conditionals) :
    ∃ o, report.conditional? c.name = some o ∧ e.evaluateConditional table c = .ok o := by
  have hconditionals := (outcomes_of_evaluate h).2.1
  have hkeys : (report.conditionals.map ConditionalOutcome.name).Nodup :=
    name_eq_of_mapM hconditionals ▸ e.ruleset.conditionals_nodup
  obtain ⟨o, ho, hrun⟩ := exists_mem_of_forall₂ (mapM_eq_ok_iff.mp hconditionals) hc
  exact ⟨o, evaluateConditional_name hrun ▸ Keyed.find?_key hkeys ho, hrun⟩

end TableRules.Engine
