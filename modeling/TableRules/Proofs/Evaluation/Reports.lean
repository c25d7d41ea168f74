import TableRules.Proofs.Evaluation.Totality
import TableRules.Proofs.Report.Slots
import TableRules.Proofs.Ruleset.Links

/-!
# What a report holds

The outcomes of a validation pass through the places of an assembly and are read off again when the
report is built. Nothing is lost or listed twice on that way (`Report.IsComplete`):

* the outcomes are those of the blocks whose columns are in the data and of the conditional rules,
  in the order of declaration;
* the findings are the summary, the warnings about the ruleset, the findings about the header, those
  about each block (`Block.IsReported`) and one for each conditional rule.

**Main result** (`Engine.evaluate_isComplete`): every report of a validation is complete.
-/

namespace TableRules

open Result

variable {e : Engine} {table : Table} {b : Block} {c : Conditional} {report : Report}

/-- An outcome is that of a rule: it carries the phrase, the kind and the line of the rule. -/
structure RuleOutcome.IsOf (rule : Rule) (o : RuleOutcome) : Prop where
  rule_eq : rule.describe? = some o.rule
  kind_eq : o.kind = rule.kind.name
  line_eq : o.line = rule.line

/-! ### Findings -/

/-- A finding is about a failed rule of a column: it names both, and its rows are the failed
rows. -/
structure Finding.IsFailure (column : String) (o : RuleOutcome) (f : Finding) : Prop where
  severity : f.severity = .error
  category : f.category = .valueRule
  column : f.column = some column
  rule : f.rule = some o.rule
  rows : f.rows = o.failedRows

/-- A finding is about a conditional rule: it names the rule, and its rows are the failed rows. It
is an error if the rule failed, and a warning if it was not evaluated. -/
structure Finding.IsConditional (o : ConditionalOutcome) (f : Finding) : Prop where
  category : f.category = .conditional
  column : f.column = none
  rule : f.rule = some o.name
  rows : f.rows = o.failedRows
  error : f.severity = .error ↔ o.status = .failed
  warning : f.severity = .warning ↔ o.status = .notEvaluated

/-- The findings about a block of a given outcome: a warning if its column is not in the data,
nothing if the block has no rules, one finding if all rules passed, and otherwise one finding for
each rule that did not pass, in order. -/
inductive Block.IsReported (table : Table) (b : Block) : Option ColumnOutcome → List Finding → Prop
  | absent (h : table.hasColumn b.column = false) :
      IsReported table b none [.about .warning .valueRule
        (Assembly.columnLabel b.column ++ " not found in data; its rules were not evaluated")
        (some b.column)]
  | empty {o : ColumnOutcome} (h : table.hasColumn b.column = true) (hrules : b.rules = []) :
      IsReported table b (some o) []
  | passed {o : ColumnOutcome} (h : table.hasColumn b.column = true) (hrules : b.rules ≠ [])
      (hpassed : ∀ r ∈ o.rules, r.passed = true) :
      IsReported table b (some o) [.about .info .valueRule
        (Assembly.columnLabel b.column ++ ": all OK") (some b.column)]
  | failed {o : ColumnOutcome} {fs : List Finding} (h : table.hasColumn b.column = true)
      (hfailed : ∃ r ∈ o.rules, r.passed = false)
      (hfs : List.Forall₂ (Finding.IsFailure b.column) (o.rules.filter fun r => !r.passed) fs) :
      IsReported table b (some o) fs

/-- The findings that sum up a validation: a line on the ruleset, one on the table, and one for each
column of the header with its number of missing values. -/
def Engine.summary (e : Engine) (table : Table) : List Finding :=
  [.about .info .summary (Assembly.rulesLine e.ruleset) none,
    .about .info .summary (Assembly.tableLine table) none] ++
  (Text.distinct table.header).map fun column =>
    .about .info .summary (Assembly.columnLabel column ++ ": " ++
      Text.decimal ((table.column column).filter fun raw => isNull raw e.settings).length ++
        " missing values") (some column)

/-- A report holds the outcome of each block whose column is in the data and of each conditional
rule, once and in order, and the findings about them. -/
structure Report.IsComplete (e : Engine) (table : Table) (report : Report) : Prop where
  columns : List.Forall₂ (fun (b : Block) (o : ColumnOutcome) =>
      e.evaluateColumn table b = .ok o ∧ o.column = b.column ∧
        List.Forall₂ RuleOutcome.IsOf b.rules o.rules)
    (e.ruleset.blocks.filter fun b => table.hasColumn b.column) report.columns
  conditionals : List.Forall₂ (fun (c : Conditional) (o : ConditionalOutcome) =>
      e.evaluateConditional table c = .ok o ∧ o.name = c.name ∧
        (o.status = .notEvaluated ↔ ∃ clause ∈ c.clauses, table.hasColumn clause.column = false))
    e.ruleset.conditionals report.conditionals
  findings : ∃ perBlock conditional,
    report.findings = e.summary table ++ e.ruleset.linkFindings ++
      e.ruleset.columns.checkHeader table.header ++ perBlock.flatten ++ conditional ∧
    List.Forall₂ (fun b fs => Block.IsReported table b (report.column? b.column) fs)
      e.ruleset.blocks perBlock ∧
    List.Forall₂ Finding.IsConditional report.conditionals conditional

/-- All that is found about a header names neither rules nor rows. -/
theorem ColumnSpec.exists_of_mem_checkHeader {spec : ColumnSpec} {header : List String}
    {x : Finding} (h : x ∈ spec.checkHeader header) :
    ∃ severity message column, x = .about severity .header message column := by
  unfold checkHeader at h
  dsimp only at h
  rcases List.mem_append.mp h with h | h
  · rcases List.mem_append.mp h with h | h
    · split at h
      · obtain ⟨c, -, rfl⟩ := List.mem_map.mp h
        exact ⟨_, _, _, rfl⟩
      · cases h
    · split at h
      · obtain ⟨c, -, rfl⟩ := List.mem_map.mp h
        exact ⟨_, _, _, rfl⟩
      · cases h
  · split at h
    · unfold orderMismatch at h
      dsimp only at h
      split at h
      · cases h
      · exact ⟨_, _, _, List.mem_singleton.mp h⟩
    · cases h

namespace Assembly

theorem isFailure_of_ruleFinding {column : String} {o : RuleOutcome} {f : Finding}
    (h : ruleFinding column o = .ok f) : f.IsFailure column o := by
  unfold ruleFinding at h
  dsimp only at h
  split_ifs at h
  · split at h
    · cases h
    · obtain rfl := Except.ok.inj h
      exact ⟨rfl, rfl, rfl, rfl, rfl⟩
  · obtain rfl := Except.ok.inj h
    exact ⟨rfl, rfl, rfl, rfl, rfl⟩

/-- The finding about a conditional rule. -/
def conditionalFinding (o : ConditionalOutcome) : Finding :=
  ⟨(conditionalMessage o.name o).1, .conditional, (conditionalMessage o.name o).2, none,
    some o.name, o.failedRows⟩

theorem isConditional_conditionalFinding (o : ConditionalOutcome) :
    (conditionalFinding o).IsConditional o where
  category := rfl
  column := rfl
  rule := rfl
  rows := rfl
  error := by
    rw [conditionalFinding, conditionalMessage]
    cases o.status <;> simp
  warning := by
    rw [conditionalFinding, conditionalMessage]
    cases o.status <;> simp

/-- The findings about the outcomes in their places are those about the outcomes. -/
theorem flatMap_slots (names : List String) (os : List ConditionalOutcome) :
    ((Keyed.slots ConditionalOutcome.name names os).flatMap fun entry =>
        conditionalFindings entry.1 entry.2)
      = ((Keyed.slots ConditionalOutcome.name names os).filterMap (·.2)).map
          conditionalFinding := by
  induction names with
  | nil => rfl
  | cons n names ih =>
    rw [Keyed.slots, List.map_cons, List.flatMap_cons, List.filterMap_cons]
    dsimp only
    cases hfind : os.find? fun o => o.name == n with
    | none => exact ih
    | some o =>
      have hname := List.find?_some hfind
      obtain rfl := beq_iff_eq.mp hname
      exact congrArg _ ih

end Assembly

namespace Engine

/-! ### Outcomes -/

/-- The outcome of a column is that of its block, with one outcome for each rule. -/
theorem isOf_of_evaluateColumn {o : ColumnOutcome} (h : e.evaluateColumn table b = .ok o) :
    o.column = b.column ∧ List.Forall₂ RuleOutcome.IsOf b.rules o.rules := by
  obtain ⟨cells, outcomes, hcells, houtcomes, rfl⟩ := evaluateColumn_eq_ok_iff.mp h
  refine ⟨rfl, (mapM_eq_ok_iff.mp houtcomes).imp fun rule o hrule => ?_⟩
  have hjudges := judges_of_evaluateRule hcells hrule
  exact ⟨hjudges.rule_eq, hjudges.kind_eq, hjudges.line_eq⟩

theorem absentColumns_ne_nil_iff :
    absentColumns table c ≠ [] ↔ ∃ clause ∈ c.clauses, table.hasColumn clause.column = false := by
  have hmem : ∀ n, n ∈ [c.antecedent.column, c.consequent.column] ↔
      ∃ clause ∈ c.clauses, clause.column = n := by
    simp [Conditional.clauses, eq_comm]
  rw [absentColumns, ne_eq, List.filter_eq_nil_iff]
  push Not
  simp only [Text.mem_distinct_iff, hmem, Bool.not_eq_true']
  constructor
  · rintro ⟨n, ⟨clause, hclause, rfl⟩, habsent⟩
    exact ⟨clause, hclause, habsent⟩
  · rintro ⟨clause, hclause, habsent⟩
    exact ⟨clause.column, ⟨clause, hclause, rfl⟩, habsent⟩

/-- A conditional rule is not evaluated exactly if a column of it is not in the data. -/
theorem evaluateConditional_status {o : ConditionalOutcome}
    (h : e.evaluateConditional table c = .ok o) :
    o.status = .notEvaluated ↔
      ∃ clause ∈ c.clauses, table.hasColumn clause.column = false := by
  rw [← absentColumns_ne_nil_iff]
  unfold evaluateConditional at h
  split at h
  · rename_i hnil
    obtain ⟨rows, -, h⟩ := bind_eq_ok_iff.mp h
    obtain ⟨failed, -, h⟩ := bind_eq_ok_iff.mp h
    obtain rfl := Except.ok.inj h
    refine iff_of_false ?_ (not_not_intro hnil)
    unfold conditionalOutcome
    split_ifs <;> exact nofun
  · rename_i hne
    obtain rfl := Except.ok.inj h
    exact iff_of_true rfl hne

/-! ### Reports -/

/-- The numbers of missing values are those of the columns of the header. -/
theorem missingValues_opening : (e.opening table).missingValues = e.missingValues table := by
  refine Keyed.ofList_eq ?_
  rw [missingValues, List.map_map]
  exact (List.map_id _).symm ▸ Text.nodup_distinct table.header

/-- The summary of a validation is known before any outcome is recorded. -/
theorem summary_opening : (e.opening table).summary = e.summary table := by
  rw [Assembly.summary, missingValues_opening, missingValues, List.map_map]
  rfl

theorem findings_opening : (e.opening table).findings
    = e.ruleset.linkFindings ++ e.ruleset.columns.checkHeader table.header := rfl

section

variable {columns : List ColumnOutcome} {conditionals : List ConditionalOutcome}

theorem column_eq_of_mapM
    (h : (e.presentBlocks table).mapM (e.evaluateColumn table) = .ok columns) :
    columns.map ColumnOutcome.column = (e.presentBlocks table).map Block.column :=
  map_eq_of_forall₂ ((mapM_eq_ok_iff.mp h).imp fun _ _ hrun => (isOf_of_evaluateColumn hrun).1)

theorem name_eq_of_mapM
    (h : e.ruleset.conditionals.mapM (e.evaluateConditional table) = .ok conditionals) :
    conditionals.map ConditionalOutcome.name = e.ruleset.conditionals.map Conditional.name :=
  map_eq_of_forall₂ ((mapM_eq_ok_iff.mp h).imp fun _ _ => evaluateConditional_name)

/-- The report of given outcomes is built from the places that they fill. -/
theorem assemble_eq_ok (hcolumns : (columns.map ColumnOutcome.column).Nodup)
    (hconditionals : (conditionals.map ConditionalOutcome.name).Nodup)
    (h : e.assemble table columns conditionals = .ok report) :
    ({ e.opening table with
        columns := Keyed.slots ColumnOutcome.column (e.ruleset.blocks.map Block.column) columns
        conditionals := Keyed.slots ConditionalOutcome.name
          (e.ruleset.conditionals.map Conditional.name) conditionals } : Assembly).build
      = .ok report := by
  obtain ⟨a, ha, hrest⟩ := bind_eq_ok_iff.mp h
  obtain ⟨a', ha', hbuild⟩ := bind_eq_ok_iff.mp hrest
  have hopening : (e.opening table).columns
        = Keyed.slots ColumnOutcome.column (e.ruleset.blocks.map Block.column) [] ∧
      (e.opening table).conditionals
        = Keyed.slots ConditionalOutcome.name (e.ruleset.conditionals.map Conditional.name) [] := by
    rw [Keyed.slots_nil, Keyed.slots_nil, List.map_map, List.map_map]
    exact ⟨rfl, rfl⟩
  obtain rfl := Assembly.foldlM_recordColumn e.ruleset.blocks_nodup hcolumns hopening.1 ha
  have hfilled :=
    Assembly.foldlM_recordConditional e.ruleset.conditionals_nodup hconditionals ?_ ha'
  · rw [hfilled] at hbuild
    exact hbuild
  · exact hopening.2

/-- The findings about a block are those that its outcome calls for. -/
theorem isReported_of_columnFindings {fs : List Finding}
    (houtcomes : (e.presentBlocks table).mapM (e.evaluateColumn table) = .ok columns)
    (hb : b ∈ e.ruleset.blocks)
    (h : Assembly.columnFindings b.column (columns.find? fun o => o.column == b.column) = .ok fs) :
    Block.IsReported table b (columns.find? fun o => o.column == b.column) fs := by
  have hcolumns := column_eq_of_mapM houtcomes
  cases hpresent : table.hasColumn b.column with
  | false =>
    have hnone : (columns.find? fun o => o.column == b.column) = none := by
      refine Keyed.find?_key_eq_none fun hmem => ?_
      rw [hcolumns] at hmem
      obtain ⟨b', hb', heq⟩ := List.mem_map.mp hmem
      have hthere := (List.mem_filter.mp hb').2
      rw [heq, hpresent] at hthere
      exact Bool.false_ne_true hthere
    rw [hnone] at h ⊢
    obtain rfl := Except.ok.inj h
    exact .absent hpresent
  | true =>
    have hmem : b ∈ e.presentBlocks table := List.mem_filter.mpr ⟨hb, hpresent⟩
    obtain ⟨o, ho, hrun⟩ := exists_mem_of_forall₂ (mapM_eq_ok_iff.mp houtcomes) hmem
    obtain ⟨hcolumn, hrules⟩ := isOf_of_evaluateColumn hrun
    have hdistinct : (columns.map ColumnOutcome.column).Nodup :=
      hcolumns ▸ e.ruleset.blocks_nodup.sublist (List.filter_sublist.map _)
    have hfind : (columns.find? fun o => o.column == b.column) = some o :=
      hcolumn ▸ Keyed.find?_key hdistinct ho
    rw [hfind] at h ⊢
    rw [Assembly.columnFindings] at h
    split_ifs at h with hempty hpassed
    · obtain rfl := Except.ok.inj h
      rw [List.isEmpty_iff] at hempty
      rw [hempty, List.forall₂_nil_right_iff] at hrules
      exact .empty hpresent hrules
    · obtain rfl := Except.ok.inj h
      refine .passed hpresent (fun hnil => hempty ?_) (List.all_eq_true.mp hpassed)
      rw [hnil, List.forall₂_nil_left_iff] at hrules
      rw [hrules, List.isEmpty_nil]
    · refine .failed hpresent ?_ ((mapM_eq_ok_iff.mp h).imp fun _ _ =>
        Assembly.isFailure_of_ruleFinding)
      simpa [ColumnOutcome.allPassed] using hpassed

end

/-- **Every report of a validation is complete.** -/
theorem evaluate_isComplete (e : Engine) (table : Table) (report : Report)
    (h : e.evaluate table = .ok report) : report.IsComplete e table := by
  obtain ⟨columns, hcolumns, h⟩ := bind_eq_ok_iff.mp h
  obtain ⟨conditionals, hconditionals, h⟩ := bind_eq_ok_iff.mp h
  rw [mapError_eq_ok_iff] at hcolumns hconditionals h
  have hcolumnKeys := column_eq_of_mapM hcolumns
  have hconditionalKeys := name_eq_of_mapM hconditionals
  have hsub : (columns.map ColumnOutcome.column).Sublist (e.ruleset.blocks.map Block.column) :=
    hcolumnKeys ▸ List.filter_sublist.map _
  have hbuild := assemble_eq_ok (e.ruleset.blocks_nodup.sublist hsub)
    (hconditionalKeys ▸ e.ruleset.conditionals_nodup) h
  obtain ⟨findings, hfindings, rfl⟩ := map_eq_ok_iff.mp hbuild
  obtain ⟨perBlock, hperBlock, rfl⟩ := map_eq_ok_iff.mp hfindings
  have hreadColumns := Keyed.filterMap_slots e.ruleset.blocks_nodup hsub
  have hreadConditionals : (Keyed.slots ConditionalOutcome.name
      (e.ruleset.conditionals.map Conditional.name) conditionals).filterMap (·.2)
        = conditionals :=
    Keyed.filterMap_slots e.ruleset.conditionals_nodup (hconditionalKeys ▸ List.Sublist.refl _)
  refine ⟨?_, ?_, perBlock, conditionals.map Assembly.conditionalFinding, ?_, ?_, ?_⟩
  · change List.Forall₂ _ _ ((Keyed.slots _ _ _).filterMap (·.2))
    rw [hreadColumns]
    exact (mapM_eq_ok_iff.mp hcolumns).imp fun b o hrun => ⟨hrun, isOf_of_evaluateColumn hrun⟩
  · change List.Forall₂ _ _ ((Keyed.slots _ _ _).filterMap (·.2))
    rw [hreadConditionals]
    exact (mapM_eq_ok_iff.mp hconditionals).imp fun c o hrun =>
      ⟨hrun, evaluateConditional_name hrun, evaluateConditional_status hrun⟩
  · dsimp only
    rw [Assembly.flatMap_slots, hreadConditionals, ← summary_opening, findings_opening,
      List.append_assoc _ _ (ColumnSpec.checkHeader _ _)]
    rfl
  · rw [mapM_eq_ok_iff, Keyed.slots, List.map_map, List.forall₂_map_left_iff] at hperBlock
    refine ((List.forall₂_and_left _ _).mpr ⟨fun b hb => hb, hperBlock⟩).imp ?_
    rintro b fs ⟨hb, hfs⟩
    rw [Report.column?]
    dsimp only
    rw [hreadColumns]
    exact isReported_of_columnFindings hcolumns hb hfs
  · change List.Forall₂ _ ((Keyed.slots _ _ _).filterMap (·.2)) _
    rw [hreadConditionals, List.forall₂_map_right_iff]
    exact List.forall₂_same.mpr fun o _ => Assembly.isConditional_conditionalFinding o

/-! #### A load of freight

One block has rules that hold, one has rules that fail, one has no rules, and one is for a column
that is not in the data. -/

/-- An engine with these blocks and two conditional rules. -/
def freightEngine : Engine :=
  ⟨⟨.standard, ⟨["id", "weight", "note", "carrier"], false, false, false⟩,
    [⟨"id", [⟨.unique, some 3⟩]⟩,
      ⟨"weight", [⟨.hasType .integer, some 5⟩, ⟨.compare .less (.integer 10), some 6⟩]⟩,
      ⟨"note", []⟩,
      ⟨"carrier", [⟨.required, some 9⟩]⟩],
    [⟨"light", ⟨"weight", ⟨.compare .less (.integer 5), some 11⟩⟩, ⟨"id", ⟨.required, some 12⟩⟩,
        some 10⟩,
      ⟨"carried", ⟨"weight", ⟨.required, some 14⟩⟩, ⟨"carrier", ⟨.required, some 15⟩⟩, some 13⟩],
    none, by decide, by decide⟩, .standard, 1⟩

/-- Three loads. -/
def freightTable : Table :=
  ⟨["id", "weight", "note"],
    [[("id", some "a"), ("weight", some "4")], [("id", some "b"), ("weight", some "12")],
      [("id", some "c"), ("weight", some "x")]], none⟩

/-- What a report says about them, from the summary to the conditional rules. -/
def freightLines : List String :=
  ["Info: rules file OK: 4 declared columns, 4 column blocks, 2 conditional rules",
    "Info: 3 rows, 3 columns",
    "Info: column 'id': 0 missing values",
    "Info: column 'weight': 0 missing values",
    "Info: column 'note': 3 missing values",
    "Warning: column 'note' has no associated value rules",
    "Info: column 'id': all OK",
    "Error: column 'weight': rule 'has value type integer' failed for row 3 " ++
      "('x': value does not match declared type (integer))",
    "Error: column 'weight': rule 'is < 10' failed for rows 2, 3 (value 12 is not < 10)",
    "Warning: column 'carrier' not found in data; its rules were not evaluated",
    "Info: conditional rule 'light': all OK (1 rows matched)",
    "Warning: conditional rule 'carried' not evaluated: column 'carrier' not found in data"]

/-- The report on the freight is complete and says this. -/
theorem freightTable_isComplete :
    ∃ report, freightEngine.evaluate freightTable = .ok report ∧
      report.IsComplete freightEngine freightTable ∧
      report.findings.map Finding.line = freightLines := by
  have hlines : (freightEngine.evaluate freightTable).toOption.any
      (fun report => report.findings.map Finding.line == freightLines) = true := by
    decide +kernel
  obtain ⟨report, hreport, hlines⟩ := any_toOption_iff.mp hlines
  exact ⟨report, hreport, evaluate_isComplete freightEngine freightTable report hreport,
    beq_iff_eq.mp hlines⟩

end Engine

end TableRules
