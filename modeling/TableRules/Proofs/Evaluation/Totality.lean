import TableRules.Proofs.Evaluation.ConditionalOutcomes
import TableRules.Proofs.Evaluation.Interruptions
import TableRules.Proofs.Report.Recording
import TableRules.Proofs.RulesText.ParsedRulesets

/-!
# Evaluation gives a report

An evaluation reads the cells of columns, checks rules, looks up the rows of a condition in the
column of a consequence, and records the outcomes. For a well-formed ruleset only the first two can
break off, and only at integers that are too large (`Engine.Interrupts`). The lemmas follow the
evaluation from a rule to a block, to a conditional rule and to a table; each says that its part
breaks off only where the engine is interrupted.

**Main result** (`Ruleset.evaluate_total`): the engine of a parsed ruleset gives a report for every
table or is interrupted. An overlong cell always leaves no report
(`Engine.evaluate_ne_ok_of_isOverlong`); an integer beyond the doubles may still be found in a set
by its text.
-/

namespace TableRules

open Result

/-! ### The rules of a ruleset -/

namespace Ruleset

variable {ruleset : Ruleset} {rule : Rule}

theorem mem_allRules_of_block {b : Block} (hb : b ∈ ruleset.blocks) (hrule : rule ∈ b.rules) :
    rule ∈ ruleset.allRules :=
  List.mem_append_left _ (List.mem_flatMap.mpr ⟨b, hb, hrule⟩)

theorem mem_allRules_of_clause {c : Conditional} {clause : Clause}
    (hc : c ∈ ruleset.conditionals) (hclause : clause ∈ c.clauses) :
    clause.rule ∈ ruleset.allRules :=
  List.mem_append_right _
    (List.mem_flatMap.mpr ⟨c, hc, List.mem_map.mpr ⟨clause, hclause, rfl⟩⟩)

end Ruleset

/-- The only type that a block declares is its type. -/
theorem Block.valueType_eq_some {b : Block} (h : (b.rules.filter Rule.declaresType).length ≤ 1)
    {rule : Rule} (hrule : rule ∈ b.rules) {t : ValueType} (ht : rule.constraint = .hasType t) :
    b.valueType = some t := by
  have hdeclares : rule.declaresType = true := by rw [Rule.declaresType, ht]; rfl
  rw [valueType]
  generalize b.rules = rules at h hrule
  induction rules with
  | nil => simp at hrule
  | cons first rules ih =>
    rcases List.mem_cons.mp hrule with rfl | hrule
    · simp [ht, Constraint.declaredType?]
    · -- the first rule declares no type, for then there would be two that do
      have hmem : rule ∈ rules.filter Rule.declaresType := List.mem_filter.mpr ⟨hrule, hdeclares⟩
      have hfirst : first.declaresType = false := by
        by_contra hne
        rw [List.filter_cons_of_pos (by simpa using hne), List.length_cons] at h
        have := List.length_pos_of_mem hmem
        omega
      rw [List.filter_cons_of_neg (by simp [hfirst])] at h
      have hnone : first.constraint.declaredType? = none := by
        simpa [Rule.declaresType] using hfirst
      rw [List.findSome?_cons, hnone]
      exact ih h hrule

namespace Engine

variable {e : Engine} {table : Table} {column : String} {type : Option ValueType} {rule : Rule}
  {cells : List Cell} {fault : CheckFault}

theorem clauseType_eq_some {clause : Clause} {t : ValueType}
    (ht : clause.rule.constraint = .hasType t) : e.clauseType clause = some t := by
  rw [clauseType, ht]
  rfl

/-! ### One rule -/

/-- A cell of a column shows a raw cell that can be read with the type of the column. -/
theorem exists_shows (hcells : e.cells table column type = .ok cells) {cell : Cell}
    (hcell : cell ∈ cells) :
    ∃ raw, cell.Shows (.ofTable e table column type) raw ∧
      ∀ t, type = some t → ∃ r, coerce raw t e.settings e.catalog = .ok r := by
  obtain ⟨hlen, hread⟩ := Cell.readFrom_eq_ok hcells
  obtain ⟨i, hi, rfl⟩ := List.getElem_of_mem hcell
  have hcell := hread i hi (hlen ▸ hi)
  refine ⟨(table.column column)[i], (Cell.shows_of_read hcell).2, ?_⟩
  rintro t rfl
  obtain ⟨r, hr, -⟩ := map_eq_ok_iff.mp hcell
  exact ⟨r, hr⟩

/-- Where checking a cell breaks off, the engine is interrupted. -/
theorem interrupts_of_violation? (hcells : e.cells table column type = .ok cells) {cell : Cell}
    (hcell : cell ∈ cells) {check : Check} (hcheck : e.check rule = .ok check)
    (htype : ∀ t, rule.constraint = .hasType t → type = some t)
    (htests : e.Tests table rule cell) {f : NumberFault}
    (h : check.violation? e.settings e.catalog cells cell = .error f) :
    e.Interrupts table f := by
  obtain ⟨raw, hs, hcoerce⟩ := exists_shows hcells hcell
  obtain ⟨rfl, hcompares, hexceeds⟩ := Check.violation?_eq_error hs hcheck
    (fun t ht => hcoerce t (htype t ht)) h
  exact .tooLarge htests hcompares hexceeds

/-- Where reading a column breaks off, the engine is interrupted. -/
theorem interrupts_of_cells (hreads : e.Reads table column type)
    (h : ofNumber (e.cells table column type) = .error fault) :
    ∃ f, fault = .number f ∧ e.Interrupts table f := by
  obtain ⟨f, hf, rfl⟩ := mapError_eq_error_iff.mp h
  obtain ⟨rfl, rfl, raw, hraw, hlong⟩ := cells_eq_error hf
  exact ⟨_, rfl, .overlong hreads hraw hlong⟩

/-- The evaluation of a rule that a text states breaks off only at a cell. -/
theorem evaluateRule_eq_error {typed : Bool} (hrule : rule.IsUsable e.catalog)
    (h : e.evaluateRule cells typed rule = .error fault) :
    ∃ check f, e.check rule = .ok check ∧ fault = .number f ∧
      ∃ cell ∈ cells, check.violation? e.settings e.catalog cells cell = .error f := by
  obtain ⟨check, hcheck⟩ := hrule.isStated.exists_check
  obtain ⟨phrase, hphrase⟩ := hrule.isStated.exists_description
  rcases bind_eq_error_iff.mp h with hfault | ⟨check', hcheck', h⟩
  · cases hcheck.symm.trans hfault
  · obtain rfl := Except.ok.inj (hcheck.symm.trans hcheck')
    have hdescribe : rule.describe? = some phrase := hphrase
    simp only [hdescribe] at h
    split_ifs at h
    · cases h
    · rcases bind_eq_error_iff.mp h with hfound | ⟨found, -, hpure⟩
      · obtain ⟨f, hf, rfl⟩ := mapError_eq_error_iff.mp hfound
        exact ⟨check, f, hcheck, rfl, exists_of_mapM_eq_error hf⟩
      · cases hpure

/-! ### Blocks -/

/-- The rules of a block in a table are interrupted, or evaluated. -/
theorem evaluateColumn_eq_error (hformed : e.ruleset.WellFormed e.catalog) {b : Block}
    (hb : b ∈ e.presentBlocks table) (h : e.evaluateColumn table b = .error fault) :
    ∃ f, fault = .number f ∧ e.Interrupts table f := by
  have hmem : b ∈ e.ruleset.blocks := (List.mem_filter.mp hb).1
  rcases bind_eq_error_iff.mp h with hcells | ⟨cells, hcells, h⟩
  · exact interrupts_of_cells (.block hb) hcells
  · rcases bind_eq_error_iff.mp h with hrules | ⟨outcomes, -, hpure⟩
    · obtain ⟨rule, hrule, hfault⟩ := exists_of_mapM_eq_error hrules
      have husable := hformed.rules rule (Ruleset.mem_allRules_of_block hmem hrule)
      obtain ⟨check, f, hcheck, rfl, cell, hcell, hviolation⟩ :=
        evaluateRule_eq_error husable hfault
      have hcells := ofNumber_eq_ok_iff.mp hcells
      refine ⟨f, rfl, interrupts_of_violation? hcells hcell hcheck ?_
        (.block hb hrule hcells hcell) hviolation⟩
      exact fun t ht => Block.valueType_eq_some (hformed.blocks b hmem).2 hrule ht
    · cases hpure

/-! ### Conditional rules -/

/-- The cells of a clause are read, and its check is made, before anything else is done; where this
breaks off, the engine is interrupted. -/
theorem clause_eq_error (hformed : e.ruleset.WellFormed e.catalog) {c : Conditional}
    (hc : c ∈ e.ruleset.conditionals) (hpresent : absentColumns table c = []) {clause : Clause}
    (hclause : clause ∈ c.clauses) {α : Type} {next : List Cell → Check → Except CheckFault α}
    (h : (ofNumber (e.cells table clause.column (e.clauseType clause)) >>= fun cells =>
      e.check clause.rule >>= next cells) = .error fault) :
    (∃ f, fault = .number f ∧ e.Interrupts table f) ∨
      ∃ cells check, e.cells table clause.column (e.clauseType clause) = .ok cells ∧
        e.check clause.rule = .ok check ∧ next cells check = .error fault := by
  have husable := hformed.rules _ (Ruleset.mem_allRules_of_clause hc hclause)
  obtain ⟨check, hcheck⟩ := husable.isStated.exists_check
  rcases bind_eq_error_iff.mp h with hcells | ⟨cells, hcells, h⟩
  · exact .inl (interrupts_of_cells (.clause hc hpresent hclause) hcells)
  · rcases bind_eq_error_iff.mp h with hfault | ⟨check', hcheck', hnext⟩
    · cases hcheck.symm.trans hfault
    · exact .inr ⟨cells, check', ofNumber_eq_ok_iff.mp hcells, hcheck', hnext⟩

/-- The search for the rows that fulfil a condition is interrupted, or finished. -/
theorem antecedentRows_eq_error (hformed : e.ruleset.WellFormed e.catalog) {c : Conditional}
    (hc : c ∈ e.ruleset.conditionals) (hpresent : absentColumns table c = [])
    (h : e.antecedentRows table c.antecedent = .error fault) :
    ∃ f, fault = .number f ∧ e.Interrupts table f := by
  rcases clause_eq_error hformed hc hpresent List.mem_cons_self h with
    hinterrupted | ⟨cells, check, hcells, hcheck, h⟩
  · exact hinterrupted
  · split_ifs at h
    · cases h
    · obtain ⟨f, hf, rfl⟩ := mapError_eq_error_iff.mp h
      rcases bind_eq_error_iff.mp hf with hmatched | ⟨matched, -, hpure⟩
      · obtain ⟨cell, hcell, hfulfils⟩ := exists_of_filterM_eq_error hmatched
        have hviolation : check.violation? e.settings e.catalog cells cell = .error f := by
          unfold fulfils at hfulfils
          split_ifs at hfulfils
          exact map_eq_error_iff.mp hfulfils
        exact ⟨f, rfl, interrupts_of_violation? hcells hcell hcheck
          (fun t ht => clauseType_eq_some ht) (.antecedent hc hpresent hcells hcell) hviolation⟩
      · cases hpure

/-- The check of a consequence is interrupted, or finished. -/
theorem consequentFailures_eq_error (hformed : e.ruleset.WellFormed e.catalog) {c : Conditional}
    (hc : c ∈ e.ruleset.conditionals) (hpresent : absentColumns table c = []) {rows : List Nat}
    (hrows : e.antecedentRows table c.antecedent = .ok rows)
    (h : e.consequentFailures table c.consequent rows = .error fault) :
    ∃ f, fault = .number f ∧ e.Interrupts table f := by
  rcases clause_eq_error hformed hc hpresent (List.mem_cons_of_mem _ List.mem_cons_self) h with
    hinterrupted | ⟨cells, check, hcells, hcheck, h⟩
  · exact hinterrupted
  · obtain ⟨row, hrow, hfails⟩ := exists_of_filterM_eq_error h
    -- the row is found in the column, so that only the check of its cell can break off
    obtain ⟨-, cell, hplace, rfl⟩ := exists_consequent_cell hrows hcells row hrow
    have hcell := List.mem_of_getElem? hplace
    rw [failsAt_row hcells check hcell] at hfails
    obtain ⟨f, hf, rfl⟩ := mapError_eq_error_iff.mp hfails
    exact ⟨f, rfl, interrupts_of_violation? hcells hcell hcheck
      (fun t ht => clauseType_eq_some ht) (.consequent hc hpresent hrows hcells hcell hrow)
      (map_eq_error_iff.mp hf)⟩

/-- A conditional rule is interrupted, or evaluated. -/
theorem evaluateConditional_eq_error (hformed : e.ruleset.WellFormed e.catalog) {c : Conditional}
    (hc : c ∈ e.ruleset.conditionals) (h : e.evaluateConditional table c = .error fault) :
    ∃ f, fault = .number f ∧ e.Interrupts table f := by
  unfold evaluateConditional at h
  split at h
  · rename_i hpresent
    rcases bind_eq_error_iff.mp h with hrows | ⟨rows, hrows, h⟩
    · exact antecedentRows_eq_error hformed hc hpresent hrows
    · rcases bind_eq_error_iff.mp h with hfailed | ⟨failed, -, hpure⟩
      · exact consequentFailures_eq_error hformed hc hpresent hrows hfailed
      · cases hpure
  · cases h

/-! ### Outcomes can be reported -/

/-- The outcome of a rule that was evaluated is explained. -/
theorem isExplained_of_evaluateRule {typed : Bool} {o : RuleOutcome}
    (h : e.evaluateRule cells typed rule = .ok o) : o.IsExplained := by
  obtain ⟨check, phrase, -, -, ⟨-, -, rfl⟩ | ⟨-, found, -, rfl⟩⟩ := evaluateRule_eq_ok h
  · have hnote : Violation.noTypeMessage ≠ "" := by decide
    exact fun _ => .inl hnote
  · intro hfailed
    -- there are as many messages as failed rows
    have hne : failures cells found ≠ [] := by
      rintro hnil
      simp [RuleOutcome.passed, ruleOutcome, hnil] at hfailed
    exact .inr (by simpa [ruleOutcome] using hne)

theorem evaluateColumn_reportable {b : Block} {o : ColumnOutcome}
    (h : e.evaluateColumn table b = .ok o) :
    o.column = b.column ∧ ∀ rule ∈ o.rules, rule.IsExplained := by
  obtain ⟨cells, outcomes, -, houtcomes, rfl⟩ := evaluateColumn_eq_ok_iff.mp h
  refine ⟨rfl, fun o ho => ?_⟩
  obtain ⟨rule, -, hrule⟩ := exists_mem_of_forall₂ (mapM_eq_ok_iff.mp houtcomes).flip ho
  exact isExplained_of_evaluateRule hrule

theorem evaluateConditional_name {c : Conditional} {o : ConditionalOutcome}
    (h : e.evaluateConditional table c = .ok o) : o.name = c.name := by
  unfold evaluateConditional at h
  split at h
  · obtain ⟨rows, -, h⟩ := bind_eq_ok_iff.mp h
    obtain ⟨failed, -, h⟩ := bind_eq_ok_iff.mp h
    obtain rfl := Except.ok.inj h
    unfold conditionalOutcome
    split_ifs <;> rfl
  · obtain rfl := Except.ok.inj h
    rfl

/-! ### The evaluation of a table -/

/-- Where all blocks and all conditional rules are evaluated, there is a report. -/
theorem exists_evaluate {columns : List ColumnOutcome} {conditionals : List ConditionalOutcome}
    (hcolumns : e.evaluateColumns table = .ok columns)
    (hconditionals : e.evaluateConditionals table = .ok conditionals) :
    ∃ report, e.evaluate table = .ok report := by
  obtain ⟨report, hreport⟩ : ∃ report, e.assemble table columns conditionals = .ok report := by
    refine exists_assemble (fun o ho => ?_) fun o ho => ?_
    · obtain ⟨b, hb, hevaluate⟩ := exists_mem_of_forall₂ (mapM_eq_ok_iff.mp hcolumns).flip ho
      obtain ⟨hcolumn, hexplained⟩ := evaluateColumn_reportable hevaluate
      have hmem : b ∈ e.ruleset.blocks := (List.mem_filter.mp hb).1
      exact ⟨hcolumn ▸ List.mem_map_of_mem hmem, hexplained⟩
    · obtain ⟨c, hc, hevaluate⟩ :=
        exists_mem_of_forall₂ (mapM_eq_ok_iff.mp hconditionals).flip ho
      exact evaluateConditional_name hevaluate ▸ List.mem_map_of_mem hc
  refine ⟨report, bind_eq_ok_iff.mpr ⟨columns, mapError_eq_ok_iff.mpr hcolumns, ?_⟩⟩
  refine bind_eq_ok_iff.mpr ⟨conditionals, mapError_eq_ok_iff.mpr hconditionals, ?_⟩
  exact mapError_eq_ok_iff.mpr hreport

/-- The evaluation of a well-formed ruleset gives a report or is interrupted. -/
theorem evaluate_cases (hformed : e.ruleset.WellFormed e.catalog) (table : Table) :
    (∃ report, e.evaluate table = .ok report) ∨
      ∃ f, e.evaluate table = .error (.check (.number f)) ∧ e.Interrupts table f := by
  cases hcolumns : e.evaluateColumns table with
  | error fault =>
    obtain ⟨b, hb, hfault⟩ := exists_of_mapM_eq_error hcolumns
    obtain ⟨f, rfl, hinterrupts⟩ := evaluateColumn_eq_error hformed hb hfault
    exact .inr ⟨f, bind_eq_error_iff.mpr (.inl (by rw [hcolumns]; rfl)), hinterrupts⟩
  | ok columns =>
    cases hconditionals : e.evaluateConditionals table with
    | error fault =>
      obtain ⟨c, hc, hfault⟩ := exists_of_mapM_eq_error hconditionals
      obtain ⟨f, rfl, hinterrupts⟩ := evaluateConditional_eq_error hformed hc hfault
      refine .inr ⟨f, bind_eq_error_iff.mpr (.inr ⟨columns, mapError_eq_ok_iff.mpr hcolumns, ?_⟩),
        hinterrupts⟩
      exact bind_eq_error_iff.mpr (.inl (by rw [hconditionals]; rfl))
    | ok conditionals => exact .inl (exists_evaluate hcolumns hconditionals)

/-! ### Overlong cells -/

/-- Where a report is given, every column was read that the engine reads. -/
theorem Reads.exists_cells {report : Report} (hreads : e.Reads table column type)
    (h : e.evaluate table = .ok report) : ∃ cells, e.cells table column type = .ok cells := by
  obtain ⟨columns, hcolumns, h⟩ := bind_eq_ok_iff.mp h
  obtain ⟨conditionals, hconditionals, -⟩ := bind_eq_ok_iff.mp h
  rw [mapError_eq_ok_iff, evaluateColumns, mapM_eq_ok_iff] at hcolumns
  rw [mapError_eq_ok_iff, evaluateConditionals, mapM_eq_ok_iff] at hconditionals
  cases hreads with
  | block hb =>
    obtain ⟨o, -, ho⟩ := exists_mem_of_forall₂ hcolumns hb
    obtain ⟨cells, hcells, -⟩ := bind_eq_ok_iff.mp ho
    exact ⟨cells, ofNumber_eq_ok_iff.mp hcells⟩
  | clause hc hpresent hclause =>
    obtain ⟨o, -, ho⟩ := exists_mem_of_forall₂ hconditionals hc
    simp only [evaluateConditional, hpresent] at ho
    obtain ⟨rows, hrows, ho⟩ := bind_eq_ok_iff.mp ho
    obtain ⟨failed, hfailed, -⟩ := bind_eq_ok_iff.mp ho
    simp only [Conditional.clauses, List.mem_cons, List.not_mem_nil, or_false] at hclause
    rcases hclause with rfl | rfl
    · obtain ⟨cells, hcells, -⟩ := bind_eq_ok_iff.mp hrows
      exact ⟨cells, ofNumber_eq_ok_iff.mp hcells⟩
    · obtain ⟨cells, hcells, -⟩ := bind_eq_ok_iff.mp hfailed
      exact ⟨cells, ofNumber_eq_ok_iff.mp hcells⟩

/-- **An overlong cell that is read as an integer leaves no report.** -/
theorem evaluate_ne_ok_of_isOverlong {raw : Option String}
    (hreads : e.Reads table column (some .integer)) (hraw : raw ∈ table.column column)
    (hlong : (RawColumn.ofTable e table column (some .integer)).IsOverlong raw)
    (report : Report) : e.evaluate table ≠ .ok report := by
  intro h
  exact exists_cells_iff.mp (hreads.exists_cells h) ⟨rfl, raw, hraw, hlong⟩

end Engine

/-! ### The main result -/

/-- **The evaluation of a parsed ruleset** gives a report for every table, unless a cell that is
read as an integer is overlong or a cell that is compared with numbers exceeds the doubles. The
rows that fulfil a condition are found in the column of the consequence by their places. -/
theorem Ruleset.evaluate_total (catalog : Option Catalog) (source : String) (ruleset : Ruleset)
    (h : parse catalog source = .ok ruleset) (workers : Int) :
    ∃ e, Engine.make ruleset none workers = .ok e ∧ ∀ table,
      ((∃ report, e.evaluate table = .ok report) ∨
        ∃ f, e.evaluate table = .error (.check (.number f)) ∧ e.Interrupts table f) ∧
      ∀ c ∈ ruleset.conditionals, ∀ rows cells,
        e.antecedentRows table c.antecedent = .ok rows →
        e.cells table c.consequent.column (e.clauseType c.consequent) = .ok cells →
        ∀ row ∈ rows, 0 < row ∧ ∃ cell, cells[row - 1]? = some cell ∧ cell.row = row := by
  have hformed := wellFormed_of_parse h
  have hown := ownCatalog_eq (dateFormats_of_parse h)
  refine ⟨_, hformed.make_eq_ok (.inr ⟨rfl, hown⟩) workers, fun table => ⟨?_, ?_⟩⟩
  · exact Engine.evaluate_cases hformed table
  · exact fun c _ rows cells hrows hcells => Engine.exists_consequent_cell hrows hcells

/-! #### Goods by size

Small goods come in any unit, large ones in tons. -/

/-- A text with a typed column, a comparison and a conditional rule. -/
def sizeText : String :=
  "column names in ['size', 'unit']\n" ++
  "column: size\n" ++
  "  has value type integer\n" ++
  "  is < 100\n" ++
  "conditional rule: 'bulk'\n" ++
  "if column: size is > 50\n" ++
  "then column: unit is 'ton'\n"

/-- Goods of a small and of a large size. -/
def sizeTable : Table :=
  ⟨["size", "unit"], [[("size", some "7")], [("size", some "60"), ("unit", some "ton")]], none⟩

/-- The goods get a report, and any other table gets one or is interrupted. -/
theorem sizeText_total :
    ∃ ruleset e, Ruleset.parse none sizeText = .ok ruleset ∧
      Engine.make ruleset none 1 = .ok e ∧ (∃ report, e.evaluate sizeTable = .ok report) ∧
      ∀ table, (∃ report, e.evaluate table = .ok report) ∨
        ∃ f, e.evaluate table = .error (.check (.number f)) ∧ e.Interrupts table f := by
  have hreport : (Ruleset.parse none sizeText).toOption.any (fun ruleset =>
      (Engine.make ruleset none 1).toOption.any fun e =>
        (e.evaluate sizeTable).toOption.any fun report => !report.hasErrors) = true := by
    decide +kernel
  obtain ⟨ruleset, hparse, hreport⟩ := any_toOption_iff.mp hreport
  obtain ⟨e, hmake, hreport⟩ := any_toOption_iff.mp hreport
  obtain ⟨report, hreport, -⟩ := any_toOption_iff.mp hreport
  obtain ⟨e', hmake', htotal⟩ := Ruleset.evaluate_total none sizeText ruleset hparse 1
  obtain rfl := Except.ok.inj (hmake.symm.trans hmake')
  exact ⟨ruleset, e, hparse, hmake, ⟨report, hreport⟩, fun table => (htotal table).1⟩

end TableRules
