import TableRules.Proofs.Evaluation.ConditionalOutcomes
import TableRules.Proofs.Evaluation.ReportedOutcomes

/-!
# Columns do not interfere

The rows of a table are shared by all its columns, and a clause of a conditional rule takes the type
of its column from another part of the ruleset. Still, the evaluation of a block depends on no more
than the settings, the catalog, the block itself and the cells of its column, and the evaluation of
a conditional rule on no more than these, the rule, and the types and cells of the columns of its
two clauses. So two engines come to the same, as long as they read cells alike
(`Engine.ReadsAlike`) and the tables agree on the columns in question (`Table.AgreeOn`), whatever
else the rulesets declare and the tables hold.

Each function of the evaluation has one lemma `…_congr` that says so, faults included.

**Main result** (`Engine.evaluate_agreeOn`): reports on tables that agree on a column hold the same
outcome for it, and likewise for a conditional rule.
-/

namespace TableRules

open Result

/-- Two tables agree on a column: both have it, they have as many rows, and each row of the one has
in that column the cell of the same row of the other. -/
structure Table.AgreeOn (table table' : Table) (column : String) : Prop where
  hasColumn : table.hasColumn column = true
  hasColumn' : table'.hasColumn column = true
  rowCount : table'.rowCount = table.rowCount
  cell (i : Nat) (row row' : Row) : table.rows[i]? = some row → table'.rows[i]? = some row' →
    row'.cell column = row.cell column

theorem Table.AgreeOn.column_eq {table table' : Table} {column : String}
    (h : table.AgreeOn table' column) : table'.column column = table.column column := by
  have hlen : table'.rows.length = table.rows.length := h.rowCount
  refine List.ext_getElem (by rw [Table.column, Table.column, List.length_map, List.length_map,
    hlen]) fun i hi' hi => ?_
  rw [Table.column, List.length_map] at hi hi'
  simp only [Table.column, List.getElem_map]
  exact h.cell i _ _ (List.getElem?_eq_getElem hi) (List.getElem?_eq_getElem hi')

/-- Tables agree on a column that both have if they hold the same cells in it. -/
theorem Table.agreeOn_of_column_eq {table table' : Table} {column : String}
    (h : table.hasColumn column = true) (h' : table'.hasColumn column = true)
    (heq : table'.column column = table.column column) : table.AgreeOn table' column := by
  refine ⟨h, h', ?_, fun i row row' hrow hrow' => ?_⟩
  · simpa only [Table.rowCount, Table.column, List.length_map] using congrArg List.length heq
  · have hcell := congrArg (·[i]?) heq
    simp only [Table.column, List.getElem?_map, hrow, hrow', Option.map_some] at hcell
    exact Option.some.inj hcell

/-- The block for a column is one of the blocks, and it is for that column. -/
theorem Ruleset.mem_of_block? {r : Ruleset} {column : String} {b : Block}
    (h : r.block? column = some b) : b ∈ r.blocks ∧ b.column = column :=
  ⟨List.mem_of_find?_eq_some h, by simpa using List.find?_some h⟩

namespace Engine

/-- Two engines read cells alike: they have the same settings and the same catalog. -/
structure ReadsAlike (e e' : Engine) : Prop where
  settings : e'.settings = e.settings
  catalog : e'.catalog = e.catalog

variable {e e' : Engine} {table table' : Table} {cells : List Cell} {rule : Rule}

/-! ### What an evaluation depends on -/

namespace ReadsAlike

theorem cells_congr (he : e.ReadsAlike e') {column : String}
    (hcolumn : table'.column column = table.column column) (type : Option ValueType) :
    e'.cells table' column type = e.cells table column type := by
  rw [cells, cells, Cell.readColumn, Cell.readColumn, he.settings, he.catalog, hcolumn]

theorem check_congr (he : e.ReadsAlike e') : e'.check rule = e.check rule := by
  rw [check, check, he.catalog]

theorem violations_congr (he : e.ReadsAlike e') {check : Check} :
    e'.violations check cells = e.violations check cells := by
  rw [violations, violations, he.settings, he.catalog]

theorem evaluateRule_congr (he : e.ReadsAlike e') {typed : Bool} :
    e'.evaluateRule cells typed rule = e.evaluateRule cells typed rule := by
  simp only [evaluateRule, he.check_congr, he.violations_congr]

/-- **The outcome of a block** depends on the settings, the catalog and the cells of its column. -/
theorem evaluateColumn_congr (he : e.ReadsAlike e') {b : Block}
    (hcolumn : table'.column b.column = table.column b.column) :
    e'.evaluateColumn table' b = e.evaluateColumn table b := by
  have hrules : ∀ cells, e'.evaluateRule cells b.valueType.isSome
      = e.evaluateRule cells b.valueType.isSome := fun cells => funext fun _ =>
    he.evaluateRule_congr
  simp only [evaluateColumn, he.cells_congr hcolumn, hrules]

theorem fulfils_congr (he : e.ReadsAlike e') {check : Check} :
    e'.fulfils rule check cells = e.fulfils rule check cells := by
  funext cell
  rw [fulfils, fulfils, he.settings, he.catalog]

theorem failsAt_congr (he : e.ReadsAlike e') {check : Check} :
    e'.failsAt check cells = e.failsAt check cells := by
  funext row
  rw [failsAt, failsAt, he.settings, he.catalog]

variable {clause : Clause}

theorem antecedentRows_congr (he : e.ReadsAlike e')
    (hcolumn : table'.column clause.column = table.column clause.column)
    (htype : e'.clauseType clause = e.clauseType clause) :
    e'.antecedentRows table' clause = e.antecedentRows table clause := by
  simp only [antecedentRows, matchedRows, htype, he.cells_congr hcolumn, he.check_congr,
    he.fulfils_congr]

theorem consequentFailures_congr (he : e.ReadsAlike e')
    (hcolumn : table'.column clause.column = table.column clause.column)
    (htype : e'.clauseType clause = e.clauseType clause) (rows : List Nat) :
    e'.consequentFailures table' clause rows = e.consequentFailures table clause rows := by
  simp only [consequentFailures, htype, he.cells_congr hcolumn, he.check_congr, he.failsAt_congr]

/-- **The outcome of a conditional rule** whose columns are in the data depends on the settings, the
catalog, and the types and cells of the columns of its clauses. -/
theorem evaluateConditional_congr (he : e.ReadsAlike e') {c : Conditional}
    (ht : ∀ clause ∈ c.clauses, table.AgreeOn table' clause.column ∧
      e'.ruleset.declaredType clause.column = e.ruleset.declaredType clause.column) :
    e'.evaluateConditional table' c = e.evaluateConditional table c := by
  obtain ⟨hif, hiftype⟩ := ht c.antecedent List.mem_cons_self
  obtain ⟨hthen, hthentype⟩ := ht c.consequent (List.mem_cons_of_mem _ List.mem_cons_self)
  have hclause : ∀ clause : Clause,
      e'.ruleset.declaredType clause.column = e.ruleset.declaredType clause.column →
        e'.clauseType clause = e.clauseType clause := fun clause =>
    congrArg clause.rule.constraint.declaredType?.or
  have hpresent := absentColumns_eq_nil hif.hasColumn hthen.hasColumn
  have hpresent' := absentColumns_eq_nil hif.hasColumn' hthen.hasColumn'
  simp only [evaluateConditional, hpresent, hpresent',
    he.antecedentRows_congr hif.column_eq (hclause _ hiftype),
    he.consequentFailures_congr hthen.column_eq (hclause _ hthentype)]

end ReadsAlike

/-! ### Reports -/

/-- **Columns do not interfere.** Take two rulesets with the same settings and the same catalog, and
a table for each.

* If both rulesets have the same block for a column and the tables agree on it, evaluating the block
  comes to the same on both, and wherever both give a report, both reports hold the same outcome for
  the column.
* If both rulesets have a conditional rule in common, and for the column of each of its clauses the
  tables agree and the rulesets declare the same type, evaluating the rule comes to the same on
  both, and both reports hold the same outcome for it. -/
theorem evaluate_agreeOn (e e' : Engine) (table table' : Table) (he : e.ReadsAlike e') :
    (∀ column b, e.ruleset.block? column = some b → e'.ruleset.block? column = some b →
      table.AgreeOn table' column →
        e'.evaluateColumn table' b = e.evaluateColumn table b ∧
        ∀ report report', e.evaluate table = .ok report → e'.evaluate table' = .ok report' →
          ∃ o, report.column? column = some o ∧ report'.column? column = some o) ∧
    ∀ c ∈ e.ruleset.conditionals, c ∈ e'.ruleset.conditionals →
      (∀ clause ∈ c.clauses, table.AgreeOn table' clause.column ∧
        e'.ruleset.declaredType clause.column = e.ruleset.declaredType clause.column) →
        e'.evaluateConditional table' c = e.evaluateConditional table c ∧
        ∀ report report', e.evaluate table = .ok report → e'.evaluate table' = .ok report' →
          ∃ o, report.conditional? c.name = some o ∧ report'.conditional? c.name = some o := by
  constructor
  · intro column b hb hb' hagree
    obtain ⟨hmem, rfl⟩ := Ruleset.mem_of_block? hb
    obtain ⟨hmem', -⟩ := Ruleset.mem_of_block? hb'
    have hcongr := he.evaluateColumn_congr hagree.column_eq
    refine ⟨hcongr, fun report report' hreport hreport' => ?_⟩
    obtain ⟨o, ho, hrun⟩ := exists_column? hreport hmem hagree.hasColumn
    obtain ⟨o', ho', hrun'⟩ := exists_column? hreport' hmem'
      hagree.hasColumn'
    rw [hcongr, hrun] at hrun'
    obtain rfl := Except.ok.inj hrun'
    exact ⟨o, ho, ho'⟩
  · intro c hc hc' hagree
    have hcongr := he.evaluateConditional_congr hagree
    refine ⟨hcongr, fun report report' hreport hreport' => ?_⟩
    obtain ⟨o, ho, hrun⟩ := exists_conditional? hreport hc
    obtain ⟨o', ho', hrun'⟩ := exists_conditional? hreport' hc'
    rw [hcongr, hrun] at hrun'
    obtain rfl := Except.ok.inj hrun'
    exact ⟨o, ho, ho'⟩

/-! #### A register of members

Members are of age, and those of age have a name. A second ruleset has these rules as well, among
others: for the town of a member, on the order of the columns, and on members without a town. Its
table has one more column and names the columns in another order. -/

/-- The block of rules on ages. -/
def ageBlock : Block :=
  ⟨"age", [⟨.hasType .integer, some 2⟩, ⟨.compare .greater (.integer 17), some 3⟩]⟩

/-- Members of age have a name. -/
def namedRule : Conditional :=
  ⟨"named", ⟨"age", ⟨.compare .greater (.integer 17), some 5⟩⟩, ⟨"name", ⟨.required, some 6⟩⟩,
    some 4⟩

/-- An engine with these rules. -/
def memberEngine : Engine :=
  ⟨⟨.standard, ⟨["name", "age"], false, false, false⟩, [ageBlock], [namedRule], none,
    by decide, by decide⟩, .standard, 1⟩

/-- An engine with more rules. -/
def townEngine : Engine :=
  ⟨⟨.standard, ⟨["name", "age", "town"], true, true, true⟩,
    [⟨"town", [⟨.unique, some 2⟩]⟩, ageBlock],
    [⟨"settled", ⟨"name", ⟨.null, some 8⟩⟩, ⟨"town", ⟨.required, some 9⟩⟩, some 7⟩, namedRule],
    none, by decide, by decide⟩, .standard, 4⟩

/-- Three members. -/
def memberTable : Table :=
  ⟨["name", "age"], [[("name", some "Ada"), ("age", some "36")], [("age", some "12")],
    [("name", some " "), ("age", some "40")]], none⟩

/-- The same members with their towns. -/
def townTable : Table :=
  ⟨["town", "age", "name"],
    [[("town", some "York"), ("age", some "36"), ("name", some "Ada")],
      [("town", some "York"), ("age", some "12")], [("age", some "40"), ("name", some " ")]],
    some "towns"⟩

/-- Both reports say the same of the ages and of the members of age. -/
theorem townTable_agreeOn :
    ∃ report report', memberEngine.evaluate memberTable = .ok report ∧
      townEngine.evaluate townTable = .ok report' ∧
      (∃ o, report.column? "age" = some o ∧ report'.column? "age" = some o) ∧
      (∃ o, report.conditional? "named" = some o ∧ report'.conditional? "named" = some o ∧
        o.matchedRows = [1, 3] ∧ o.failedRows = [3]) ∧
      report.columns.length = 1 ∧ report'.columns.length = 2 := by
  have hage : memberTable.AgreeOn townTable "age" :=
    Table.agreeOn_of_column_eq (by decide) (by decide) (by decide)
  have hname : memberTable.AgreeOn townTable "name" :=
    Table.agreeOn_of_column_eq (by decide) (by decide) (by decide)
  have hrun : (memberEngine.evaluate memberTable).toOption.any (fun r =>
      (r.conditional? "named").any (fun o => o.matchedRows == [1, 3] && o.failedRows == [3]) &&
        r.columns.length == 1) = true := by
    decide +kernel
  have hrun' : (townEngine.evaluate townTable).toOption.any
      (fun r => r.columns.length == 2) = true := by
    decide +kernel
  obtain ⟨report, hreport, hrows⟩ := any_toOption_iff.mp hrun
  obtain ⟨report', hreport', hlength'⟩ := any_toOption_iff.mp hrun'
  obtain ⟨hcolumns, hconditionals⟩ := evaluate_agreeOn memberEngine townEngine memberTable townTable
    ⟨rfl, rfl⟩
  obtain ⟨-, hcolumn⟩ := hcolumns "age" ageBlock rfl rfl hage
  obtain ⟨-, hconditional⟩ := hconditionals namedRule List.mem_cons_self
    (List.mem_cons_of_mem _ List.mem_cons_self)
    (List.forall_mem_cons.mpr ⟨⟨hage, rfl⟩, List.forall_mem_singleton.mpr ⟨hname, rfl⟩⟩)
  obtain ⟨o, ho, ho'⟩ := hconditional report report' hreport hreport'
  obtain ⟨hrows, hlength⟩ := Bool.and_eq_true_iff.mp hrows
  change report.conditional? "named" = some o at ho
  rw [ho, Option.any_some, Bool.and_eq_true_iff] at hrows
  exact ⟨report, report', hreport, hreport', hcolumn report report' hreport hreport',
    ⟨o, ho, ho', beq_iff_eq.mp hrows.1, beq_iff_eq.mp hrows.2⟩, beq_iff_eq.mp hlength,
    beq_iff_eq.mp hlength'⟩

end Engine

end TableRules
