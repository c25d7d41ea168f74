import TableRules.Proofs.Evaluation.ReadCells
import TableRules.Proofs.Evaluation.ReportedOutcomes

/-!
# One notion of null

A validation asks in four places whether a cell is null: the report counts the missing values of
each column of the header from the raw cells, reading a column marks its null cells, coercion gives
them the null value, and the rules about absent values look at the mark. All four agree:

* coercion to any type gives the null value at the null cells and nowhere else
  (`coerce_eq_null_iff`), also where the text of a null value is one that the type could read;
* the rules about absent values always have an outcome, and it counts the null cells
  (`exists_countsNulls`);
* the cells that are marked are as many as the raw cells that are null (`length_filter_isNull`).

**Main result** (`Engine.evaluate_missingValues`): in a report on a table, all the counts of the
missing values of a column are the same number.
-/

namespace TableRules

/-! ### Coercion -/

/-- Coercion gives the null value exactly for null cells. -/
theorem coerce_eq_null_iff {raw : Option String} {t : ValueType} {s : Settings} {c : Catalog} :
    coerce raw t s c = .ok (.value (TypedValue.null t)) ↔ isNull raw s = true :=
  ⟨fun h => (isNull_of_coerce h).mp rfl, fun hnull => coerce_eq_value_iff.mpr (.inl ⟨hnull, rfl⟩)⟩

/-- A null cell fits every type. -/
theorem coerce_ne_misfit {raw : Option String} {t : ValueType} {s : Settings} {c : Catalog}
    (h : isNull raw s = true) (m : Misfit) : coerce raw t s c ≠ .ok (.misfit m) := by
  rw [coerce_eq_null_iff.mpr h]
  exact nofun

/-! ### Counting -/

/-- The outcome of a rule about absent values tells the number of null cells: they fail a rule that
asks for a value, and they pass the rule that asks for none. -/
structure Rule.CountsNulls (n : Nat) (rule : Rule) (o : RuleOutcome) : Prop where
  required : rule.constraint = .required → o.failedRows.length = n
  notNull : rule.constraint = .notNull → o.failedRows.length = n
  null : rule.constraint = .null → o.passedCount = n

/-- A rule is about absent values. -/
def Rule.AsksNull (rule : Rule) : Prop :=
  rule.constraint = .required ∨ rule.constraint = .notNull ∨ rule.constraint = .null

namespace Engine

variable {e : Engine} {table : Table} {column : String} {cells : List Cell}

/-- The cells with a mark are as many as the raw cells that they show with it. -/
theorem length_filter_cells {type : Option ValueType} {p : Cell → Bool} {q : Option String → Bool}
    (h : e.cells table column type = .ok cells)
    (hmark : ∀ raw cell, Cell.Shows (.ofTable e table column type) raw cell →
      (p cell = true ↔ q raw = true)) :
    (cells.filter p).length = ((table.column column).filter q).length := by
  obtain ⟨hlen, hshows⟩ := Cell.shows_getElem h
  have hmarks : cells.map p = (table.column column).map q := by
    refine List.ext_getElem (by simpa using hlen) fun i hi hi' => ?_
    rw [List.length_map] at hi hi'
    rw [List.getElem_map, List.getElem_map, Bool.eq_iff_iff]
    exact hmark _ _ (hshows i hi hi').2
  have hcount := congrArg (List.countP id) hmarks
  rwa [List.countP_map, List.countP_map, List.countP_eq_length_filter,
    List.countP_eq_length_filter] at hcount

/-- The null cells of a column are as many as its null raw cells. -/
theorem length_filter_isNull {type : Option ValueType}
    (h : e.cells table column type = .ok cells) :
    (cells.filter Cell.isNull).length
      = ((table.column column).filter fun raw => isNull raw e.settings).length :=
  length_filter_cells h fun _ _ hshows => hshows.isNull_iff.trans RawColumn.isNull_iff.symm

/-- A rule whose check decides every cell has an outcome, and it fails the rows that the check
decides against. -/
theorem exists_outcome_of_decides {typed : Bool} {rule : Rule} {check : Check} {phrase : String}
    {p : Cell → Bool} (hcheck : e.check rule = .ok check) (hphrase : rule.describe? = some phrase)
    (hneeds : rule.kind.family.needsType = false)
    (hp : ∀ cell, ∃ v, check.violation? e.settings e.catalog cells cell = .ok v ∧
      v.isSome = p cell) :
    ∃ o, e.evaluateRule cells typed rule = .ok o ∧ o.failedRows = (cells.filter p).map Cell.row ∧
      o.passedCount + o.failedRows.length = cells.length := by
  obtain ⟨found, hfound⟩ : ∃ found, e.violations check cells = .ok found :=
    Result.exists_mapM_eq_ok fun cell _ => (hp cell).imp fun _ => And.left
  have hfails : e.fails check cells = p := funext fun cell => by
    obtain ⟨v, hv, hsome⟩ := hp cell
    rw [fails_eq_isSome hv, hsome]
  refine ⟨ruleOutcome rule phrase cells found,
    evaluateRule_checks hcheck hphrase (fun h => by simp [hneeds] at h) hfound, ?_,
    ruleOutcome_passed_add_failed rule phrase hfound⟩
  rw [ruleOutcome_failedRows rule phrase hfound, hfails]

/-- A rule that asks for a value fails the rows of the null cells. -/
theorem exists_countsNulls_of_present {typed : Bool} {rule : Rule} {phrase : String}
    (hcheck : e.check rule = .ok .present) (hphrase : rule.describe? = some phrase)
    (hneeds : rule.kind.family.needsType = false) (hrule : rule.constraint ≠ .null) :
    ∃ o, e.evaluateRule cells typed rule = .ok o ∧
      rule.CountsNulls (cells.filter Cell.isNull).length o := by
  have hdecides : ∀ cell, ∃ v,
      Check.present.violation? e.settings e.catalog cells cell = .ok v ∧
        v.isSome = cell.isNull := by
    intro cell
    unfold Check.violation?
    cases hnull : cell.isNull <;> exact ⟨_, rfl, rfl⟩
  obtain ⟨o, ho, hrows, -⟩ := exists_outcome_of_decides hcheck hphrase hneeds hdecides
  have hcount : o.failedRows.length = (cells.filter Cell.isNull).length := by
    rw [hrows, List.length_map]
  exact ⟨o, ho, fun _ => hcount, fun _ => hcount, fun h => absurd h hrule⟩

/-- The rule that asks for no value passes the rows of the null cells. -/
theorem exists_countsNulls_of_null (typed : Bool) (line : Option Int) :
    ∃ o, e.evaluateRule cells typed ⟨.null, line⟩ = .ok o ∧
      Rule.CountsNulls (cells.filter Cell.isNull).length ⟨.null, line⟩ o := by
  have hdecides : ∀ cell, ∃ v,
      Check.null.violation? e.settings e.catalog cells cell = .ok v ∧
        v.isSome = !cell.isNull := by
    intro cell
    unfold Check.violation?
    cases hnull : cell.isNull <;> exact ⟨_, rfl, rfl⟩
  obtain ⟨o, ho, hrows, hall⟩ : ∃ o, e.evaluateRule cells typed ⟨.null, line⟩ = .ok o ∧
      o.failedRows = (cells.filter fun cell => !cell.isNull).map Cell.row ∧
      o.passedCount + o.failedRows.length = cells.length :=
    exists_outcome_of_decides rfl rfl rfl hdecides
  have hsplit := List.length_eq_length_filter_add Cell.isNull (l := cells)
  rw [hrows, List.length_map] at hall
  exact ⟨o, ho, nofun, nofun, fun _ => by omega⟩

/-- A rule about absent values has an outcome, and it counts the null cells. -/
theorem exists_countsNulls {typed : Bool} {rule : Rule} (h : rule.AsksNull) :
    ∃ o, e.evaluateRule cells typed rule = .ok o ∧
      rule.CountsNulls (cells.filter Cell.isNull).length o := by
  obtain ⟨constraint, line⟩ := rule
  obtain rfl | rfl | rfl : constraint = .required ∨ constraint = .notNull ∨ constraint = .null := h
  · exact exists_countsNulls_of_present rfl rfl rfl nofun
  · exact exists_countsNulls_of_present rfl rfl rfl nofun
  · exact exists_countsNulls_of_null typed line

/-- Whatever outcome a rule has, it counts the null cells if the rule is about absent values. -/
theorem countsNulls_of_evaluateRule {typed : Bool} {rule : Rule} {o : RuleOutcome}
    (h : e.evaluateRule cells typed rule = .ok o) :
    rule.CountsNulls (cells.filter Cell.isNull).length o := by
  have hcounts : rule.AsksNull → rule.CountsNulls (cells.filter Cell.isNull).length o := by
    intro hasks
    obtain ⟨o', ho', hcounts⟩ : ∃ o', e.evaluateRule cells typed rule = .ok o' ∧
        rule.CountsNulls (cells.filter Cell.isNull).length o' := exists_countsNulls hasks
    exact Except.ok.inj (h.symm.trans ho') ▸ hcounts
  exact ⟨fun hc => (hcounts (.inl hc)).required hc, fun hc => (hcounts (.inr (.inl hc))).notNull hc,
    fun hc => (hcounts (.inr (.inr hc))).null hc⟩

/-- The number that a report gives for a column is that of its null raw cells. -/
theorem mem_missingValues_iff (hcolumn : column ∈ table.header) {k : Nat} :
    (column, k) ∈ e.missingValues table ↔
      k = ((table.column column).filter fun raw => isNull raw e.settings).length := by
  rw [missingValues, List.mem_map]
  constructor
  · rintro ⟨c, -, hc⟩
    obtain ⟨rfl, rfl⟩ := Prod.mk.inj hc
    rfl
  · rintro rfl
    exact ⟨column, Text.mem_distinct_iff.mpr hcolumn, rfl⟩

/-- **Null is one notion everywhere.** Take a table with a report, and a column of its header. A raw
cell is null exactly if coercion to any type gives the null value, a typed value is null only where
the raw cell is, and a null cell is a misfit of no type. There is one number that the report gives
for the missing values of the column, that every evaluation of a block for the column gives, that
counts the rows that fail a rule which asks for a value, and that counts the rows that pass the rule
for null; and these rules have an outcome under every type with which the cells of the column can be
read. -/
theorem evaluate_missingValues (e : Engine) (table : Table) (report : Report) (column : String)
    (h : e.evaluate table = .ok report) (hcolumn : column ∈ table.header) :
    (∀ (raw : Option String) (t : ValueType),
      (isNull raw e.settings = true ↔
        coerce raw t e.settings e.catalog = .ok (.value (TypedValue.null t))) ∧
      (∀ v, coerce raw t e.settings e.catalog = .ok (.value v) →
        (v.isNull = true ↔ isNull raw e.settings = true)) ∧
      ∀ m, isNull raw e.settings = true → coerce raw t e.settings e.catalog ≠ .ok (.misfit m)) ∧
    ∃ n : Nat,
      (∀ k, (column, k) ∈ report.missingValues ↔ k = n) ∧
      (∀ b ∈ e.ruleset.blocks, b.column = column →
        ∃ o, report.column? column = some o ∧ e.evaluateColumn table b = .ok o) ∧
      (∀ (b : Block) (o : ColumnOutcome), b.column = column → e.evaluateColumn table b = .ok o →
        o.missingValues = n ∧ List.Forall₂ (Rule.CountsNulls n) b.rules o.rules) ∧
      ∀ (type : Option ValueType) (cells : List Cell), e.cells table column type = .ok cells →
        ∀ rule : Rule, rule.AsksNull →
          ∃ o, e.evaluateRule cells type.isSome rule = .ok o ∧ rule.CountsNulls n o := by
  refine ⟨fun raw t => ⟨coerce_eq_null_iff.symm, fun v => isNull_of_coerce,
    fun m hnull => coerce_ne_misfit hnull m⟩,
    ((table.column column).filter fun raw => isNull raw e.settings).length,
    fun k => ?_, ?_, ?_, ?_⟩
  · rw [(outcomes_of_evaluate h).2.2.1]
    exact mem_missingValues_iff hcolumn
  · rintro b hb rfl
    exact exists_column? h hb (List.contains_iff_mem.mpr hcolumn)
  · rintro b o rfl ho
    obtain ⟨cells, outcomes, hcells, houtcomes, rfl⟩ := evaluateColumn_eq_ok_iff.mp ho
    rw [← length_filter_isNull hcells]
    exact ⟨rfl, (Result.mapM_eq_ok_iff.mp houtcomes).imp fun _ _ => countsNulls_of_evaluateRule⟩
  · intro type cells hcells rule hasks
    rw [← length_filter_isNull hcells]
    exact exists_countsNulls hasks

/-! #### Readings of a meter

A dash and the number `0` stand for no value, so the second is null although it is an integer. One
reading is blank, one has white space around its null value, one is absent and one is no integer. -/

/-- A block of rules about absent readings. -/
def meterBlock : Block :=
  ⟨"reading", [⟨.hasType .integer, some 2⟩, ⟨.required, some 3⟩, ⟨.null, some 4⟩,
    ⟨.notNull, some 5⟩]⟩

/-- An engine with that block alone. -/
def meterEngine : Engine :=
  ⟨⟨{ Settings.standard with nullValues := ["-", "0"] }, ⟨["day", "reading"], false, false, false⟩,
    [meterBlock], [], none, by decide, List.nodup_nil⟩, .standard, 1⟩

/-- The readings of six days. -/
def meterTable : Table :=
  ⟨["day", "reading"], [[("day", some "1"), ("reading", some "12")],
    [("day", some "2"), ("reading", some " - ")], [("day", some "3"), ("reading", some "0")],
    [("day", some "4"), ("reading", some "  ")], [("day", some "5")],
    [("day", some "6"), ("reading", some "x")]], none⟩

/-- Four readings are missing on every count. -/
theorem meterTable_missingValues :
    "reading" ∈ meterTable.header ∧
      coerce (some "0") .integer meterEngine.settings meterEngine.catalog
        = .ok (.value (TypedValue.null .integer)) ∧
      ∃ report o, meterEngine.evaluate meterTable = .ok report ∧
        (∀ k, ("reading", k) ∈ report.missingValues ↔ k = 4) ∧
        report.column? "reading" = some o ∧ o.missingValues = 4 ∧
        List.Forall₂ (Rule.CountsNulls 4) meterBlock.rules o.rules := by
  have hcolumn : "reading" ∈ meterTable.header := by decide
  have hrun : (meterEngine.evaluate meterTable).toOption.any (fun report =>
      report.missingValues == [("day", 0), ("reading", 4)]) = true := by
    decide +kernel
  obtain ⟨report, hreport, hmissing⟩ := Result.any_toOption_iff.mp hrun
  obtain ⟨hcoerce, n, hcounts, hfound, hblock, -⟩ :=
    evaluate_missingValues meterEngine meterTable report "reading" hreport hcolumn
  obtain rfl : 4 = n := (hcounts 4).mp (by rw [beq_iff_eq.mp hmissing]; decide)
  obtain ⟨o, hcolumn?, ho⟩ := hfound meterBlock (List.mem_singleton.mpr rfl) rfl
  obtain ⟨hmissing, hrules⟩ := hblock meterBlock o rfl ho
  exact ⟨hcolumn, (hcoerce _ _).1.mp (by decide), report, o, hreport, hcounts,
    hcolumn?, hmissing, hrules⟩

end Engine

end TableRules
