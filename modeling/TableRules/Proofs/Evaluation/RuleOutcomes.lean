import TableRules.Proofs.Evaluation.Violations

/-!
# Which rows a rule fails

`Engine.evaluateRule` goes through the cells of a column and collects the rows that violate the
check of a rule; a rule that needs a type where none is declared fails as a whole. Its inversion
`evaluateRule_eq_ok` says everything that a given outcome tells about the evaluation, and
`Engine.judges_of_evaluateRule` what the outcome says about the raw cells: the failed rows are
exactly the rows whose raw cell does not satisfy the constraint, in increasing order, each with a
message, and all other rows passed (`RawColumn.Judges`).

* `Engine.evaluateColumn_judges`: a column outcome judges every rule of its block, in order.
-/

namespace TableRules

/-- An outcome judges a rule on a column: it names the rule, lists in strictly increasing order
exactly the rows whose cell does not satisfy the constraint, has one message for each, and counts
all other rows as passed. -/
structure RawColumn.Judges (col : RawColumn) (rule : Rule) (o : RuleOutcome) : Prop where
  rule_eq : rule.describe? = some o.rule
  kind_eq : o.kind = rule.kind.name
  line_eq : o.line = rule.line
  increasing : o.failedRows.Pairwise (· < ·)
  mem_failedRows_iff (row : Nat) :
    row ∈ o.failedRows ↔
      ∃ raw, col.HasCell row raw ∧ ¬ col.Satisfies row raw rule.constraint
  length_messages : o.messages.length = o.failedRows.length
  passed_add_failed : o.passedCount + o.failedRows.length = col.cells.length

/-- The families that need a type are those of the constraints that do. -/
theorem Rule.needsType_iff {r : Rule} :
    r.kind.family.needsType = true ↔ r.constraint.NeedsType := by
  obtain ⟨c, line⟩ := r
  change c.kind.family.needsType = true ↔ c.NeedsType
  cases c with
  | compare op n => exact iff_of_true (by cases op <;> rfl) trivial
  | digits kind n => exact iff_of_true (by cases kind <;> rfl) trivial
  | member allowed items =>
    exact iff_of_false (by cases allowed <;> exact Bool.false_ne_true) not_false
  | text equal w => exact iff_of_false (by cases equal <;> exact Bool.false_ne_true) not_false
  | length bound n => exact iff_of_false (by cases bound <;> exact Bool.false_ne_true) not_false
  | part condition w =>
    exact iff_of_false (by cases condition <;> exact Bool.false_ne_true) not_false
  | _ => exact iff_of_false Bool.false_ne_true not_false

namespace Engine

variable {e : Engine} {table : Table}

/-! ### One rule -/

/-- Whether a check finds a violation in a cell of a column. -/
def fails (e : Engine) (check : Check) (column : List Cell) (cell : Cell) : Bool :=
  match check.violation? e.settings e.catalog column cell with
  | .ok (some _) => true
  | _ => false

theorem fails_eq_isSome {check : Check} {column : List Cell} {cell : Cell} {v : Option Violation}
    (h : check.violation? e.settings e.catalog column cell = .ok v) :
    e.fails check column cell = v.isSome := by
  cases v <;> simp [fails, h]

/-- What the evaluation of a rule did when it gave an outcome. -/
theorem evaluateRule_eq_ok {cells : List Cell} {typed : Bool} {rule : Rule} {o : RuleOutcome}
    (h : e.evaluateRule cells typed rule = .ok o) :
    ∃ check phrase, e.check rule = .ok check ∧ rule.describe? = some phrase ∧
      ((rule.kind.family.needsType = true ∧ typed = false ∧ o = untypedOutcome rule phrase cells) ∨
        (¬ (rule.kind.family.needsType = true ∧ typed = false) ∧
          ∃ found, e.violations check cells = .ok found ∧
            o = ruleOutcome rule phrase cells found)) := by
  obtain ⟨check, hcheck, h⟩ := Result.bind_eq_ok_iff.mp h
  split at h
  · simp at h
  · rename_i phrase hphrase
    refine ⟨check, phrase, hcheck, hphrase, ?_⟩
    split at h
    · rename_i hskip
      obtain ⟨hneeds, htyped⟩ := Bool.and_eq_true_iff.mp hskip
      exact .inl ⟨hneeds, by simpa using htyped, (Except.ok.inj h).symm⟩
    · rename_i hskip
      obtain ⟨found, hfound, h⟩ := Result.bind_eq_ok_iff.mp h
      refine .inr ⟨?_, found, Result.ofNumber_eq_ok_iff.mp hfound, (Except.ok.inj h).symm⟩
      rintro ⟨hneeds, htyped⟩
      exact hskip (by simp [hneeds, htyped])

/-- A rule that needs a type fails as a whole where none is declared. -/
theorem evaluateRule_untyped {cells : List Cell} {rule : Rule} {check : Check} {phrase : String}
    (hcheck : e.check rule = .ok check) (hphrase : rule.describe? = some phrase)
    (hneeds : rule.kind.family.needsType = true) :
    e.evaluateRule cells false rule = .ok (untypedOutcome rule phrase cells) := by
  refine Result.bind_eq_ok_iff.mpr ⟨check, hcheck, ?_⟩
  simp only [hphrase, hneeds]
  rfl

/-- Any other rule comes to what its check finds in the cells. -/
theorem evaluateRule_checks {cells : List Cell} {typed : Bool} {rule : Rule} {check : Check}
    {phrase : String} {found : List (Option Violation)} (hcheck : e.check rule = .ok check)
    (hphrase : rule.describe? = some phrase)
    (hskip : ¬ (rule.kind.family.needsType = true ∧ typed = false))
    (hfound : e.violations check cells = .ok found) :
    e.evaluateRule cells typed rule = .ok (ruleOutcome rule phrase cells found) := by
  refine Result.bind_eq_ok_iff.mpr ⟨check, hcheck, ?_⟩
  simp only [hphrase]
  rw [if_neg (by simpa using hskip)]
  exact Result.bind_eq_ok_iff.mpr ⟨found, Result.ofNumber_eq_ok_iff.mpr hfound, rfl⟩

/-- Where a whole column was checked, every cell of it was. -/
theorem violation?_eq_ok_of_mem {check : Check} {cells : List Cell}
    {found : List (Option Violation)} (h : e.violations check cells = .ok found) {cell : Cell}
    (hcell : cell ∈ cells) :
    ∃ v, check.violation? e.settings e.catalog cells cell = .ok v := by
  obtain ⟨v, -, hv⟩ := Result.exists_mem_of_forall₂ (Result.mapM_eq_ok_iff.mp h) hcell
  exact ⟨v, hv⟩

/-- The failed rows are those of the cells in which the check finds a violation. -/
theorem failures_rows {check : Check} {column cells : List Cell}
    {found : List (Option Violation)}
    (h : List.Forall₂
      (fun cell v => check.violation? e.settings e.catalog column cell = .ok v) cells found) :
    (failures cells found).map (·.1) = (cells.filter (e.fails check column)).map Cell.row := by
  induction h with
  | nil => rfl
  | @cons cell v cells found hv _ ih =>
    have hfails := fails_eq_isSome hv
    simp only [failures] at ih ⊢
    cases v with
    | none => simpa [hfails] using ih
    | some v => simpa [hfails] using ih

theorem ruleOutcome_failedRows (rule : Rule) (phrase : String) {check : Check}
    {cells : List Cell} {found : List (Option Violation)}
    (h : e.violations check cells = .ok found) :
    (ruleOutcome rule phrase cells found).failedRows
      = (cells.filter (e.fails check cells)).map Cell.row :=
  failures_rows (Result.mapM_eq_ok_iff.mp h)

theorem ruleOutcome_passed_add_failed (rule : Rule) (phrase : String) {check : Check}
    {cells : List Cell} {found : List (Option Violation)}
    (h : e.violations check cells = .ok found) :
    (ruleOutcome rule phrase cells found).passedCount
      + (ruleOutcome rule phrase cells found).failedRows.length = cells.length := by
  have hle : (ruleOutcome rule phrase cells found).failedRows.length ≤ cells.length := by
    rw [ruleOutcome_failedRows rule phrase h, List.length_map]
    exact List.length_filter_le _ _
  simp only [ruleOutcome, List.length_map] at hle ⊢
  omega

section Judging

variable {column : String} {type : Option ValueType} {rule : Rule} {phrase : String}
  {cells : List Cell}

/-- Where a needed type is not declared, every row fails, and no cell satisfies the constraint. -/
private theorem judges_untypedOutcome
    (hcol : Cell.ShowsColumn (.ofTable e table column type) cells)
    (hphrase : rule.describe? = some phrase) (hneeds : rule.constraint.NeedsType)
    (hnone : type = none) :
    (RawColumn.ofTable e table column type).Judges rule (untypedOutcome rule phrase cells) := by
  refine ⟨hphrase, rfl, rfl, List.pairwise_map.mpr hcol.increasing, fun row => ?_,
    by simp [untypedOutcome], by simpa [untypedOutcome] using hcol.length_eq⟩
  -- every cell lacks the type that the constraint asks for, so the rows are those with a cell
  simp only [untypedOutcome, List.mem_map]
  constructor
  · rintro ⟨cell, hcell, rfl⟩
    obtain ⟨raw, hraw, -⟩ := hcol.shows hcell
    exact ⟨raw, hraw, fun hsat => hsat.1 ⟨hneeds, hnone⟩⟩
  · rintro ⟨raw, hraw, -⟩
    obtain ⟨cell, hcell, hrow, -⟩ := hcol.exists_cell hraw
    exact ⟨cell, hcell, hrow⟩

/-- In every other case a row fails exactly when the check finds a violation in its cell. -/
private theorem judges_ruleOutcome
    (hcol : Cell.ShowsColumn (.ofTable e table column type) cells)
    (hphrase : rule.describe? = some phrase) {check : Check} (hcheck : e.check rule = .ok check)
    (htype : ¬ (rule.constraint.NeedsType ∧ type = none)) {found : List (Option Violation)}
    (hfound : e.violations check cells = .ok found) :
    (RawColumn.ofTable e table column type).Judges rule (ruleOutcome rule phrase cells found) := by
  have hrows := ruleOutcome_failedRows rule phrase hfound
  have hfails : ∀ {cell raw}, cell ∈ cells → cell.Shows (.ofTable e table column type) raw →
      (e.fails check cells cell = true ↔ ¬ (RawColumn.ofTable e table column type).Satisfies
        cell.row raw rule.constraint) := fun {cell raw} hcell hs => by
    obtain ⟨v, hv⟩ := violation?_eq_ok_of_mem hfound hcell
    rw [← Check.violation?_eq_none_iff hcol hcell hs hcheck htype hv, fails_eq_isSome hv]
    cases v <;> simp
  refine ⟨hphrase, rfl, rfl, ?_, fun row => ?_, by simp [ruleOutcome],
    (ruleOutcome_passed_add_failed rule phrase hfound).trans hcol.length_eq⟩
  · rw [hrows]
    exact List.pairwise_map.mpr (hcol.increasing.sublist List.filter_sublist)
  · rw [hrows, List.mem_map]
    constructor
    · rintro ⟨cell, hcell, rfl⟩
      obtain ⟨hmem, hf⟩ := List.mem_filter.mp hcell
      obtain ⟨raw, hraw, hs⟩ := hcol.shows hmem
      exact ⟨raw, hraw, (hfails hmem hs).mp hf⟩
    · rintro ⟨raw, hraw, hnot⟩
      obtain ⟨cell, hmem, rfl, hs⟩ := hcol.exists_cell hraw
      exact ⟨cell, List.mem_filter.mpr ⟨hmem, (hfails hmem hs).mpr hnot⟩, rfl⟩

/-- The outcome of a rule judges the rule on the column that its cells were read from. -/
theorem judges_of_evaluateRule (hcells : e.cells table column type = .ok cells)
    {o : RuleOutcome} (h : e.evaluateRule cells type.isSome rule = .ok o) :
    (RawColumn.ofTable e table column type).Judges rule o := by
  have hcol := Cell.showsColumn_of_cells hcells
  obtain ⟨check, phrase, hcheck, hphrase, hcase⟩ := evaluateRule_eq_ok h
  rcases hcase with ⟨hneeds, htyped, rfl⟩ | ⟨hskip, found, hfound, rfl⟩
  · exact judges_untypedOutcome hcol hphrase (Rule.needsType_iff.mp hneeds) (by simpa using htyped)
  · refine judges_ruleOutcome hcol hphrase hcheck (fun ⟨hneeds, hnone⟩ => ?_) hfound
    exact hskip ⟨Rule.needsType_iff.mpr hneeds, by simp [hnone]⟩

end Judging

/-! ### The rules of a block -/

/-- What the evaluation of a block did when it gave an outcome. -/
theorem evaluateColumn_eq_ok_iff {b : Block} {o : ColumnOutcome} :
    e.evaluateColumn table b = .ok o ↔
      ∃ cells outcomes, e.cells table b.column b.valueType = .ok cells ∧
        b.rules.mapM (e.evaluateRule cells b.valueType.isSome) = .ok outcomes ∧
        ⟨b.column, outcomes, (cells.filter Cell.isNull).length⟩ = o := by
  constructor
  · intro h
    obtain ⟨cells, hcells, h⟩ := Result.bind_eq_ok_iff.mp h
    obtain ⟨outcomes, houtcomes, h⟩ := Result.bind_eq_ok_iff.mp h
    exact ⟨cells, outcomes, Result.ofNumber_eq_ok_iff.mp hcells, houtcomes, Except.ok.inj h⟩
  · rintro ⟨cells, outcomes, hcells, houtcomes, rfl⟩
    exact Result.bind_eq_ok_iff.mpr ⟨cells, Result.ofNumber_eq_ok_iff.mpr hcells,
      Result.bind_eq_ok_iff.mpr ⟨outcomes, houtcomes, rfl⟩⟩

/-- **The outcome of a column.** Whenever the rules of a block are evaluated, there is one outcome
for each rule, in the order of the block, and its failed rows are exactly the rows whose cell does
not satisfy the rule. -/
theorem evaluateColumn_judges {b : Block} {o : ColumnOutcome}
    (h : e.evaluateColumn table b = .ok o) :
    o.column = b.column ∧
      List.Forall₂ (RawColumn.ofTable e table b.column b.valueType).Judges b.rules o.rules := by
  obtain ⟨cells, hcells, h⟩ := Result.bind_eq_ok_iff.mp h
  obtain ⟨outcomes, houtcomes, h⟩ := Result.bind_eq_ok_iff.mp h
  obtain rfl := Except.ok.inj h
  exact ⟨rfl, (Result.mapM_eq_ok_iff.mp houtcomes).imp fun _ _ =>
    judges_of_evaluateRule (Result.ofNumber_eq_ok_iff.mp hcells)⟩

/-! #### A column of stock counts

A repeated count, an absent one and one that is no integer, under rules of four families. -/

/-- A block of rules on counts. -/
def stockBlock : Block :=
  ⟨"count", [⟨.hasType .integer, some 2⟩, ⟨.unique, some 3⟩,
    ⟨.compare .greater (.integer 1), some 4⟩,
    ⟨.member false [.number (.integer 3), .text (.text "x")], none⟩]⟩

/-- An engine with that block alone. -/
def stockEngine : Engine :=
  ⟨⟨.standard, ⟨["count"], false, false, false⟩, [stockBlock], [], none, by decide,
    List.nodup_nil⟩, .standard, 1⟩

/-- Five rows of counts. -/
def stockTable : Table :=
  ⟨["count"], [[("count", some "1")], [("count", some " 01")], [("count", none)],
    [("count", some "x")], [("count", some "3")]], none⟩

/-- What the block comes to on them. -/
def stockOutcome : ColumnOutcome :=
  { column := "count"
    rules := [
      ⟨"has value type integer", "type_is", some 2, 4, [4],
        ["'x': value does not match declared type (integer)"], none⟩,
      ⟨"is unique", "unique", some 3, 3, [1, 2],
        ["duplicate value '1' (2 occurrences)", "duplicate value '01' (2 occurrences)"], none⟩,
      ⟨"is > 1", "greater_than", some 4, 1, [1, 2, 3, 4],
        ["value 1 is not > 1", "value 01 is not > 1", "value is null",
          "'x': value does not match declared type"], none⟩,
      ⟨"is not in [3, \x22x\x22]", "not_in_set", none, 2, [3, 4, 5],
        ["value is null", "value 'x' is one of the excluded values",
          "value '3' is one of the excluded values"], none⟩]
    missingValues := 1 }

/-- The outcome of the stock counts judges every rule of their block. -/
theorem stockOutcome_judges :
    stockEngine.evaluateColumn stockTable stockBlock = .ok stockOutcome ∧
      stockOutcome.column = "count" ∧
        List.Forall₂ (RawColumn.ofTable stockEngine stockTable "count" (some .integer)).Judges
          stockBlock.rules stockOutcome.rules := by
  have h : stockEngine.evaluateColumn stockTable stockBlock = .ok stockOutcome := by
    decide +kernel
  exact ⟨h, evaluateColumn_judges h⟩

end Engine

end TableRules
