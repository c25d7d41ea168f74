import TableRules.Proofs.Evaluation.JoinedCells
import TableRules.Proofs.Evaluation.ReportedOutcomes
import TableRules.Proofs.Evaluation.RowOrder

/-!
# Evaluating a table in parts

A table may be evaluated part by part. What a rule, a block or a conditional rule comes to on the
whole table is put together from what it came to on two parts, the rows of the second part being
called by their numbers in the whole. The lemmas follow the evaluation from a rule to the report.

* Every rule but the one for uniqueness looks at one cell at a time, so its outcome on the whole is
  the join of those on the parts (`RuleOutcome.join`).
* A value may occur once in each part and still twice in the whole. So what a rule of uniqueness
  fails in a part it fails in the whole, and perhaps more.
* The first pass of a conditional rule finds no other rows in the whole than in the parts, and so
  the second pass meets no other cells. Without a rule of uniqueness both passes find the same rows.

**Main result** (`Engine.evaluate_join`): where both parts of a table have a report, the whole table
has one, and it is put together from the two (`Report.Joins`).
-/

namespace TableRules

open Result

/-! ### Joined outcomes -/

/-- The outcome of a rule on a whole table, given those on its parts, the first of which has `n`
rows. -/
def RuleOutcome.join (n : Nat) (o o' : RuleOutcome) : RuleOutcome :=
  { o with
    passedCount := o.passedCount + o'.passedCount
    failedRows := joinRows n o.failedRows o'.failedRows
    messages := o.messages ++ o'.messages }

/-- The outcome of a block on a whole table is put together from those on its parts. -/
structure ColumnOutcome.Joins (n : Nat) (b : Block) (o o' whole : ColumnOutcome) : Prop where
  rules (i : Nat) (rule : Rule) : b.rules[i]? = some rule →
    ∃ r r' w, o.rules[i]? = some r ∧ o'.rules[i]? = some r' ∧ whole.rules[i]? = some w ∧
      (rule.kind ≠ .unique → w = r.join n r') ∧
      (rule.kind = .unique → joinRows n r.failedRows r'.failedRows ⊆ w.failedRows)
  missingValues : whole.missingValues = o.missingValues + o'.missingValues

/-- The outcome of a conditional rule on a whole table is put together from those on its parts. -/
structure ConditionalOutcome.Joins (n : Nat) (o o' whole : ConditionalOutcome) : Prop where
  matchedRows : whole.matchedRows = joinRows n o.matchedRows o'.matchedRows
  failedRows : whole.failedRows = joinRows n o.failedRows o'.failedRows
  failed_iff : whole.status = .failed ↔ o.status = .failed ∨ o'.status = .failed
  vacuous_iff : whole.status = .vacuous ↔ o.status = .vacuous ∧ o'.status = .vacuous

/-- The report on a whole table is put together from those on its parts. -/
structure Report.Joins (r : Ruleset) (first second : Table) (o o' whole : Report) : Prop where
  rowCount : whole.rowCount = first.rowCount + second.rowCount
  columns (b : Block) : b ∈ r.blocks → first.hasColumn b.column = true →
    ∃ c c' w, o.column? b.column = some c ∧ o'.column? b.column = some c' ∧
      whole.column? b.column = some w ∧ ColumnOutcome.Joins first.rowCount b c c' w
  conditionals (c : Conditional) : c ∈ r.conditionals →
    (∀ clause ∈ c.clauses, clause.rule.kind ≠ .unique) →
      ∃ d d' w, o.conditional? c.name = some d ∧ o'.conditional? c.name = some d' ∧
        whole.conditional? c.name = some w ∧ ConditionalOutcome.Joins first.rowCount d d' w
  missingColumns : o'.missingValues.map (·.1) = o.missingValues.map (·.1)
  missingValues : whole.missingValues
    = o.missingValues.zipWith (fun p p' => (p.1, p.2 + p'.2)) o'.missingValues

namespace Engine

variable {e : Engine} {first second whole : Table} {n : Nat} {cells cells' : List Cell}
  {rule : Rule} {check : Check}

/-! ### Rules -/

/-- Only a rule of uniqueness has the check for it. -/
theorem ne_unique_of_check (hcheck : e.check rule = .ok check) (hkind : rule.kind ≠ .unique) :
    check ≠ .unique := by
  rintro rfl
  obtain ⟨c, line⟩ := rule
  cases c with
  | unique => exact hkind rfl
  | hasFormat w =>
    rw [Engine.check, Check.ofConstraint] at hcheck
    split at hcheck <;> cases hcheck
  | member allowed items =>
    obtain ⟨_, -, h⟩ := map_eq_ok_iff.mp hcheck
    cases h
  | compare op bound =>
    obtain ⟨_, -, h⟩ := map_eq_ok_iff.mp hcheck
    cases h
  | _ => cases hcheck

/-- What fails a check in a column fails it where its value occurs at least as often. -/
theorem fails_of_le {column column' : List Cell} {cell : Cell}
    (hle : Cell.occurrences column cell ≤ Cell.occurrences column' cell)
    (h : e.fails check column cell = true) : e.fails check column' cell = true := by
  unfold fails at h
  split at h
  · rename_i v hv
    obtain ⟨v', hv', hsome, -⟩ := Check.exists_violation?_of_le hle hv
    rw [fails_eq_isSome hv']
    exact hsome rfl
  · exact absurd h Bool.false_ne_true

theorem fails_renumber {column : List Cell} (f : Nat → Nat) (cell : Cell) :
    e.fails check column (cell.renumber f) = e.fails check column cell := by
  rw [fails, fails, Check.violation?_renumber]

section Checked

variable {found found' joined : List (Option Violation)}

/-- A column is checked where both its parts are. -/
theorem exists_violations_join (h : e.violations check cells = .ok found)
    (h' : e.violations check cells' = .ok found') (n : Nat) :
    ∃ joined, e.violations check (Cell.join n cells cells') = .ok joined :=
  exists_mapM_eq_ok (Check.exists_violation?_join
    (fun _ => violation?_eq_ok_of_mem h) fun _ => violation?_eq_ok_of_mem h')

/-- A check that looks at single cells finds in the whole what it finds in the parts. -/
theorem failures_join (hne : check ≠ .unique) (h : e.violations check cells = .ok found)
    (h' : e.violations check cells' = .ok found')
    (hjoined : e.violations check (Cell.join n cells cells') = .ok joined) :
    failures (Cell.join n cells cells') joined
      = failures cells found ++ (failures cells' found').map (Prod.map (n + ·) id) := by
  have hfailure : ∀ column f, ∀ cell : Cell,
      e.failure? check (Cell.join n cells cells') (cell.renumber f)
        = (e.failure? check column cell).map (Prod.map f id) := fun column f cell => by
    rw [failure?, failure?, Check.violation?_renumber, Check.violation?_local hne, Option.map_map]
    rfl
  rw [failures_eq_filterMap hjoined, failures_eq_filterMap h, failures_eq_filterMap h', Cell.join,
    List.filterMap_append, List.filterMap_map, List.map_filterMap]
  congr 1
  · refine List.filterMap_congr fun cell _ => (hfailure cells id cell).trans ?_
    rw [Prod.map_id, Option.map_id]
    rfl
  · exact List.filterMap_congr fun cell _ => hfailure cells' (n + ·) cell

theorem ruleOutcome_join (rule : Rule) (phrase : String) (hne : check ≠ .unique)
    (h : e.violations check cells = .ok found) (h' : e.violations check cells' = .ok found')
    (hjoined : e.violations check (Cell.join n cells cells') = .ok joined) :
    ruleOutcome rule phrase (Cell.join n cells cells') joined
      = (ruleOutcome rule phrase cells found).join n (ruleOutcome rule phrase cells' found') := by
  have hfailures := failures_join hne h h' hjoined
  have hcount := ruleOutcome_passed_add_failed rule phrase h
  have hcount' := ruleOutcome_passed_add_failed rule phrase h'
  simp only [ruleOutcome, List.length_map] at hcount hcount'
  simp only [ruleOutcome, RuleOutcome.join, hfailures, joinRows, Cell.length_join,
    List.length_append, List.map_append, List.length_map, List.map_map, RuleOutcome.mk.injEq]
  refine ⟨trivial, trivial, trivial, by omega, rfl, rfl, trivial⟩

/-- What fails a check in a part fails it in the whole. -/
theorem ruleOutcome_keeps (rule : Rule) (phrase : String)
    (h : e.violations check cells = .ok found) (h' : e.violations check cells' = .ok found')
    (hjoined : e.violations check (Cell.join n cells cells') = .ok joined) :
    joinRows n (ruleOutcome rule phrase cells found).failedRows
        (ruleOutcome rule phrase cells' found').failedRows
      ⊆ (ruleOutcome rule phrase (Cell.join n cells cells') joined).failedRows := by
  rw [ruleOutcome_failedRows rule phrase h, ruleOutcome_failedRows rule phrase h',
    ruleOutcome_failedRows rule phrase hjoined, ← Cell.map_row_join]
  refine List.map_subset _ (Cell.forall_mem_join.mpr ⟨fun cell hcell => ?_, fun cell hcell => ?_⟩)
  · obtain ⟨hmem, hfails⟩ := List.mem_filter.mp hcell
    exact List.mem_filter.mpr ⟨Cell.mem_join_iff.mpr (.inl hmem),
      fails_of_le (Cell.occurrences_le_left cell) hfails⟩
  · obtain ⟨hmem, hfails⟩ := List.mem_filter.mp hcell
    exact List.mem_filter.mpr ⟨Cell.mem_join_iff.mpr (.inr ⟨cell, hmem, rfl⟩),
      (fails_renumber _ cell).trans (fails_of_le (Cell.occurrences_le_right cell) hfails)⟩

end Checked

/-- **A rule on a column in two parts.** -/
theorem evaluateRule_join {typed : Bool} {o o' : RuleOutcome}
    (h : e.evaluateRule cells typed rule = .ok o) (h' : e.evaluateRule cells' typed rule = .ok o')
    (n : Nat) :
    ∃ w, e.evaluateRule (Cell.join n cells cells') typed rule = .ok w ∧
      (rule.kind ≠ .unique → w = o.join n o') ∧
      joinRows n o.failedRows o'.failedRows ⊆ w.failedRows := by
  obtain ⟨check, phrase, hcheck, hphrase, hcase⟩ := evaluateRule_eq_ok h
  obtain ⟨check', phrase', hcheck', hphrase', hcase'⟩ := evaluateRule_eq_ok h'
  obtain rfl := Except.ok.inj (hcheck.symm.trans hcheck')
  obtain rfl := Option.some.inj (hphrase.symm.trans hphrase')
  rcases hcase with ⟨hneeds, rfl, rfl⟩ | ⟨hskip, found, hfound, rfl⟩ <;>
    rcases hcase' with ⟨hneeds', htyped', rfl⟩ | ⟨hskip', found', hfound', rfl⟩
  · have hjoin : untypedOutcome rule phrase (Cell.join n cells cells')
        = (untypedOutcome rule phrase cells).join n (untypedOutcome rule phrase cells') := by
      have hmessages : (Cell.join n cells cells').map (fun _ => Violation.noTypeMessage)
          = cells.map (fun _ => Violation.noTypeMessage)
            ++ cells'.map fun _ => Violation.noTypeMessage := by
        rw [Cell.join, List.map_append, List.map_map]
        rfl
      rw [untypedOutcome, Cell.map_row_join, hmessages]
      rfl
    exact ⟨_, evaluateRule_untyped hcheck hphrase hneeds, fun _ => hjoin,
      hjoin ▸ List.Subset.refl _⟩
  · exact absurd ⟨hneeds, rfl⟩ hskip'
  · exact absurd ⟨hneeds', htyped'⟩ hskip
  · obtain ⟨joined, hjoined⟩ := exists_violations_join hfound hfound' n
    exact ⟨_, evaluateRule_checks hcheck hphrase hskip hjoined,
      fun hkind => ruleOutcome_join rule phrase (ne_unique_of_check hcheck hkind) hfound hfound'
        hjoined,
      ruleOutcome_keeps rule phrase hfound hfound' hjoined⟩

/-! ### Blocks -/

/-- **A block on a table in two parts.** -/
theorem evaluateColumn_join (hjoin : first.Joins second whole) {b : Block} {o o' : ColumnOutcome}
    (h : e.evaluateColumn first b = .ok o) (h' : e.evaluateColumn second b = .ok o') :
    ∃ w, e.evaluateColumn whole b = .ok w ∧ ColumnOutcome.Joins first.rowCount b o o' w := by
  obtain ⟨cells, rules, hcells, hrules, rfl⟩ := evaluateColumn_eq_ok_iff.mp h
  obtain ⟨cells', rules', hcells', hrules', rfl⟩ := evaluateColumn_eq_ok_iff.mp h'
  rw [mapM_eq_ok_iff] at hrules hrules'
  obtain ⟨joined, hjoined⟩ : ∃ joined, b.rules.mapM (e.evaluateRule
      (Cell.join first.rowCount cells cells') b.valueType.isSome) = .ok joined :=
    exists_mapM_eq_ok fun rule hrule => by
      obtain ⟨r, -, hr⟩ := exists_mem_of_forall₂ hrules hrule
      obtain ⟨r', -, hr'⟩ := exists_mem_of_forall₂ hrules' hrule
      obtain ⟨w, hw, -⟩ := evaluateRule_join hr hr' first.rowCount
      exact ⟨w, hw⟩
  refine ⟨_, evaluateColumn_eq_ok_iff.mpr
    ⟨_, joined, cells_join hjoin hcells hcells', hjoined, rfl⟩, fun i rule hrule => ?_, ?_⟩
  · obtain ⟨r, hi, hr⟩ := exists_getElem?_of_forall₂ hrules hrule
    obtain ⟨r', hi', hr'⟩ := exists_getElem?_of_forall₂ hrules' hrule
    obtain ⟨w, hiw, hw⟩ := exists_getElem?_of_forall₂ (mapM_eq_ok_iff.mp hjoined) hrule
    obtain ⟨w', hw', hjoins, hkeeps⟩ := evaluateRule_join hr hr' first.rowCount
    obtain rfl := Except.ok.inj (hw.symm.trans hw')
    exact ⟨r, r', w, hi, hi', hiw, hjoins, fun _ => hkeeps⟩
  · change ((Cell.join _ _ _).filter Cell.isNull).length = _
    rw [Cell.filter_join (p := Cell.isNull) (r := Cell.isNull) (fun _ _ => rfl) fun _ _ => rfl,
      Cell.length_join]

/-! ### Conditional rules -/

/-- What fulfils a condition where its value occurs at least as often fulfils it in the column. -/
theorem exists_fulfils_of_le {column column' : List Cell} {cell : Cell}
    (hle : Cell.occurrences column cell ≤ Cell.occurrences column' cell) {b : Bool}
    (h : e.fulfils rule check column cell = .ok b) :
    ∃ b', e.fulfils rule check column' cell = .ok b' ∧ (b' = true → b = true) ∧
      (check ≠ .unique → b' = b) := by
  unfold fulfils at h ⊢
  split_ifs at h ⊢
  · exact ⟨b, h, id, fun _ => rfl⟩
  · exact ⟨b, h, id, fun _ => rfl⟩
  · obtain ⟨v, hv, rfl⟩ := map_eq_ok_iff.mp h
    obtain ⟨v', hv', hsome, heq⟩ := Check.exists_violation?_of_le hle hv
    refine ⟨v'.isNone, map_eq_ok_iff.mpr ⟨v', hv', rfl⟩, fun hnone => ?_,
      fun hne => congrArg Option.isNone (heq hne)⟩
    cases v with
    | none => rfl
    | some v => rw [← Option.not_isSome, hsome rfl] at hnone; exact hnone

theorem fulfils_renumber_eq {column : List Cell} (f : Nat → Nat) (cell : Cell) :
    e.fulfils rule check column (cell.renumber f) = e.fulfils rule check column cell := by
  unfold fulfils
  rw [Check.violation?_renumber]
  rfl

/-- **The first pass** over a table in two parts finds no other rows than over the parts, and the
same ones if the condition is not one of uniqueness. -/
theorem antecedentRows_join (hjoin : first.Joins second whole) {c : Clause} {rows rows' : List Nat}
    (h : e.antecedentRows first c = .ok rows) (h' : e.antecedentRows second c = .ok rows') :
    ∃ w, e.antecedentRows whole c = .ok w ∧ w ⊆ joinRows first.rowCount rows rows' ∧
      (c.rule.kind ≠ .unique → w = joinRows first.rowCount rows rows') := by
  obtain ⟨cells, check, hcells, hcheck, h⟩ := antecedentRows_eq_ok_iff.mp h
  obtain ⟨cells', check', hcells', hcheck', h'⟩ := antecedentRows_eq_ok_iff.mp h'
  obtain rfl := Except.ok.inj (hcheck.symm.trans hcheck')
  have hwhole := cells_join hjoin hcells hcells'
  split_ifs at h h' with hskip
  · obtain rfl := h
    obtain rfl := h'
    exact ⟨[], antecedentRows_eq_ok_iff.mpr ⟨_, check, hwhole, hcheck, by rw [if_pos hskip]⟩,
      List.nil_subset _, fun _ => rfl⟩
  · obtain ⟨matched, hmatched, rfl⟩ := h
    obtain ⟨matched', hmatched', rfl⟩ := h'
    obtain ⟨w, hw, hsub, heq⟩ := Cell.exists_filterM_join (P := check ≠ .unique)
      (q := e.fulfils c.rule check (Cell.join first.rowCount cells cells'))
      (fun cell _ b hb => exists_fulfils_of_le (Cell.occurrences_le_left cell) hb)
      (fun cell _ b hb => by
        rw [fulfils_renumber_eq]
        exact exists_fulfils_of_le (Cell.occurrences_le_right cell) hb) hmatched hmatched'
    refine ⟨w.map Cell.row, antecedentRows_eq_ok_iff.mpr ⟨_, check, hwhole, hcheck, ?_⟩, ?_,
      fun hkind => ?_⟩
    · rw [if_neg hskip]
      exact ⟨w, hw, rfl⟩
    · rw [← Cell.map_row_join]
      exact List.map_subset _ hsub
    · rw [heq (ne_unique_of_check hcheck hkind), Cell.map_row_join]

/-- A row of the first part that is checked there is checked in the whole, with the same result if
the check is not the one for uniqueness. -/
theorem exists_failsAt_left (hcells : e.cells first column type = .ok cells)
    (hwhole : e.cells whole column type = .ok (Cell.join n cells cells')) {row : Nat}
    (hpos : 0 < row) {b : Bool} (h : e.failsAt check cells row = .ok b) :
    ∃ b', e.failsAt check (Cell.join n cells cells') row = .ok b' ∧
      (check ≠ .unique → b' = b) := by
  obtain ⟨cell, hcell, rfl, v, hv, rfl⟩ := exists_violation?_of_failsAt hcells hpos h
  obtain ⟨v', hv', -, heq⟩ := Check.exists_violation?_of_le (Cell.occurrences_le_left cell) hv
  refine ⟨v'.isSome, ?_, fun hne => congrArg Option.isSome (heq hne)⟩
  rw [failsAt_row hwhole check (Cell.mem_join_iff.mpr (.inl hcell)), hv']
  rfl

/-- The same of a row of the second part, by its number in the whole. -/
theorem exists_failsAt_right (hcells' : e.cells second column type = .ok cells')
    (hwhole : e.cells whole column type = .ok (Cell.join n cells cells')) {row : Nat}
    (hpos : 0 < row) {b : Bool} (h : e.failsAt check cells' row = .ok b) :
    ∃ b', e.failsAt check (Cell.join n cells cells') (n + row) = .ok b' ∧
      (check ≠ .unique → b' = b) := by
  obtain ⟨cell, hcell, rfl, v, hv, rfl⟩ := exists_violation?_of_failsAt hcells' hpos h
  obtain ⟨v', hv', -, heq⟩ := Check.exists_violation?_of_le (Cell.occurrences_le_right cell) hv
  refine ⟨v'.isSome, ?_, fun hne => congrArg Option.isSome (heq hne)⟩
  have hrow := failsAt_row hwhole check (Cell.mem_join_iff.mpr (.inr ⟨cell, hcell, rfl⟩))
  rw [Check.violation?_renumber, hv'] at hrow
  exact hrow

/-- **The second pass** over a table in two parts meets no other rows than over the parts. Where it
looks at the same rows, it fails the same, if the consequence is not one of uniqueness. -/
theorem consequentFailures_join (hjoin : first.Joins second whole) {c : Clause}
    {rows rows' joined failed failed' : List Nat}
    (hsub : joined ⊆ joinRows first.rowCount rows rows')
    (hpos : ∀ row ∈ rows, 0 < row) (hpos' : ∀ row ∈ rows', 0 < row)
    (h : e.consequentFailures first c rows = .ok failed)
    (h' : e.consequentFailures second c rows' = .ok failed') :
    ∃ w, e.consequentFailures whole c joined = .ok w ∧
      (c.rule.kind ≠ .unique → joined = joinRows first.rowCount rows rows' →
        w = joinRows first.rowCount failed failed') := by
  obtain ⟨cells, check, hcells, hcheck, hkept⟩ := consequentFailures_eq_ok_iff.mp h
  obtain ⟨cells', check', hcells', hcheck', hkept'⟩ := consequentFailures_eq_ok_iff.mp h'
  obtain rfl := Except.ok.inj (hcheck.symm.trans hcheck')
  obtain ⟨hok, rfl⟩ := filterM_eq_ok_iff.mp hkept
  obtain ⟨hok', rfl⟩ := filterM_eq_ok_iff.mp hkept'
  have hwhole := cells_join hjoin hcells hcells'
  set column := Cell.join first.rowCount cells cells'
  have hleft : ∀ row ∈ rows, ∃ b, e.failsAt check column row = .ok b ∧
      (check ≠ .unique → b = accepts (e.failsAt check cells row)) := fun row hrow =>
    exists_failsAt_left hcells hwhole (hpos row hrow) (eq_ok_of_filterM_eq_ok hkept hrow)
  have hright : ∀ row ∈ rows', ∃ b, e.failsAt check column (first.rowCount + row) = .ok b ∧
      (check ≠ .unique → b = accepts (e.failsAt check cells' row)) := fun row hrow =>
    exists_failsAt_right hcells' hwhole (hpos' row hrow) (eq_ok_of_filterM_eq_ok hkept' hrow)
  have hrun : joined.filterM (e.failsAt check column)
      = .ok (joined.filter fun row => accepts (e.failsAt check column row)) := by
    refine filterM_eq_ok_iff.mpr ⟨fun row hrow => ?_, rfl⟩
    rcases List.mem_append.mp (hsub hrow) with hrow | hrow
    · obtain ⟨b, hb, -⟩ := hleft row hrow
      exact ⟨b, hb⟩
    · obtain ⟨row', hrow', rfl⟩ := List.mem_map.mp hrow
      obtain ⟨b, hb, -⟩ := hright row' hrow'
      exact ⟨b, hb⟩
  refine ⟨_, consequentFailures_eq_ok_iff.mpr ⟨column, check, hwhole, hcheck, hrun⟩,
    fun hkind heq => ?_⟩
  have hne := ne_unique_of_check hcheck hkind
  rw [heq, joinRows, joinRows, List.filter_append, List.filter_map]
  congr 1
  · refine List.filter_congr fun row hrow => ?_
    obtain ⟨b, hb, hsame⟩ := hleft row hrow
    rw [hb, ← hsame hne]
    rfl
  · refine congrArg _ (List.filter_congr fun row hrow => ?_)
    obtain ⟨b, hb, hsame⟩ := hright row hrow
    rw [Function.comp_apply, hb, ← hsame hne]
    rfl

/-- The second pass fails none but the rows that it is given. -/
theorem consequentFailures_subset {table : Table} {c : Clause} {rows failed : List Nat}
    (h : e.consequentFailures table c rows = .ok failed) : failed ⊆ rows := by
  obtain ⟨cells, check, -, -, hkept⟩ := consequentFailures_eq_ok_iff.mp h
  exact subset_of_filterM_eq_ok hkept

/-- An outcome is vacuous without matched rows, and failed with failed ones. -/
theorem conditionalOutcome_status (name : String) {matched failed : List Nat}
    (hsub : failed ⊆ matched) :
    ((conditionalOutcome name matched failed).status = .vacuous ↔ matched = []) ∧
      ((conditionalOutcome name matched failed).status = .failed ↔ failed ≠ []) := by
  unfold conditionalOutcome
  split_ifs with hempty hnone
  · obtain rfl := List.isEmpty_iff.mp hempty
    exact ⟨iff_of_true rfl rfl, iff_of_false nofun fun h => h (List.subset_nil.mp hsub)⟩
  · have hne : matched ≠ [] := fun h => hempty (List.isEmpty_iff.mpr h)
    exact ⟨iff_of_false nofun hne, iff_of_false nofun fun h => h (List.isEmpty_iff.mp hnone)⟩
  · have hne : matched ≠ [] := fun h => hempty (List.isEmpty_iff.mpr h)
    exact ⟨iff_of_false nofun hne, iff_of_true rfl fun h => hnone (List.isEmpty_iff.mpr h)⟩

theorem conditionalOutcome_rows (name : String) (matched failed : List Nat) :
    (conditionalOutcome name matched failed).matchedRows = matched ∧
      (conditionalOutcome name matched failed).failedRows = failed := by
  unfold conditionalOutcome
  split_ifs <;> exact ⟨rfl, rfl⟩

theorem conditionalOutcome_joins (name : String) {matched matched' failed failed' : List Nat}
    (hsub : failed ⊆ matched) (hsub' : failed' ⊆ matched') (n : Nat) :
    ConditionalOutcome.Joins n (conditionalOutcome name matched failed)
      (conditionalOutcome name matched' failed')
      (conditionalOutcome name (joinRows n matched matched') (joinRows n failed failed')) := by
  obtain ⟨hmatched, hfailed⟩ := conditionalOutcome_rows name matched failed
  obtain ⟨hmatched', hfailed'⟩ := conditionalOutcome_rows name matched' failed'
  obtain ⟨hrows, hfailures⟩ :=
    conditionalOutcome_rows name (joinRows n matched matched') (joinRows n failed failed')
  obtain ⟨hvacuous, hfails⟩ := conditionalOutcome_status name hsub
  obtain ⟨hvacuous', hfails'⟩ := conditionalOutcome_status name hsub'
  obtain ⟨hjoinVacuous, hjoinFails⟩ := conditionalOutcome_status name
    (joinRows_subset (n := n) hsub hsub')
  refine ⟨by rw [hrows, hmatched, hmatched'], by rw [hfailures, hfailed, hfailed'], ?_, ?_⟩
  · rw [hjoinFails, hfails, hfails', ne_eq, joinRows_eq_nil_iff, not_and_or]
  · rw [hjoinVacuous, hvacuous, hvacuous', joinRows_eq_nil_iff]

/-- **A conditional rule on a table in two parts.** -/
theorem evaluateConditional_join (hjoin : first.Joins second whole) {c : Conditional}
    {o o' : ConditionalOutcome} (h : e.evaluateConditional first c = .ok o)
    (h' : e.evaluateConditional second c = .ok o') :
    ∃ w, e.evaluateConditional whole c = .ok w ∧
      ((∀ clause ∈ c.clauses, clause.rule.kind ≠ .unique) →
        ConditionalOutcome.Joins first.rowCount o o' w) := by
  have habsent : absentColumns whole c = absentColumns first c := by
    simp only [absentColumns, hjoin.hasColumn_eq]
  have habsent' : absentColumns second c = absentColumns first c := by
    simp only [absentColumns, hjoin.hasColumn_eq']
  unfold evaluateConditional at h h' ⊢
  rw [habsent]
  rw [habsent'] at h'
  generalize absentColumns first c = absent at h h' ⊢
  cases absent with
  | nil =>
    obtain ⟨matched, hmatched, h⟩ := bind_eq_ok_iff.mp h
    obtain ⟨failed, hfailed, h⟩ := bind_eq_ok_iff.mp h
    obtain rfl := Except.ok.inj h
    obtain ⟨matched', hmatched', h'⟩ := bind_eq_ok_iff.mp h'
    obtain ⟨failed', hfailed', h'⟩ := bind_eq_ok_iff.mp h'
    obtain rfl := Except.ok.inj h'
    obtain ⟨rows, hrows, hsub, hrowsEq⟩ := antecedentRows_join hjoin hmatched hmatched'
    obtain ⟨failures, hfailures, hfailuresEq⟩ := consequentFailures_join hjoin hsub
      (pos_of_antecedentRows hmatched) (pos_of_antecedentRows hmatched') hfailed hfailed'
    refine ⟨_, bind_eq_ok_iff.mpr ⟨rows, hrows, bind_eq_ok_iff.mpr ⟨failures, hfailures, rfl⟩⟩,
      fun hkinds => ?_⟩
    have hrowsEq := hrowsEq (hkinds c.antecedent List.mem_cons_self)
    rw [hrowsEq, hfailuresEq (hkinds c.consequent (List.mem_cons_of_mem _ List.mem_cons_self))
      hrowsEq]
    exact conditionalOutcome_joins c.name (consequentFailures_subset hfailed)
      (consequentFailures_subset hfailed') _
  | cons column columns =>
    obtain rfl := Except.ok.inj h
    obtain rfl := Except.ok.inj h'
    exact ⟨_, rfl, fun _ => ⟨rfl, rfl, by simp [notEvaluated], by simp [notEvaluated]⟩⟩

/-! ### Reports -/

/-- The null cells of the whole are those of the parts. -/
theorem missingValues_join (hjoin : first.Joins second whole) :
    (e.missingValues second).map (·.1) = (e.missingValues first).map (·.1) ∧
      e.missingValues whole = (e.missingValues first).zipWith
        (fun p p' => (p.1, p.2 + p'.2)) (e.missingValues second) := by
  unfold missingValues
  rw [hjoin.header, hjoin.header', List.map_map, List.map_map, List.zipWith_map, List.zipWith_self]
  refine ⟨rfl, List.map_congr_left fun column _ => ?_⟩
  rw [hjoin.column_eq, List.filter_append, List.length_append]

/-- **Evaluation can be done in parts.** Let the rows of a table be those of a first part and then
those of a second, under the same header, and let both parts have a report. Then the whole table has
one as well, and it is put together from the two.

* A rule other than one of uniqueness fails the rows that it fails in the parts, those of the second
  part by their numbers in the whole, with the same messages in the same order, and as many rows
  pass as in both parts together. A rule of uniqueness fails at least the rows that it fails in the
  parts.
* A conditional rule without a rule of uniqueness matches and fails the rows that it matches and
  fails in the parts. It fails exactly if it fails in a part, and it is vacuous exactly if it is so
  in both.
* The numbers of missing values are added. -/
theorem evaluate_join (e : Engine) (first second whole : Table) (report report' : Report)
    (hjoin : first.Joins second whole) (h : e.evaluate first = .ok report)
    (h' : e.evaluate second = .ok report') :
    ∃ w, e.evaluate whole = .ok w ∧ Report.Joins e.ruleset first second report report' w := by
  obtain ⟨hcolumns, hconditionals, hmissing, -⟩ := outcomes_of_evaluate h
  obtain ⟨hcolumns', hconditionals', hmissing', -⟩ := outcomes_of_evaluate h'
  rw [evaluateColumns, mapM_eq_ok_iff] at hcolumns hcolumns'
  rw [evaluateConditionals, mapM_eq_ok_iff] at hconditionals hconditionals'
  obtain ⟨columns, hwholeColumns⟩ : ∃ columns, e.evaluateColumns whole = .ok columns :=
    exists_mapM_eq_ok fun b hb => by
      obtain ⟨hmem, hpresent⟩ := List.mem_filter.mp hb
      rw [hjoin.hasColumn_eq] at hpresent
      obtain ⟨o, -, ho⟩ :=
        exists_mem_of_forall₂ hcolumns (List.mem_filter.mpr ⟨hmem, hpresent⟩)
      obtain ⟨o', -, ho'⟩ := exists_mem_of_forall₂ hcolumns'
        (List.mem_filter.mpr ⟨hmem, (hjoin.hasColumn_eq' _).trans hpresent⟩)
      obtain ⟨w, hw, -⟩ := evaluateColumn_join hjoin ho ho'
      exact ⟨w, hw⟩
  obtain ⟨conditionals, hwholeConditionals⟩ :
      ∃ conditionals, e.evaluateConditionals whole = .ok conditionals :=
    exists_mapM_eq_ok fun c hc => by
      obtain ⟨o, -, ho⟩ := exists_mem_of_forall₂ hconditionals hc
      obtain ⟨o', -, ho'⟩ := exists_mem_of_forall₂ hconditionals' hc
      obtain ⟨w, hw, -⟩ := evaluateConditional_join hjoin ho ho'
      exact ⟨w, hw⟩
  obtain ⟨w, hw⟩ := exists_evaluate hwholeColumns hwholeConditionals
  obtain ⟨-, -, hmissingWhole, hrowCount⟩ := outcomes_of_evaluate hw
  obtain ⟨hmissingColumns, hmissingValues⟩ := missingValues_join hjoin (e := e)
  refine ⟨w, hw, hrowCount.trans hjoin.rowCount_eq, fun b hb hpresent => ?_,
    fun c hc hkinds => ?_, ?_, ?_⟩
  · obtain ⟨o, hlookup, ho⟩ := exists_column? h hb hpresent
    obtain ⟨o', hlookup', ho'⟩ := exists_column? h' hb
      ((hjoin.hasColumn_eq' _).trans hpresent)
    obtain ⟨d, hlookupWhole, hd⟩ := exists_column? hw hb
      ((hjoin.hasColumn_eq _).trans hpresent)
    obtain ⟨d', hd', hjoins⟩ := evaluateColumn_join hjoin ho ho'
    obtain rfl := Except.ok.inj (hd.symm.trans hd')
    exact ⟨o, o', d, hlookup, hlookup', hlookupWhole, hjoins⟩
  · obtain ⟨o, hlookup, ho⟩ := exists_conditional? h hc
    obtain ⟨o', hlookup', ho'⟩ := exists_conditional? h' hc
    obtain ⟨d, hlookupWhole, hd⟩ := exists_conditional? hw hc
    obtain ⟨d', hd', hjoins⟩ := evaluateConditional_join hjoin ho ho'
    obtain rfl := Except.ok.inj (hd.symm.trans hd')
    exact ⟨o, o', d, hlookup, hlookup', hlookupWhole, hjoins hkinds⟩
  · rw [hmissing, hmissing', hmissingColumns]
  · rw [hmissing, hmissing', ← hmissingValues, hmissingWhole]

/-! #### A depot in two parts

The goods of the depot once more, two at a time. The label that occurs twice occurs once in each
part, so neither part fails the rule on labels, and the depot does. -/

/-- The first two goods. -/
def depotFirst : Table := { depotTable with rows := depotTable.rows.take 2 }

/-- The other two. -/
def depotSecond : Table := { depotTable with rows := depotTable.rows.drop 2 }

/-- The report on the depot is put together from those on its parts. -/
theorem depotTable_join :
    depotFirst.Joins depotSecond depotTable ∧
      ∃ report report' w, depotEngine.evaluate depotFirst = .ok report ∧
        depotEngine.evaluate depotSecond = .ok report' ∧
        depotEngine.evaluate depotTable = .ok w ∧
        Report.Joins depotEngine.ruleset depotFirst depotSecond report report' w ∧
        outcomeRows report = [[], [], [2], [1], []] ∧
        outcomeRows report' = [[], [1], [1], [2], [2]] ∧
        outcomeRows w = [[1, 3], [3], [2, 3], [1, 4], [4]] := by
  have hjoin : depotFirst.Joins depotSecond depotTable :=
    ⟨rfl, rfl, (List.take_append_drop 2 depotTable.rows).symm⟩
  have hfirst : (depotEngine.evaluate depotFirst).toOption.any
      (fun r => outcomeRows r == [[], [], [2], [1], []]) = true := by
    decide +kernel
  have hsecond : (depotEngine.evaluate depotSecond).toOption.any
      (fun r => outcomeRows r == [[], [1], [1], [2], [2]]) = true := by
    decide +kernel
  have hwhole : (depotEngine.evaluate depotTable).toOption.any
      (fun r => outcomeRows r == [[1, 3], [3], [2, 3], [1, 4], [4]]) = true := by
    decide +kernel
  obtain ⟨report, hreport, hrows⟩ := any_toOption_iff.mp hfirst
  obtain ⟨report', hreport', hrows'⟩ := any_toOption_iff.mp hsecond
  obtain ⟨w, hw, hrowsWhole⟩ := any_toOption_iff.mp hwhole
  obtain ⟨joined, hjoined, hjoins⟩ := evaluate_join depotEngine depotFirst depotSecond depotTable
    report report' hjoin hreport hreport'
  obtain rfl := Except.ok.inj (hw.symm.trans hjoined)
  exact ⟨hjoin, report, report', w, hreport, hreport', hw, hjoins, beq_iff_eq.mp hrows,
    beq_iff_eq.mp hrows', beq_iff_eq.mp hrowsWhole⟩

end Engine

end TableRules
