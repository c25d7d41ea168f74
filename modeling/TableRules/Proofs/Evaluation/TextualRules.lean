import TableRules.Proofs.Evaluation.RuleOutcomes

/-!
# Rules that read only texts

A rule is textual (`Constraint.isTextual`) when it asks for a text, for its presence, its form, its
length or its parts, or for membership in a set of texts. The readings of the cells play no part in
such a rule: it comes to the same on the cells with their readings erased (`Cell.untyped`), and
these are the cells of the column without a type.

* `Engine.evaluateColumn_textual`: two blocks that differ only in the type they declare come to the
  same outcomes for their textual rules.
-/

namespace TableRules

open Result

/-- Whether a member of a set is a text. -/
def SetItem.isText : SetItem → Bool
  | .text _ => true
  | .number _ => false

/-- Whether a constraint asks for a text only, whatever is read of it. -/
def Constraint.isTextual : Constraint → Bool
  | .hasFormat _ | .required | .notNull | .null | .pattern _ | .text _ _ | .length _ _
  | .part _ _ => true
  | .member _ items => items.all SetItem.isText
  | .hasType _ | .unique | .compare _ _ | .digits _ _ => false

/-- A textual rule neither declares a type nor needs one. -/
theorem Constraint.not_needsType_of_isTextual {c : Constraint} (h : c.isTextual = true) :
    ¬ c.NeedsType := by
  cases c <;> simp_all [isTextual, NeedsType]

theorem Rule.declaresType_of_isTextual {r : Rule} (h : r.constraint.isTextual = true) :
    r.declaresType = false := by
  obtain ⟨c, line⟩ := r
  cases c <;> first | rfl | cases h

/-! ### Cells without their readings -/

namespace Cell

variable {s : Settings} {c : Catalog} {type : Option ValueType}

/-- A cell with its reading erased. -/
def untyped (cell : Cell) : Cell := { cell with reading := none }

/-- Without a type the same cell is read, with its reading erased. -/
theorem read_untyped {row : Nat} {raw : Option String} {cell : Cell}
    (h : read s c type row raw = .ok cell) : read s c none row raw = .ok cell.untyped := by
  unfold read at h
  split at h
  · obtain rfl := Except.ok.inj h
    rfl
  · obtain ⟨r, -, rfl⟩ := map_eq_ok_iff.mp h
    rfl

theorem readFrom_untyped {row : Nat} {raws : List (Option String)} {cells : List Cell}
    (h : readFrom s c type row raws = .ok cells) :
    readFrom s c none row raws = .ok (cells.map untyped) := by
  induction raws generalizing row cells with
  | nil =>
    obtain rfl := Except.ok.inj h
    rfl
  | cons raw raws ih =>
    obtain ⟨cell, hcell, h⟩ := bind_eq_ok_iff.mp h
    obtain ⟨rest, hrest, h⟩ := bind_eq_ok_iff.mp h
    obtain rfl := Except.ok.inj h
    exact bind_eq_ok_iff.mpr ⟨_, read_untyped hcell, bind_eq_ok_iff.mpr ⟨_, ih hrest, rfl⟩⟩

end Cell

namespace Check

theorem itemNumbers_eq_nil {items : List SetItem} (h : items.all SetItem.isText = true) :
    itemNumbers items = [] := by
  rw [itemNumbers, List.filterMap_eq_nil_iff]
  intro item hitem
  cases item with
  | text w => rfl
  | number n => exact absurd (List.all_eq_true.mp h _ hitem) (by simp [SetItem.isText])

/-- The check of a textual constraint finds the same in a cell without its reading, in any
column. -/
theorem violation?_untyped {s : Settings} {catalog : Catalog} {c : Constraint} {check : Check}
    (hc : c.isTextual = true) (hcheck : ofConstraint catalog c = .ok check)
    (column column' : List Cell) (cell : Cell) :
    check.violation? s catalog column' cell.untyped = check.violation? s catalog column cell := by
  cases c with
  | hasFormat w =>
    rw [ofConstraint] at hcheck
    split at hcheck
    · obtain rfl := Except.ok.inj hcheck
      rfl
    · simp at hcheck
  | member allowed items =>
    obtain ⟨numbers, hnumbers, rfl⟩ := map_eq_ok_iff.mp hcheck
    rw [itemNumbers_eq_nil hc] at hnumbers
    obtain rfl := Except.ok.inj hnumbers
    rfl
  | hasType t => cases hc
  | unique => cases hc
  | compare op n => cases hc
  | digits kind n => cases hc
  | _ =>
    obtain rfl := Except.ok.inj hcheck
    rfl

end Check

namespace Engine

variable {e : Engine} {table : Table} {cells : List Cell} {rule : Rule}

/-! ### Rules -/

theorem violations_untyped {check : Check} (htextual : rule.constraint.isTextual = true)
    (hcheck : e.check rule = .ok check) (cells : List Cell) :
    e.violations check (cells.map Cell.untyped) = e.violations check cells := by
  rw [violations, List.mapM_map]
  exact mapM_congr fun cell _ => Check.violation?_untyped htextual hcheck cells _ cell

/-- **A textual rule** comes to the same on the cells without their readings. -/
theorem evaluateRule_untyped_of_isTextual (htextual : rule.constraint.isTextual = true)
    (typed : Bool) :
    e.evaluateRule (cells.map Cell.untyped) false rule = e.evaluateRule cells typed rule := by
  have hneeds : rule.kind.family.needsType = false := Bool.eq_false_iff.mpr
    (Rule.needsType_iff.not.mpr (Constraint.not_needsType_of_isTextual htextual))
  have houtcome : ∀ phrase found, ruleOutcome rule phrase (cells.map Cell.untyped) found
      = ruleOutcome rule phrase cells found := fun phrase found => by
    rw [ruleOutcome, failures, List.zip_map_left, List.filterMap_map, List.length_map]
    rfl
  cases hcheck : e.check rule with
  | error fault =>
    simp only [evaluateRule, hcheck]
    rfl
  | ok check =>
    have hfound := violations_untyped htextual hcheck cells
    simp only [evaluateRule, hcheck, hneeds, houtcome, Bool.false_and, bind, Except.bind, hfound,
      Bool.false_eq_true, if_false]

/-! ### Blocks -/

/-- The textual rules among rules, each with its outcome. -/
def textualOutcomes (rules : List Rule) (outcomes : List RuleOutcome) :
    List (Rule × RuleOutcome) :=
  (rules.zip outcomes).filter fun (rule, _) => rule.constraint.isTextual

/-- The outcomes of textual rules are those on the cells without their readings. -/
private theorem textualOutcomes_eq {typed : Bool} {rules : List Rule}
    {outcomes : List RuleOutcome}
    (h : List.Forall₂ (fun rule o => e.evaluateRule cells typed rule = .ok o) rules outcomes) :
    textualOutcomes rules outcomes
      = (rules.filter fun rule => rule.constraint.isTextual).filterMap fun rule =>
        (e.evaluateRule (cells.map Cell.untyped) false rule).toOption.map (rule, ·) := by
  induction h with
  | nil => rfl
  | @cons rule o rules outcomes ho _ ih =>
    rw [textualOutcomes] at ih ⊢
    rw [List.zip_cons_cons, List.filter_cons, List.filter_cons]
    by_cases htextual : rule.constraint.isTextual = true
    · rw [if_pos htextual, if_pos htextual, List.filterMap_cons,
        evaluateRule_untyped_of_isTextual htextual typed, ho, ih]
      rfl
    · rw [if_neg htextual, if_neg htextual, ih]

/-- The textual rules are left when the declaration of a type is taken out. -/
private theorem filter_isTextual (rules : List Rule) :
    rules.filter (fun rule => rule.constraint.isTextual)
      = (rules.filter fun rule => !rule.declaresType).filter fun rule =>
        rule.constraint.isTextual := by
  rw [List.filter_filter]
  refine List.filter_congr fun rule _ => ?_
  cases htextual : rule.constraint.isTextual with
  | true => simp [Rule.declaresType_of_isTextual htextual]
  | false => rfl

/-- **The declared type does not matter to textual rules**: two blocks for a column that differ in
their type rule only come to the same outcomes for them. -/
theorem evaluateColumn_textual {b b' : Block} {o o' : ColumnOutcome}
    (hcolumn : b'.column = b.column)
    (hrules : b'.rules.filter (fun rule => !rule.declaresType)
      = b.rules.filter fun rule => !rule.declaresType)
    (h : e.evaluateColumn table b = .ok o) (h' : e.evaluateColumn table b' = .ok o') :
    o.rules.length = b.rules.length ∧ o'.rules.length = b'.rules.length ∧
      textualOutcomes b'.rules o'.rules = textualOutcomes b.rules o.rules := by
  obtain ⟨cells, outcomes, hcells, houtcomes, rfl⟩ := evaluateColumn_eq_ok_iff.mp h
  obtain ⟨cells', outcomes', hcells', houtcomes', rfl⟩ := evaluateColumn_eq_ok_iff.mp h'
  rw [mapM_eq_ok_iff] at houtcomes houtcomes'
  -- the cells of both blocks are those without a type once their readings are erased
  have huntyped : cells'.map Cell.untyped = cells.map Cell.untyped := by
    have hread := Cell.readFrom_untyped hcells
    have hread' := Cell.readFrom_untyped hcells'
    rw [hcolumn] at hread'
    exact Except.ok.inj (hread'.symm.trans hread)
  refine ⟨houtcomes.length_eq.symm, houtcomes'.length_eq.symm, ?_⟩
  rw [textualOutcomes_eq houtcomes, textualOutcomes_eq houtcomes', huntyped,
    filter_isTextual b.rules, filter_isTextual b'.rules, hrules]

/-! #### Counts as integers and as texts

Each type misreads some of them. -/

/-- Rules for counts behind the declaration of a type, if there is one. -/
def countRules (type : Option ValueType) : List Rule :=
  (type.map fun t => ⟨.hasType t, some 2⟩).toList ++
    [⟨.required, some 3⟩, ⟨.unique, some 4⟩, ⟨.compare .less (.integer 3), some 5⟩,
      ⟨.length .exactly 1, some 6⟩, ⟨.member true [.text (.text "1"), .text (.text "x")], some 7⟩]

/-- As integers, as truth values and without a type, the rules on presence, on the length and on the
set come to the same; the set of texts has no place for `01`, which is the integer one. -/
theorem countRules_textual :
    ∃ o o' o'',
      stockEngine.evaluateColumn stockTable ⟨"count", countRules (some .integer)⟩ = .ok o ∧
      stockEngine.evaluateColumn stockTable ⟨"count", countRules (some .boolean)⟩ = .ok o' ∧
      stockEngine.evaluateColumn stockTable ⟨"count", countRules none⟩ = .ok o'' ∧
      textualOutcomes (countRules (some .boolean)) o'.rules
        = textualOutcomes (countRules (some .integer)) o.rules ∧
      textualOutcomes (countRules none) o''.rules
        = textualOutcomes (countRules (some .integer)) o.rules ∧
      (textualOutcomes (countRules (some .integer)) o.rules).map (·.2.failedRows)
        = [[3], [2, 3], [2, 3, 5]] := by
  have hrows : (stockEngine.evaluateColumn stockTable
      ⟨"count", countRules (some .integer)⟩).toOption.any (fun o =>
        (textualOutcomes (countRules (some .integer)) o.rules).map (·.2.failedRows)
          == [[3], [2, 3], [2, 3, 5]]) = true := by decide +kernel
  have hothers : ∀ type ∈ [some ValueType.boolean, none], (stockEngine.evaluateColumn stockTable
      ⟨"count", countRules type⟩).toOption.any (fun _ => true) = true := by decide +kernel
  obtain ⟨o, ho, hrows⟩ := any_toOption_iff.mp hrows
  obtain ⟨o', ho', -⟩ := any_toOption_iff.mp (hothers (some .boolean) (by decide))
  obtain ⟨o'', ho'', -⟩ := any_toOption_iff.mp (hothers none (by decide))
  have hrules : ∀ type, (countRules type).filter (fun rule => !rule.declaresType)
      = (countRules (some .integer)).filter fun rule => !rule.declaresType := by
    rintro (_ | type) <;> rfl
  obtain ⟨-, -, hboolean⟩ := evaluateColumn_textual (by rfl) (hrules (some .boolean)) ho ho'
  obtain ⟨-, -, hnone⟩ := evaluateColumn_textual (by rfl) (hrules none) ho ho''
  exact ⟨o, o', o'', ho, ho', ho'', hboolean, hnone, beq_iff_eq.mp hrows⟩

end Engine

end TableRules
