import Mathlib.Tactic.SplitIfs
import TableRules.Proofs.Results
import TableRules.Ruleset.Draft

/-!
# What declarations do to a draft

Each operation on a draft is described by one equivalence: when the draft accepts the declaration,
and which draft it is then.

* What can be declared once must not be declared yet (`declareNullValues_eq_ok_iff` and the lemmas
  beside it).
* A block is for a column that has none (`beginColumn_eq_ok_iff`), and no rule declares a second
  type in it (`addRule_eq_ok_iff`).
* A conditional rule has a new name, and neither the name nor a column is empty
  (`addConditional_eq_ok_iff`).
* The settings hold what has been declared (`settings_eq_ok_iff`).
-/

namespace TableRules

open Result

/-- A field has no fault exactly if it is not empty. -/
theorem emptyFault_eq_nil_iff (field : String) {text : String} :
    emptyFault field text = [] ↔ text ≠ "" := by
  rw [emptyFault, ne_eq, ← String.isEmpty_iff]
  split_ifs with h <;> simp [h]

theorem Settings.readSeparator_some_eq_ok_iff {text : String} {s : Option Separator} :
    readSeparator (some text) = .ok s ↔
      ∃ sep, Separator.ofText? text = some sep ∧ s = some sep := by
  rw [readSeparator]
  cases Separator.ofText? text <;> simp [eq_comm]

namespace Draft

variable {d d' : Draft} {column name : String} {rule : Rule} {a c : String × Rule}
  {line : Option Int}

/-! ### Settings and columns -/

theorem declareNullValues_eq_ok_iff {values : List String} :
    d.declareNullValues values = .ok d' ↔
      d.nullValues = none ∧ d' = { d with nullValues := some values } := by
  unfold declareNullValues
  cases d.nullValues <;> simp [eq_comm]

theorem declareSeparator_eq_ok_iff {separator : Option String} :
    d.declareSeparator separator = .ok d' ↔
      d.separator = none ∧ ∃ s, Settings.readSeparator separator = .ok s ∧
        d' = { d with separator := some s } := by
  unfold declareSeparator
  cases d.separator with
  | some _ => simp
  | none => cases Settings.readSeparator separator <;> simp [eq_comm]

/-- A separator that is declared by its text is one of the known ones. -/
theorem declareSeparator_some_eq_ok_iff {text : String} :
    d.declareSeparator (some text) = .ok d' ↔
      d.separator = none ∧ ∃ sep, Separator.ofText? text = some sep ∧
        d' = { d with separator := some (some sep) } := by
  simp only [declareSeparator_eq_ok_iff, Settings.readSeparator_some_eq_ok_iff]
  constructor
  · rintro ⟨hnone, _, ⟨sep, hsep, rfl⟩, hd⟩
    exact ⟨hnone, sep, hsep, hd⟩
  · rintro ⟨hnone, sep, hsep, hd⟩
    exact ⟨hnone, _, ⟨sep, hsep, rfl⟩, hd⟩

theorem declarePrecision_eq_ok_iff {epsilon : Number} :
    d.declarePrecision epsilon = .ok d' ↔
      d.precision = none ∧ epsilon.isAtMostZero = false ∧
        d' = { d with precision := some epsilon } := by
  unfold declarePrecision
  cases d.precision with
  | some _ => simp
  | none => cases epsilon.isAtMostZero <;> simp [eq_comm]

theorem restrictFormats_eq_ok_iff {names : List String} :
    d.restrictFormats names = .ok d' ↔
      names ≠ [] ∧ d' = { d with dateFormats := some names } := by
  rw [restrictFormats, ← List.isEmpty_eq_false_iff]
  cases names.isEmpty <;> simp [eq_comm]

theorem declareColumns_eq_ok_iff {names : List String} :
    d.declareColumns names = .ok d' ↔
      d.names = none ∧ names ≠ [] ∧ d' = { d with names := some names } := by
  rw [declareColumns, ← List.isEmpty_eq_false_iff]
  cases d.names with
  | some _ => simp
  | none => cases names.isEmpty <;> simp [eq_comm]

/-! ### Blocks -/

theorem hasBlock_eq_false_iff :
    d.hasBlock column = false ↔ column ∉ d.blocks.map Prod.fst := by
  rw [hasBlock, rules?, Option.isSome_eq_false_iff, Option.isNone_iff_eq_none,
    List.lookup_eq_none_iff]
  constructor
  · intro h hmem
    obtain ⟨e, he, rfl⟩ := List.mem_map.mp hmem
    exact absurd (h e he) (by simp)
  · intro h e he
    rw [bne_iff_ne]
    rintro rfl
    exact h (List.mem_map_of_mem he)

theorem beginColumn_eq_ok_iff :
    d.beginColumn column = .ok d' ↔
      column ∉ d.blocks.map Prod.fst ∧ d' = { d with blocks := d.blocks ++ [(column, [])] } := by
  rw [beginColumn, ← hasBlock_eq_false_iff]
  cases d.hasBlock column <;> simp [eq_comm]

/-- A rule declares no type, or the rules for its column declare none. -/
def HasRoom (d : Draft) (column : String) (rule : Rule) : Prop :=
  rule.declaresType = true → ∀ r ∈ (d.rules? column).getD [], r.declaresType = false

theorem addRule_eq_ok_iff :
    d.addRule column rule = .ok d' ↔
      d.HasRoom column rule ∧ d' = { d with blocks := appendRule column rule d.blocks } := by
  rw [addRule, HasRoom]
  split_ifs with hsecond
  · rw [Bool.and_eq_true, List.any_eq_true] at hsecond
    obtain ⟨htype, r, hr, hrtype⟩ := hsecond
    refine ⟨fun h => by simp at h, fun h => ?_⟩
    rw [h.1 htype r hr] at hrtype
    cases hrtype
  · rw [Except.ok.injEq, eq_comm]
    refine ⟨fun h => ⟨fun htype r hr => ?_, h⟩, And.right⟩
    rw [Bool.and_eq_true, List.any_eq_true] at hsecond
    exact Bool.eq_false_iff.mpr fun hrtype => hsecond ⟨htype, r, hr, hrtype⟩

/-- The rules of all blocks are those from before and the new one. -/
theorem flatMap_appendRule_perm (column : String) (rule : Rule)
    (blocks : List (String × List Rule)) :
    ((appendRule column rule blocks).flatMap Prod.snd).Perm
      (rule :: blocks.flatMap Prod.snd) := by
  induction blocks with
  | nil => exact .refl _
  | cons block blocks ih =>
    obtain ⟨name, rules⟩ := block
    rw [appendRule]
    split_ifs
    · simp only [List.flatMap_cons, List.append_assoc, List.singleton_append]
      exact List.perm_middle
    · simp only [List.flatMap_cons]
      exact (ih.append_left rules).trans List.perm_middle

/-! ### Conditional rules -/

theorem hasConditional_eq_false_iff :
    d.hasConditional name = false ↔ name ∉ d.conditionals.map Conditional.name := by
  rw [hasConditional, List.any_eq_false]
  constructor
  · intro h hmem
    obtain ⟨c, hc, rfl⟩ := List.mem_map.mp hmem
    exact h c hc (beq_self_eq_true _)
  · rintro h c hc heq
    exact h (beq_iff_eq.mp heq ▸ List.mem_map_of_mem hc)

private theorem clauseMake_eq_ok_iff {clause : Clause} :
    Clause.make column rule = .ok clause ↔ column ≠ "" ∧ clause = ⟨column, rule⟩ := by
  rw [Clause.make, ← emptyFault_eq_nil_iff "column"]
  cases emptyFault "column" column <;> simp [eq_comm]

private theorem conditionalMake_eq_ok_iff {antecedent consequent : Clause} {made : Conditional} :
    Conditional.make name antecedent consequent line = .ok made ↔
      name ≠ "" ∧ made = ⟨name, antecedent, consequent, line⟩ := by
  rw [Conditional.make, ← emptyFault_eq_nil_iff "name"]
  cases emptyFault "name" name <;> simp [eq_comm]

/-- The draft with one more conditional rule. -/
def withConditional (d : Draft) (c : Conditional) : Draft :=
  { d with conditionals := d.conditionals ++ [c] }

/-- A conditional rule of a new name is added if neither the name nor a column is empty. -/
theorem addConditional_eq_ok_iff :
    d.addConditional name a c line = .ok d' ↔
      name ∉ d.conditionals.map Conditional.name ∧ name ≠ "" ∧ a.1 ≠ "" ∧ c.1 ≠ "" ∧
        d' = d.withConditional ⟨name, ⟨a.1, a.2⟩, ⟨c.1, c.2⟩, line⟩ := by
  have hmade : ∀ {made : Conditional},
      (do
        let antecedent ← Clause.make a.1 a.2
        let consequent ← Clause.make c.1 c.2
        Conditional.make name antecedent consequent line) = .ok made ↔
      name ≠ "" ∧ a.1 ≠ "" ∧ c.1 ≠ "" ∧ made = ⟨name, ⟨a.1, a.2⟩, ⟨c.1, c.2⟩, line⟩ := by
    intro made
    simp only [bind_eq_ok_iff, clauseMake_eq_ok_iff, conditionalMake_eq_ok_iff]
    constructor
    · rintro ⟨_, ⟨ha, rfl⟩, _, ⟨hc, rfl⟩, hname, rfl⟩
      exact ⟨hname, ha, hc, rfl⟩
    · rintro ⟨hname, ha, hc, rfl⟩
      exact ⟨_, ⟨ha, rfl⟩, _, ⟨hc, rfl⟩, hname, rfl⟩
  rw [addConditional, ← hasConditional_eq_false_iff]
  cases hhas : d.hasConditional name with
  | true => simp
  | false =>
    simp only [Bool.false_eq_true, if_false, true_and]
    split
    · rename_i faults herror
      simp only [reduceCtorEq, false_iff]
      rintro ⟨hname, ha, hc, -⟩
      rw [hmade.mpr ⟨hname, ha, hc, rfl⟩] at herror
      simp at herror
    · rename_i made hok
      obtain ⟨hname, ha, hc, rfl⟩ := hmade.mp hok
      simp only [Except.ok.injEq]
      exact ⟨fun h => ⟨hname, ha, hc, h.symm⟩, fun h => h.2.2.2.symm⟩

/-! ### The settings -/

/-- The settings of a draft are what it has declared. -/
theorem settings_eq_ok_iff {s : Settings} :
    d.settings = .ok s ↔ s.nullValues = d.nullValues.getD [] ∧ s.separator = d.separator.join ∧
      d.precisionValue? = some s.precision := by
  unfold settings
  constructor
  · intro h
    split at h
    · cases h
    · rename_i p hp
      obtain rfl := Except.ok.inj h
      exact ⟨rfl, rfl, Settings.readPrecision_eq_ok_iff.mp hp⟩
  · obtain ⟨nullValues, separator, precision, hpos⟩ := s
    rintro ⟨rfl, rfl, hprecision⟩
    have hread : Settings.readPrecision d.precisionValue? = .ok ⟨precision, hpos⟩ :=
      Settings.readPrecision_eq_ok_iff.mpr hprecision
    rw [hread]
    rfl

end Draft

/-- The rules of the blocks and the conditional rules of a draft. -/
def Draft.allRules (d : Draft) : List Rule :=
  d.blocks.flatMap Prod.snd ++ d.conditionals.flatMap fun c => c.clauses.map Clause.rule

end TableRules
