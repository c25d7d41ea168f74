import Mathlib.Data.List.Sort
import TableRules.Proofs.Evaluation.ConditionalOutcomes

/-!
# The order of the rules of a block does not matter

The type that a block declares is found by looking through its rules, and decides how the cells of
its column are read, for all its rules and for the conditional rules on the column. Since a block
declares at most one type, the order of its rules has no influence on it (`Block.valueType_perm`).
All else is done rule by rule.

**Main result** (`Engine.evaluateColumn_rearranged`): the rules of a block can be put into any
order. Each keeps its outcome, the column as a whole fails in the same rows, and the conditional
rules come to the same.
-/

namespace TableRules

open Result

/-! ### Types -/

/-- Lists of at most one member in any order are the same. -/
private theorem eq_of_perm_of_length_le_one {α : Type} {xs ys : List α} (hperm : xs.Perm ys)
    (hlen : ys.length ≤ 1) : xs = ys := by
  cases ys with
  | nil => exact hperm.eq_nil
  | cons y ys =>
    obtain rfl : ys = [] := List.eq_nil_of_length_eq_zero (by simpa using hlen)
    exact hperm.eq_singleton

/-- The type of a block that declares at most one does not depend on the order of its rules. -/
theorem Block.valueType_perm {b : Block} {rules : List Rule}
    (htypes : (b.rules.filter Rule.declaresType).length ≤ 1) (hperm : rules.Perm b.rules) :
    Block.valueType ⟨b.column, rules⟩ = b.valueType := by
  have hlen : (b.rules.filterMap fun r => r.constraint.declaredType?).length ≤ 1 := by
    rw [List.length_filterMap_eq_countP, List.countP_eq_length_filter]
    exact htypes
  rw [valueType, valueType, ← List.head?_filterMap, ← List.head?_filterMap,
    eq_of_perm_of_length_le_one (hperm.filterMap _) hlen]

/-- Exchanging a block for one with the same column changes no column. -/
theorem Block.columns_exchange {blocks before after : List Block} {b b' : Block}
    (hblocks : blocks = before ++ b :: after) (hcolumn : b'.column = b.column) :
    (before ++ b' :: after).map column = blocks.map column := by
  rw [hblocks, List.map_append, List.map_append, List.map_cons, List.map_cons, hcolumn]

/-- Exchanging a block for one with the same column and type changes no declared type. -/
theorem Ruleset.declaredType_exchange {r r' : Ruleset} {before after : List Block} {b b' : Block}
    (hblocks : r.blocks = before ++ b :: after) (hblocks' : r'.blocks = before ++ b' :: after)
    (hcolumn : b'.column = b.column) (htype : b'.valueType = b.valueType) (column : String) :
    r'.declaredType column = r.declaredType column := by
  unfold declaredType block?
  rw [hblocks, hblocks', List.find?_append, List.find?_append, List.find?_cons, List.find?_cons,
    hcolumn]
  cases before.find? fun b => b.column == column with
  | some first => rfl
  | none =>
    cases b.column == column with
    | true => exact htype
    | false => rfl

namespace ColumnOutcome

/-- An outcome for other blocks of the same rules: each rule keeps its outcome, and the column as a
whole comes to the same. -/
structure Rearranges (b b' : Block) (o o' : ColumnOutcome) : Prop where
  length_eq : o.rules.length = b.rules.length
  length_eq' : o'.rules.length = b'.rules.length
  rules : (b'.rules.zip o'.rules).Perm (b.rules.zip o.rules)
  column : o'.column = o.column
  failedRows : o'.failedRows = o.failedRows
  allPassed : o'.allPassed = o.allPassed
  missingValues : o'.missingValues = o.missingValues

theorem Rearranges.symm {b b' : Block} {o o' : ColumnOutcome} (h : Rearranges b b' o o') :
    Rearranges b' b o' o :=
  ⟨h.length_eq', h.length_eq, h.rules.symm, h.column.symm, h.failedRows.symm, h.allPassed.symm,
    h.missingValues.symm⟩

variable {o o' : ColumnOutcome}

/-- The failed rows of a column do not depend on the order of its rules. -/
theorem failedRows_perm (h : o'.rules.Perm o.rules) : o'.failedRows = o.failedRows := by
  have hdistinct : (Text.distinct (o'.rules.flatMap RuleOutcome.failedRows)).Perm
      (Text.distinct (o.rules.flatMap RuleOutcome.failedRows)) := by
    refine (List.perm_ext_iff_of_nodup (Text.nodup_distinct _) (Text.nodup_distinct _)).mpr ?_
    intro row
    rw [Text.mem_distinct_iff, Text.mem_distinct_iff]
    exact (h.flatMap_right _).mem_iff
  have hsorted : ∀ rows : List Nat, rows.mergeSort.Pairwise (· ≤ ·) := fun rows =>
    rows.pairwise_mergeSort' (· ≤ ·)
  refine List.Perm.eq_of_pairwise' (hsorted _) (hsorted _) ?_
  exact (List.mergeSort_perm _ _).trans (hdistinct.trans (List.mergeSort_perm _ _).symm)

theorem allPassed_perm (h : o'.rules.Perm o.rules) : o'.allPassed = o.allPassed :=
  h.all_eq

end ColumnOutcome

namespace Engine

variable {e : Engine} {table : Table}

/-- An engine with other blocks for the same columns. -/
def withBlocks (e : Engine) (blocks : List Block)
    (hcolumns : blocks.map Block.column = e.ruleset.blocks.map Block.column) : Engine :=
  { e with
    ruleset := { e.ruleset with
      blocks := blocks, blocks_nodup := hcolumns ▸ e.ruleset.blocks_nodup } }

/-- Evaluating the rules of a block in another order gives each the same outcome. -/
theorem evaluateColumn_perm {b b' : Block} (hcolumn : b'.column = b.column)
    (htype : b'.valueType = b.valueType) (hperm : b'.rules.Perm b.rules) {o : ColumnOutcome}
    (h : e.evaluateColumn table b = .ok o) :
    ∃ o', e.evaluateColumn table b' = .ok o' ∧ ColumnOutcome.Rearranges b b' o o' := by
  obtain ⟨cells, outcomes, hcells, houtcomes, rfl⟩ := evaluateColumn_eq_ok_iff.mp h
  obtain ⟨outcomes', houtcomes', hzip⟩ := mapM_perm hperm houtcomes
  have hlen := (mapM_eq_ok_iff.mp houtcomes).length_eq
  have hlen' := (mapM_eq_ok_iff.mp houtcomes').length_eq
  have houter : outcomes'.Perm outcomes := by
    have hsnd := hzip.map Prod.snd
    rwa [List.map_snd_zip hlen'.ge, List.map_snd_zip hlen.ge] at hsnd
  refine ⟨⟨b'.column, outcomes', (cells.filter Cell.isNull).length⟩, ?_, hlen.symm, hlen'.symm,
    hzip, hcolumn, ColumnOutcome.failedRows_perm houter, ColumnOutcome.allPassed_perm houter, rfl⟩
  rw [← hcolumn, ← htype] at hcells
  rw [← htype] at houtcomes'
  exact evaluateColumn_eq_ok_iff.mpr ⟨cells, outcomes', hcells, houtcomes', rfl⟩

/-- A conditional rule depends on the blocks by the types that they declare. -/
theorem evaluateConditional_withBlocks {blocks : List Block}
    {hcolumns : blocks.map Block.column = e.ruleset.blocks.map Block.column}
    (h : ∀ column, (e.withBlocks blocks hcolumns).ruleset.declaredType column
      = e.ruleset.declaredType column) (c : Conditional) :
    (e.withBlocks blocks hcolumns).evaluateConditional table c
      = e.evaluateConditional table c := by
  have htype : ∀ clause,
      (e.withBlocks blocks hcolumns).clauseType clause = e.clauseType clause :=
    fun clause => congrArg clause.rule.constraint.declaredType?.or (h clause.column)
  unfold evaluateConditional antecedentRows consequentFailures
  simp only [htype]
  rfl

/-- **The order of the rules of a block does not matter.** If the rules of a block that declares at
most one type, as `Block.make` demands, are put into another order, the block is evaluated exactly
where it was before; each rule keeps its outcome, and the column as a whole comes to the same. All
conditional rules come to the same. -/
theorem evaluateColumn_rearranged (e : Engine) (table : Table) (before after : List Block)
    (b : Block) (rules : List Rule) (hblocks : e.ruleset.blocks = before ++ b :: after)
    (htypes : (b.rules.filter Rule.declaresType).length ≤ 1) (hperm : rules.Perm b.rules) :
    let moved : Block := ⟨b.column, rules⟩
    let e' := e.withBlocks (before ++ moved :: after) (Block.columns_exchange hblocks rfl)
    (∀ o, e.evaluateColumn table b = .ok o →
      ∃ o', e'.evaluateColumn table moved = .ok o' ∧ ColumnOutcome.Rearranges b moved o o') ∧
    (∀ o', e'.evaluateColumn table moved = .ok o' →
      ∃ o, e.evaluateColumn table b = .ok o ∧ ColumnOutcome.Rearranges b moved o o') ∧
    ∀ c, e'.evaluateConditional table c = e.evaluateConditional table c := by
  intro moved e'
  have hcolumn : moved.column = b.column := rfl
  have hrules : moved.rules.Perm b.rules := hperm
  have htype : moved.valueType = b.valueType := Block.valueType_perm htypes hperm
  refine ⟨fun o ho => ?_, fun o' ho' => ?_, fun c => ?_⟩
  · -- a column is evaluated by its block alone, so that the blocks of the engine may differ
    have ho : e'.evaluateColumn table b = .ok o := ho
    exact evaluateColumn_perm hcolumn htype hrules ho
  · obtain ⟨o, ho, hrearranges⟩ := evaluateColumn_perm hcolumn.symm htype.symm hrules.symm ho'
    exact ⟨o, ho, hrearranges.symm⟩
  · exact evaluateConditional_withBlocks (Ruleset.declaredType_exchange hblocks rfl hcolumn htype) c

/-! #### Parcels with the type last

The weights of the parcels are to be different and light. The type that both rules and the
conditional rule on the weights are evaluated with is declared first, and then last. -/

/-- The rules for the weights. -/
def weightBlock : Block :=
  ⟨"weight", [⟨.hasType .integer, some 3⟩, ⟨.unique, some 4⟩,
    ⟨.compare .less (.integer 20), some 5⟩]⟩

/-- The same rules, the type last. -/
def typeLastRules : List Rule :=
  [⟨.compare .less (.integer 20), some 5⟩, ⟨.unique, some 4⟩, ⟨.hasType .integer, some 3⟩]

/-- An engine with these rules and a conditional rule on the weights. -/
def weightEngine : Engine :=
  ⟨⟨.standard, ⟨["weight", "carrier"], false, false, false⟩,
    [⟨"carrier", [⟨.required, some 1⟩]⟩, weightBlock], [parcelRule], none, by decide,
    List.nodup_singleton "heavy"⟩, .standard, 1⟩

/-- The same engine with the type last. -/
def typeLastEngine : Engine :=
  weightEngine.withBlocks [⟨"carrier", [⟨.required, some 1⟩]⟩, ⟨"weight", typeLastRules⟩] rfl

/-- The parcels fail the same rules with the type last, and the heavy ones are the same. -/
theorem weightBlock_rearranged :
    weightEngine.ruleset.blocks = [⟨"carrier", [⟨.required, some 1⟩]⟩] ++ weightBlock :: [] ∧
      (weightBlock.rules.filter Rule.declaresType).length ≤ 1 ∧
      typeLastRules.Perm weightBlock.rules ∧
      (∃ o o', weightEngine.evaluateColumn parcelTable weightBlock = .ok o ∧
        typeLastEngine.evaluateColumn parcelTable ⟨"weight", typeLastRules⟩ = .ok o' ∧
        ColumnOutcome.Rearranges weightBlock ⟨"weight", typeLastRules⟩ o o' ∧
        o.rules.map RuleOutcome.failedRows = [[3], [4, 5], [2, 3, 4, 5]]) ∧
      typeLastEngine.evaluateConditional parcelTable parcelRule
        = .ok ⟨"heavy", .failed, [4, 5], [4], none⟩ := by
  have htypes : (weightBlock.rules.filter Rule.declaresType).length ≤ 1 := by decide
  have hperm : typeLastRules.Perm weightBlock.rules :=
    List.reverse_perm weightBlock.rules
  obtain ⟨houtcome, -, hconditional⟩ :=
    evaluateColumn_rearranged weightEngine parcelTable [⟨"carrier", [⟨.required, some 1⟩]⟩] []
      weightBlock typeLastRules rfl htypes hperm
  have hrun : (weightEngine.evaluateColumn parcelTable weightBlock).toOption.any (fun o =>
      o.rules.map RuleOutcome.failedRows == [[3], [4, 5], [2, 3, 4, 5]]) = true := by
    decide +kernel
  have hheavy : weightEngine.evaluateConditional parcelTable parcelRule
      = .ok ⟨"heavy", .failed, [4, 5], [4], none⟩ := by
    decide +kernel
  obtain ⟨o, ho, hrows⟩ := any_toOption_iff.mp hrun
  obtain ⟨o', ho', hrearranges⟩ := houtcome o ho
  exact ⟨rfl, htypes, hperm, ⟨o, o', ho, ho', hrearranges, beq_iff_eq.mp hrows⟩,
    (hconditional parcelRule).trans hheavy⟩

end Engine

end TableRules
