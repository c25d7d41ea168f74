import TableRules.Proofs.Evaluation.RuleOutcomes

/-!
# More null values

A ruleset may declare further texts that stand for no value. Cells with such a text become null, and
all other cells are read as before. What that means for a rule depends on whether the rule accepts
null cells (`Constraint.AcceptsNull`):

* A cell keeps satisfying a constraint that accepts null cells; a constraint on uniqueness among
  them, because fewer cells are left that could be equal.
* A cell that satisfies any other constraint is not null, and so has satisfied it before.

Both are statements about raw columns (`RawColumn.satisfies_withNulls`,
`RawColumn.satisfies_of_withNulls`). Evaluating the rules of a block carries them over to outcomes.

**Main result** (`Engine.evaluateColumn_addsNulls`): with more null values, rules that accept null
cells fail at most the rows that they failed before, and all others at least these.
-/

namespace TableRules

/-- Settings that differ from others by further null values only. -/
structure Settings.AddsNulls (s s' : Settings) : Prop where
  nullValues : s.nullValues ⊆ s'.nullValues
  separator : s'.separator = s.separator
  precision : s'.precision = s.precision

theorem Settings.addsNulls_with {s : Settings} {nulls : List String} (h : s.nullValues ⊆ nulls) :
    s.AddsNulls { s with nullValues := nulls } :=
  ⟨h, rfl, rfl⟩

theorem Settings.AddsNulls.eq {s s' : Settings} (h : s.AddsNulls s') :
    s' = { s with nullValues := s'.nullValues } := by
  obtain ⟨nulls, separator, precision, hpos⟩ := s'
  obtain ⟨-, rfl, rfl⟩ := h
  rfl

namespace RuleKind

/-- The kinds of rules that accept null cells. -/
def acceptsNull : List RuleKind := [.isNull, .typeIs, .formatIs, .unique]

end RuleKind

theorem Constraint.acceptsNull_iff {c : Constraint} :
    c.kind ∈ RuleKind.acceptsNull ↔ c.AcceptsNull := by
  rw [RuleKind.acceptsNull]
  cases c with
  | member allowed items => cases allowed <;> simp [kind, AcceptsNull]
  | text equal w => cases equal <;> simp [kind, AcceptsNull]
  | compare op n => cases op <;> simp [kind, AcceptsNull]
  | length bound n => cases bound <;> simp [kind, AcceptsNull]
  | part condition w => cases condition <;> simp [kind, AcceptsNull]
  | digits kind n => cases kind <;> simp [Constraint.kind, AcceptsNull]
  | _ => simp [kind, AcceptsNull]

namespace RawColumn

/-- A column that is read with other null values. -/
def withNulls (col : RawColumn) (nulls : List String) : RawColumn :=
  { col with settings := { col.settings with nullValues := nulls } }

variable {col : RawColumn} {nulls : List String} {row : Nat} {raw raw' : Option String}

/-- A null cell stays null. -/
theorem IsNull.withNulls (h : col.settings.nullValues ⊆ nulls) (hnull : col.IsNull raw) :
    (col.withNulls nulls).IsNull raw :=
  hnull.imp_right fun htext => htext.imp_right fun hmem => h hmem

/-! ### Cells that are not null -/

/-- A cell that is null under neither is coerced alike under both. -/
theorem coercesTo_withNulls_iff (h : ¬ col.IsNull raw) (h' : ¬ (col.withNulls nulls).IsNull raw)
    {t : ValueType} {v : TypedValue} :
    (col.withNulls nulls).CoercesTo raw t v ↔ col.CoercesTo raw t v := by
  rw [← isNull_iff] at h h'
  rw [CoercesTo, CoercesTo, coerce, coerce, if_neg h, if_neg h']
  cases t <;> rfl

section

variable (h : ¬ col.IsNull raw) (h' : ¬ (col.withNulls nulls).IsNull raw)

include h h'

theorem readsReal_withNulls_iff {text : String} {x : Value} :
    (col.withNulls nulls).ReadsReal raw text x ↔ col.ReadsReal raw text x :=
  exists_congr fun _ => exists_congr fun _ => and_congr_right fun _ => and_congr_right fun _ =>
    and_congr_left fun _ => coercesTo_withNulls_iff h h'

theorem hasNumber_withNulls_iff {a : Double} :
    (col.withNulls nulls).HasNumber raw a ↔ col.HasNumber raw a :=
  exists_congr fun _ => exists_congr fun _ => and_congr_left fun _ => readsReal_withNulls_iff h h'

theorem hasSetNumber_withNulls_iff {a : Double} :
    (col.withNulls nulls).HasSetNumber raw a ↔ col.HasSetNumber raw a := by
  refine or_congr (hasNumber_withNulls_iff h h') (and_congr (not_congr ?_) Iff.rfl)
  exact exists_congr fun _ => exists_congr fun _ => readsReal_withNulls_iff h h'

theorem inSet_withNulls_iff {items : List SetItem} :
    (col.withNulls nulls).InSet raw items ↔ col.InSet raw items := by
  refine or_congr Iff.rfl (exists_congr fun n => exists_congr fun b => exists_congr fun a => ?_)
  exact and_congr_right fun _ => and_congr_right fun _ => and_congr_left fun _ =>
    hasSetNumber_withNulls_iff h h'

theorem hasTypedKey_withNulls_iff {x : Value} {format : Option String} :
    (col.withNulls nulls).HasTypedKey raw x format ↔ col.HasTypedKey raw x format :=
  exists_congr fun _ => exists_congr fun _ => and_congr_right fun _ => and_congr_left fun _ =>
    coercesTo_withNulls_iff h h'

end

/-- Cells that are null under neither have equal keys under both or under none. -/
theorem sameKey_withNulls_iff (h : ¬ col.IsNull raw) (h' : ¬ (col.withNulls nulls).IsNull raw)
    (hother : ¬ col.IsNull raw') (hother' : ¬ (col.withNulls nulls).IsNull raw') :
    (col.withNulls nulls).SameKey raw raw' ↔ col.SameKey raw raw' := by
  simp only [SameKey, hasTypedKey_withNulls_iff h h', hasTypedKey_withNulls_iff hother hother']

/-- Apart from uniqueness, which depends on other cells too, a cell that is null under neither meets
a constraint under both or under none. -/
theorem meets_withNulls_iff (h : ¬ col.IsNull raw) (h' : ¬ (col.withNulls nulls).IsNull raw)
    {c : Constraint} (hunique : c ≠ .unique) :
    (col.withNulls nulls).Meets row raw c ↔ col.Meets row raw c := by
  cases c with
  | hasType t => exact exists_congr fun v => coercesTo_withNulls_iff h h'
  | unique => exact absurd rfl hunique
  | member allowed items => exact iff_congr (inSet_withNulls_iff h h') Iff.rfl
  | compare op n =>
    exact exists_congr fun a => exists_congr fun b => and_congr_left fun _ =>
      hasNumber_withNulls_iff h h'
  | digits kind count =>
    exact exists_congr fun text => exists_congr fun x => exists_congr fun d =>
      and_congr_left fun _ => readsReal_withNulls_iff h h'
  | _ => exact Iff.rfl

/-! ### Satisfaction -/

/-- **With more null values** a cell keeps satisfying a constraint that accepts null cells. -/
theorem satisfies_withNulls (hnulls : col.settings.nullValues ⊆ nulls) {c : Constraint}
    (hc : c.AcceptsNull) (h : col.Satisfies row raw c) :
    (col.withNulls nulls).Satisfies row raw c := by
  refine ⟨h.1, ?_⟩
  by_cases hnull : (col.withNulls nulls).IsNull raw
  · exact .inl ⟨hnull, hc⟩
  · have hbefore : ¬ col.IsNull raw := fun hn => hnull (hn.withNulls hnulls)
    have hmeets : col.Meets row raw c := (h.2.resolve_left fun hn => hbefore hn.1).2
    refine .inr ⟨hnull, ?_⟩
    by_cases hunique : c = .unique
    · -- a cell that is still there and equal was there and equal before
      subst hunique
      intro row' raw' hcell hne hnull' hsame
      have hbefore' : ¬ col.IsNull raw' := fun hn => hnull' (hn.withNulls hnulls)
      exact hmeets row' raw' hcell hne hbefore'
        ((sameKey_withNulls_iff hbefore hnull hbefore' hnull').mp hsame)
    · exact (meets_withNulls_iff hbefore hnull hunique).mpr hmeets

/-- **With more null values** a cell satisfies a constraint that does not accept null cells only if
it has satisfied it before. -/
theorem satisfies_of_withNulls (hnulls : col.settings.nullValues ⊆ nulls) {c : Constraint}
    (hc : ¬ c.AcceptsNull) (h : (col.withNulls nulls).Satisfies row raw c) :
    col.Satisfies row raw c := by
  obtain ⟨hnull, hmeets⟩ := h.2.resolve_left fun hn => hc hn.2
  have hbefore : ¬ col.IsNull raw := fun hn => hnull (hn.withNulls hnulls)
  have hunique : c ≠ .unique := fun heq => hc (heq ▸ trivial)
  exact ⟨h.1, .inr ⟨hbefore, (meets_withNulls_iff hbefore hnull hunique).mp hmeets⟩⟩

end RawColumn

namespace Engine

variable {e e' : Engine} {table : Table}

/-- The outcomes of one rule before and after null values were added: if the rule accepts null
cells, it fails at most the rows that it failed before, and otherwise at least these. -/
def NullShift (rule : Rule) (o o' : RuleOutcome) : Prop :=
  if rule.kind ∈ RuleKind.acceptsNull then o'.failedRows ⊆ o.failedRows
  else o.failedRows ⊆ o'.failedRows

/-- The outcomes of a block judge its rules. -/
theorem judges_of_evaluateColumn {b : Block} {o : ColumnOutcome}
    (h : e.evaluateColumn table b = .ok o) :
    List.Forall₂ (RawColumn.ofTable e table b.column b.valueType).Judges b.rules o.rules := by
  obtain ⟨cells, outcomes, hcells, houtcomes, rfl⟩ := evaluateColumn_eq_ok_iff.mp h
  exact (Result.mapM_eq_ok_iff.mp houtcomes).imp fun _ _ => judges_of_evaluateRule hcells

/-- Outcomes that judge a rule before and after null values were added are shifted. -/
theorem nullShift_of_judges {col : RawColumn} {nulls : List String} {rule : Rule}
    {o o' : RuleOutcome} (hnulls : col.settings.nullValues ⊆ nulls) (h : col.Judges rule o)
    (h' : (col.withNulls nulls).Judges rule o') : NullShift rule o o' := by
  have hkind : rule.kind ∈ RuleKind.acceptsNull ↔ rule.constraint.AcceptsNull :=
    Constraint.acceptsNull_iff
  unfold NullShift
  split_ifs with haccepts
  · intro row hrow
    obtain ⟨raw, hcell, hfails⟩ := (h'.mem_failedRows_iff row).mp hrow
    refine (h.mem_failedRows_iff row).mpr ⟨raw, hcell, fun hsat => hfails ?_⟩
    exact RawColumn.satisfies_withNulls hnulls (hkind.mp haccepts) hsat
  · intro row hrow
    obtain ⟨raw, hcell, hfails⟩ := (h.mem_failedRows_iff row).mp hrow
    refine (h'.mem_failedRows_iff row).mpr ⟨raw, hcell, fun hsat => hfails ?_⟩
    exact RawColumn.satisfies_of_withNulls hnulls (fun hc => haccepts (hkind.mpr hc)) hsat

/-- **More null values.** Take two engines whose settings differ only in that the second has further
null values, and a block and a table that both evaluate. Then each rule of the block has an outcome
under both, and if it is for null, for a type, for a format or for uniqueness, every row that fails
it under the second engine fails it under the first; if it is any other rule, every row that fails
it under the first engine fails it under the second. -/
theorem evaluateColumn_addsNulls (e e' : Engine) (table : Table) (b : Block)
    (o o' : ColumnOutcome) (hsettings : e.settings.AddsNulls e'.settings)
    (hcatalog : e'.catalog = e.catalog) (h : e.evaluateColumn table b = .ok o)
    (h' : e'.evaluateColumn table b = .ok o') :
    o.rules.length = b.rules.length ∧ o'.rules.length = b.rules.length ∧
      ∀ (i : Nat) (rule : Rule), b.rules[i]? = some rule →
        ∃ r r', o.rules[i]? = some r ∧ o'.rules[i]? = some r' ∧ NullShift rule r r' := by
  have hcolumn : RawColumn.ofTable e' table b.column b.valueType
      = (RawColumn.ofTable e table b.column b.valueType).withNulls e'.settings.nullValues := by
    rw [RawColumn.ofTable, hcatalog, hsettings.eq]
    rfl
  have hrules := judges_of_evaluateColumn h
  have hrules' := judges_of_evaluateColumn h'
  refine ⟨hrules.length_eq.symm, hrules'.length_eq.symm, fun i rule hrule => ?_⟩
  obtain ⟨r, hr, hjudges⟩ := Result.exists_getElem?_of_forall₂ hrules hrule
  obtain ⟨r', hr', hjudges'⟩ := Result.exists_getElem?_of_forall₂ hrules' hrule
  exact ⟨r, r', hr, hr', nullShift_of_judges hsettings.nullValues hjudges (hcolumn ▸ hjudges')⟩

/-! #### Stock counts with null values

The stock counts once more, where `x` and `1` stand for no value. The count that is no integer then
fails the type no longer, and the count that was repeated is unique; but a null cell fails to be
outside a set. -/

/-- The engine of the stock counts with null values. -/
def nullStockEngine : Engine :=
  { stockEngine with
    ruleset := { stockEngine.ruleset with settings := { Settings.standard with
      nullValues := ["x", "1"] } } }

/-- The rows that fail the rules of the stock counts, without and with null values. -/
theorem stockBlock_addsNulls :
    stockEngine.settings.AddsNulls nullStockEngine.settings ∧
      nullStockEngine.catalog = stockEngine.catalog ∧
      ∃ o o', stockEngine.evaluateColumn stockTable stockBlock = .ok o ∧
        nullStockEngine.evaluateColumn stockTable stockBlock = .ok o' ∧
        (∀ (i : Nat) (rule : Rule), stockBlock.rules[i]? = some rule →
          ∃ r r', o.rules[i]? = some r ∧ o'.rules[i]? = some r' ∧ NullShift rule r r') ∧
        o.rules.map RuleOutcome.failedRows = [[4], [1, 2], [1, 2, 3, 4], [3, 4, 5]] ∧
        o'.rules.map RuleOutcome.failedRows = [[], [], [1, 2, 3, 4], [1, 3, 4, 5]] := by
  have hsettings : stockEngine.settings.AddsNulls nullStockEngine.settings :=
    Settings.addsNulls_with (s := Settings.standard) (List.nil_subset ["x", "1"])
  have hrun : (stockEngine.evaluateColumn stockTable stockBlock).toOption.any (fun o =>
      o.rules.map RuleOutcome.failedRows == [[4], [1, 2], [1, 2, 3, 4], [3, 4, 5]]) = true := by
    decide +kernel
  have hrun' : (nullStockEngine.evaluateColumn stockTable stockBlock).toOption.any (fun o =>
      o.rules.map RuleOutcome.failedRows == [[], [], [1, 2, 3, 4], [1, 3, 4, 5]]) = true := by
    decide +kernel
  obtain ⟨o, ho, hrows⟩ := Result.any_toOption_iff.mp hrun
  obtain ⟨o', ho', hrows'⟩ := Result.any_toOption_iff.mp hrun'
  obtain ⟨-, -, hshift⟩ := evaluateColumn_addsNulls stockEngine nullStockEngine stockTable
    stockBlock o o' hsettings rfl ho ho'
  exact ⟨hsettings, rfl, o, o', ho, ho', hshift, beq_iff_eq.mp hrows, beq_iff_eq.mp hrows'⟩

end Engine

end TableRules
