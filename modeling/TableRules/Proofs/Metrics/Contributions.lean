import TableRules.Proofs.Evaluation.MissingValues
import TableRules.Proofs.Metrics.Registers

/-!
# What results contribute to the counters

What a validation records is a list of increments, and each series gets its share of them
(`Increment.shares`). Here this share is computed from the results that were recorded:

* for single results: the reading of a column, the outcome of a rule, the outcomes of conditional
  rules, and findings;
* for the evaluation of a block (`Engine.shares_columnIncrements_coercion`,
  `Engine.shares_columnIncrements_cells`, `Engine.shares_columnIncrements_failures`).

The cells that were read are counted by subtraction. The difference is what it should be because no
cell both is null and does not fit the type of its column (`Engine.misfits_add_nulls_le`), and so it
is not negative either.
-/

namespace TableRules

open Result

/-! ### Labels -/

namespace Labels

/-- The labels of the readings of a type. -/
def coercion (status : String) (t : ValueType) : Labels := [("status", status), ("to_type", t.name)]

/-- The labels of the rules of a family. -/
def family (f : RuleFamily) : Labels := [("rule_type", f.name)]

/-- The labels of the failures of a family in a column. -/
def failure (f : RuleFamily) (column : String) : Labels :=
  [("column", column), ("rule_type", f.name)]

/-- The labels of the conditional rules with a status. -/
def outcome (s : ConditionalStatus) : Labels := [("status", s.name)]

/-- The labels of the findings of a severity in a category. -/
def finding (s : Severity) (c : Category) : Labels := [("category", c.name), ("severity", s.name)]

end Labels

theorem ValueType.name_inj {s t : ValueType} : s.name = t.name ↔ s = t :=
  ⟨name_injective, congrArg name⟩

theorem RuleFamily.name_inj {f g : RuleFamily} : f.name = g.name ↔ f = g := by
  cases f <;> cases g <;> decide

theorem ConditionalStatus.name_inj {s t : ConditionalStatus} : s.name = t.name ↔ s = t := by
  cases s <;> cases t <;> decide

theorem Severity.name_inj {s t : Severity} : s.name = t.name ↔ s = t := by
  cases s <;> cases t <;> decide

theorem Category.name_inj {c d : Category} : c.name = d.name ↔ c = d := by
  cases c <;> cases d <;> decide

/-- The kind of a rule is found by its name. -/
theorem RuleKind.ofName?_name (k : RuleKind) : ofName? k.name = some k := by
  cases k <;> decide

/-- Labels in order stay as they are. -/
theorem sortLabels_pair {k l : String} (h : ¬l < k) (v w : String) :
    sortLabels [(k, v), (l, w)] = [(k, v), (l, w)] := by
  refine List.mergeSort_of_pairwise (List.pairwise_pair.mpr ?_)
  rw [Bool.not_eq_true', decide_eq_false_iff_not]
  exact h

theorem sortLabels_singleton (k v : String) : sortLabels [(k, v)] = [(k, v)] :=
  List.mergeSort_of_pairwise (List.pairwise_singleton _ _)

/-! ### Sums -/

/-- A sum over the members that pass a test, over all members. -/
theorem sum_map_filter {α : Type} (p : α → Prop) [DecidablePred p] (f : α → Nat)
    (xs : List α) :
    ((xs.filter fun x => p x).map f).sum = (xs.map fun x => if p x then f x else 0).sum := by
  rw [List.sum_map_ite]
  simp

/-- A sum over joined lists. -/
theorem sum_map_flatMap {α β : Type} (f : β → Nat) (g : α → List β) (xs : List α) :
    ((xs.flatMap g).map f).sum = (xs.map fun x => ((g x).map f).sum).sum := by
  rw [List.map_flatMap, List.flatMap_def, List.sum_flatten, List.map_map]
  rfl

/-! ### What single results contribute -/

namespace Increment

variable {c : Counter} {labels : Labels}

theorem shares_append (is js : List Increment) :
    shares c labels (is ++ js) = shares c labels is + shares c labels js := by
  rw [shares, List.map_append, List.sum_append]
  rfl

theorem shares_flatMap {α : Type} (g : α → List Increment) (xs : List α) :
    shares c labels (xs.flatMap g) = (xs.map fun x => shares c labels (g x)).sum :=
  sum_map_flatMap _ _ _

/-- Other counters contribute nothing. -/
theorem shares_eq_zero {is : List Increment} (h : ∀ i ∈ is, i.counter ≠ c) :
    shares c labels is = 0 := by
  rw [shares, List.sum_eq_zero_iff]
  intro n hn
  obtain ⟨i, hi, rfl⟩ := List.mem_map.mp hn
  exact if_neg fun hkey => h i hi hkey.1

/-- What the reading of a column contributes to the counts of a type. -/
theorem shares_ofCoercions (t t' : ValueType) (success failure null : Int) :
    shares .typeCoercions (.coercion "success" t) (ofCoercions t'.name success failure null) =
        (if t' = t then success.toNat else 0) ∧
      shares .typeCoercions (.coercion "failure" t) (ofCoercions t'.name success failure null) =
        (if t' = t then failure.toNat else 0) ∧
      shares .typeCoercions (.coercion "null" t) (ofCoercions t'.name success failure null) =
        (if t' = t then null.toNat else 0) := by
  have hsort := fun v w => sortLabels_pair (by decide : ¬"to_type" < "status") v w
  simp [shares, share, ofCoercions, Labels.coercion, hsort, ValueType.name_inj, Number.count]

/-- What a rule contributes to the checked cells of a family. -/
theorem shares_ofRule_cells (f g : RuleFamily) (column : String) (cells failures : Nat) :
    shares .cellsEvaluated (.family f) (ofRule g.name column cells failures) =
      if g = f then cells else 0 := by
  simp [shares, share, ofRule, Labels.family, sortLabels_singleton, RuleFamily.name_inj,
    Number.count]

/-- What a rule contributes to the failures of a family in a column. -/
theorem shares_ofRule_failures (f g : RuleFamily) (column column' : String)
    (cells failures : Nat) :
    shares .ruleFailures (.failure f column) (ofRule g.name column' cells failures) =
      if column' = column ∧ g = f then failures else 0 := by
  have hsort := fun v w => sortLabels_pair (by decide : ¬"rule_type" < "column") v w
  simp [shares, share, ofRule, Labels.failure, hsort, RuleFamily.name_inj, Number.count]

/-- Results that each contribute one or nothing are counted. -/
theorem shares_map {α : Type} {g : α → Increment} {p : α → Prop} [DecidablePred p]
    (h : ∀ x, share c labels (g x) = if p x then 1 else 0) (xs : List α) :
    shares c labels (xs.map g) = (xs.filter fun x => p x).length := by
  rw [shares, List.map_map, Function.comp_def]
  simp only [h]
  rw [← sum_map_filter]
  simp

/-- What the conditional rules contribute to the count of a status. -/
theorem shares_ofConditional (s : ConditionalStatus) (os : List ConditionalOutcome) :
    shares .conditionalOutcomes (.outcome s) (os.map fun o => ofConditional o.status) =
      (os.filter fun o => o.status = s).length := by
  refine shares_map (fun o => ?_) os
  simp [share, ofConditional, Labels.outcome, sortLabels_singleton, ConditionalStatus.name_inj,
    Number.count]

/-- What the findings contribute to the count of a severity in a category. -/
theorem shares_ofFinding (s : Severity) (c : Category) (xs : List Finding) :
    shares .findings (.finding s c) (xs.map ofFinding) =
      (xs.filter fun x => x.severity = s ∧ x.category = c).length := by
  refine shares_map (fun x => ?_) xs
  have hsort := sortLabels_pair (by decide : ¬"severity" < "category")
  simp [share, ofFinding, Labels.finding, hsort, Severity.name_inj, Category.name_inj,
    Number.count, and_comm]

/-- What an evaluated rule adds are counts. -/
theorem isCount_of_mem_ofRule {i : Increment} {family : String} {cells failures : Nat}
    (h : i ∈ ofRule family column cells failures) : i.IsCount := by
  simp only [ofRule, List.mem_cons, List.not_mem_nil, or_false] at h
  rcases h with rfl | rfl | rfl
  · exact ⟨⟨1, rfl⟩, by rw [sortLabels_pair (by decide)]; rfl⟩
  · exact ⟨⟨cells, rfl⟩, by rw [sortLabels_singleton]; rfl⟩
  · exact ⟨⟨failures, rfl⟩, by rw [sortLabels_pair (by decide)]; rfl⟩

/-- What the reading of a column adds are counts. -/
theorem isCount_of_mem_ofCoercions {i : Increment} {type : String} {success failure null : Nat}
    (h : i ∈ ofCoercions type success failure null) : i.IsCount := by
  simp only [ofCoercions, List.mem_cons, List.not_mem_nil, or_false] at h
  rcases h with rfl | rfl | rfl <;>
    exact ⟨⟨_, rfl⟩, by rw [sortLabels_pair (by decide)]; rfl⟩

end Increment

/-! ### Results that are all there -/

namespace Engine

variable {e : Engine}

/-- Where nothing fails, the results are all there. -/
theorem successes_of_forall₂ {ε α β : Type} {f : α → Except ε β} {items : List α} {results : List β}
    (h : List.Forall₂ (fun a b => f a = .ok b) items results) :
    successes (items.map f) = results := by
  induction h with
  | nil => rfl
  | cons hb _ ih => rw [List.map_cons, hb, successes, ih]

/-- Where nothing fails, everything is attempted. -/
theorem attempted_of_forall₂ {ε α β : Type} {f : α → Except ε β} {items : List α}
    {results : List β} (h : List.Forall₂ (fun a b => f a = .ok b) items results) :
    e.attempted f items = items := by
  unfold attempted
  split_ifs
  · rfl
  · rw [successes_of_forall₂ h, ← h.length_eq]
    exact List.take_of_length_le (Nat.le_succ _)

/-- Results that are all there, each with something of its item. -/
theorem successes_zip {ε α β γ : Type} {f : α → Except ε β} (g : α → γ) {items : List α}
    {results : List β} (h : List.Forall₂ (fun a b => f a = .ok b) items results) :
    successes (items.map fun a => (f a).map fun b => (g a, b)) =
      (items.zip results).map fun p => (g p.1, p.2) := by
  induction h with
  | nil => rfl
  | cons hb _ ih =>
    rw [List.map_cons, hb, List.zip_cons_cons, List.map_cons, ← ih]
    rfl

end Engine

/-! ### What a block contributes -/

/-- Whether a raw cell does not fit a type. -/
def Engine.misfits (e : Engine) (t : ValueType) (raw : Option String) : Bool :=
  (coerce raw t e.settings e.catalog).toOption.any Reading.isMisfit

/-- The family of the rule that an outcome is about. -/
def RuleOutcome.family? (o : RuleOutcome) : Option RuleFamily :=
  (RuleKind.ofName? o.kind).map RuleKind.family

namespace Engine

variable {e : Engine} {table : Table} {b : Block} {o : ColumnOutcome} {cells : List Cell}
  {column : String}

/-- What the reading of a block counts. -/
def readingIncrements (b : Block) (cells : List Cell) : List Increment :=
  match b.valueType with
  | some t => coercionIncrements t cells
  | none => []

/-- What an evaluated block counts: the readings of its cells if it declares a type, and then its
rules one after another. -/
theorem columnIncrements_eq (h : e.evaluateColumn table b = .ok o) :
    ∃ cells, e.cells table b.column b.valueType = .ok cells ∧
      e.columnIncrements table b = readingIncrements b cells ++
        (b.rules.zip o.rules).flatMap fun p =>
          Increment.ofRule p.1.kind.family.name b.column cells.length p.2.failedCount := by
  obtain ⟨cells, outcomes, hcells, houtcomes, rfl⟩ := evaluateColumn_eq_ok_iff.mp h
  refine ⟨cells, hcells, ?_⟩
  rw [columnIncrements, hcells]
  dsimp only
  rw [successes_zip _ (mapM_eq_ok_iff.mp houtcomes), List.flatMap_map]
  rfl

/-- A column has as many cells as the table has rows. -/
theorem length_cells {type : Option ValueType} (h : e.cells table column type = .ok cells) :
    cells.length = table.rowCount := by
  rw [(Cell.shows_getElem h).1, Table.column, List.length_map, Table.rowCount]

theorem misfits_iff {t : ValueType} {raw : Option String} :
    e.misfits t raw = true ↔ ∃ m, coerce raw t e.settings e.catalog = .ok (.misfit m) := by
  rw [misfits, any_toOption_iff]
  constructor
  · rintro ⟨reading, hreading, hmisfit⟩
    cases reading with
    | value v => simp [Reading.isMisfit] at hmisfit
    | misfit m => exact ⟨m, hreading⟩
  · rintro ⟨m, hm⟩
    exact ⟨_, hm, rfl⟩

/-- The cells of a column that do not fit its type are as many as the raw cells that do not. -/
theorem length_filter_isMisfit {t : ValueType} (h : e.cells table column (some t) = .ok cells) :
    (cells.filter Cell.isMisfit).length =
      ((table.column column).filter (e.misfits t)).length := by
  refine length_filter_cells h fun raw cell hshows => hshows.isMisfit_iff.trans ?_
  rw [misfits_iff]
  constructor
  · rintro ⟨t', m, ht, hm⟩
    obtain rfl := Option.some.inj ht
    exact ⟨m, hm⟩
  · rintro ⟨m, hm⟩
    exact ⟨t, m, rfl, hm⟩

/-- No cell both is null and does not fit its type. -/
theorem misfits_add_nulls_le (e : Engine) (t : ValueType) (raws : List (Option String)) :
    (raws.filter (e.misfits t)).length + (raws.filter fun raw => isNull raw e.settings).length ≤
      raws.length := by
  have hdisjoint : ∀ raw ∈ raws, e.misfits t raw = true → (!isNull raw e.settings) = true := by
    intro raw _ hmisfit
    obtain ⟨m, hm⟩ := misfits_iff.mp hmisfit
    rw [Bool.not_eq_true', ← Bool.not_eq_true]
    exact fun hnull => coerce_ne_misfit hnull m hm
  have hle := List.countP_mono_left hdisjoint
  have hsplit := List.length_eq_length_filter_add (l := raws) fun raw => isNull raw e.settings
  rw [List.countP_eq_length_filter, List.countP_eq_length_filter] at hle
  omega

/-- The readings of a column of a type, as numbers of raw cells. -/
theorem coercionIncrements_eq {t : ValueType} (h : e.cells table column (some t) = .ok cells) :
    ∃ success : Nat,
      success + ((table.column column).filter (e.misfits t)).length +
          ((table.column column).filter fun raw => isNull raw e.settings).length =
        table.rowCount ∧
      coercionIncrements t cells = Increment.ofCoercions t.name success
        ((table.column column).filter (e.misfits t)).length
        ((table.column column).filter fun raw => isNull raw e.settings).length := by
  -- The difference is taken between integers; by this bound it is a natural number.
  have hle := misfits_add_nulls_le e t (table.column column)
  have hlen := length_cells h
  have hcolumn : (table.column column).length = table.rowCount := List.length_map _
  rw [coercionIncrements, length_filter_isMisfit h, length_filter_isNull h, hlen]
  refine ⟨table.rowCount - ((table.column column).filter (e.misfits t)).length -
    ((table.column column).filter fun raw => isNull raw e.settings).length, by omega, ?_⟩
  congr 1
  omega

theorem counter_of_mem_readingIncrements {i : Increment} (h : i ∈ readingIncrements b cells) :
    i.counter = .typeCoercions := by
  unfold readingIncrements at h
  split at h
  · simp only [coercionIncrements, Increment.ofCoercions, List.mem_cons, List.not_mem_nil,
      or_false] at h
    rcases h with rfl | rfl | rfl <;> rfl
  · cases h

theorem counter_of_mem_ofRule {i : Increment} {family : String} {cells failures : Int}
    (h : i ∈ Increment.ofRule family column cells failures) :
    i.counter ∈ [.rulesEvaluated, .cellsEvaluated, .ruleFailures] := by
  simp only [Increment.ofRule, List.mem_cons, List.not_mem_nil, or_false] at h
  rcases h with rfl | rfl | rfl <;> simp

/-- The rules of a block contribute nothing to the readings. -/
theorem shares_columnIncrements_reading (h : e.evaluateColumn table b = .ok o) :
    ∃ cells, e.cells table b.column b.valueType = .ok cells ∧
      ∀ labels, Increment.shares .typeCoercions labels (e.columnIncrements table b) =
        Increment.shares .typeCoercions labels (readingIncrements b cells) := by
  obtain ⟨cells, hcells, hincrements⟩ := columnIncrements_eq h
  refine ⟨cells, hcells, fun labels => ?_⟩
  rw [hincrements, Increment.shares_append, Nat.add_eq_left]
  refine Increment.shares_eq_zero fun i hi => ?_
  obtain ⟨p, -, hi⟩ := List.mem_flatMap.mp hi
  exact fun hcounter => absurd (hcounter ▸ counter_of_mem_ofRule hi) (by decide)

/-- The cells of a block that declares a type are counted as read, as misfits or as null. -/
theorem shares_columnIncrements_coercion (h : e.evaluateColumn table b = .ok o) (t : ValueType) :
    Increment.shares .typeCoercions (.coercion "success" t) (e.columnIncrements table b) +
          Increment.shares .typeCoercions (.coercion "failure" t) (e.columnIncrements table b) +
          Increment.shares .typeCoercions (.coercion "null" t) (e.columnIncrements table b) =
        (if b.valueType = some t then table.rowCount else 0) ∧
      Increment.shares .typeCoercions (.coercion "failure" t) (e.columnIncrements table b) =
        (if b.valueType = some t then
          ((table.column b.column).filter (e.misfits t)).length else 0) ∧
      Increment.shares .typeCoercions (.coercion "null" t) (e.columnIncrements table b) =
        (if b.valueType = some t then
          ((table.column b.column).filter fun raw => isNull raw e.settings).length else 0) := by
  obtain ⟨cells, hcells, hshares⟩ := shares_columnIncrements_reading h
  simp only [hshares, readingIncrements]
  cases htype : b.valueType with
  | none => simp [Increment.shares]
  | some t' =>
    rw [htype] at hcells
    obtain ⟨success, hsum, hincrements⟩ := coercionIncrements_eq hcells
    obtain ⟨hsuccess, hfailure, hnull⟩ := Increment.shares_ofCoercions t t' success
      ((table.column b.column).filter (e.misfits t')).length
      ((table.column b.column).filter fun raw => isNull raw e.settings).length
    simp only [hincrements, hsuccess, hfailure, hnull, Option.some.injEq, Int.toNat_natCast]
    by_cases heq : t' = t
    · subst heq
      simpa using hsum
    · simp [heq]

/-- The readings of a block contribute nothing to what its rules count. -/
theorem shares_columnIncrements_rules {c : Counter} (hc : c ≠ .typeCoercions)
    (h : e.evaluateColumn table b = .ok o) (labels : Labels) :
    Increment.shares c labels (e.columnIncrements table b) =
      ((b.rules.zip o.rules).map fun p => Increment.shares c labels
        (Increment.ofRule p.1.kind.family.name b.column table.rowCount p.2.failedCount)).sum := by
  obtain ⟨cells, hcells, hincrements⟩ := columnIncrements_eq h
  have hzero : Increment.shares c labels (readingIncrements b cells) = 0 :=
    Increment.shares_eq_zero fun i hi => counter_of_mem_readingIncrements hi ▸ hc.symm
  rw [hincrements, Increment.shares_append, hzero, Nat.zero_add, Increment.shares_flatMap,
    length_cells hcells]

/-- Every rule of a family in a block is counted with all rows. -/
theorem shares_columnIncrements_cells (h : e.evaluateColumn table b = .ok o) (f : RuleFamily) :
    Increment.shares .cellsEvaluated (.family f) (e.columnIncrements table b) =
      ((b.rules.filter fun rule => rule.kind.family = f).map fun _ => table.rowCount).sum := by
  have hlen : b.rules.length ≤ o.rules.length :=
    (isOf_of_evaluateColumn h).2.length_eq.le
  rw [shares_columnIncrements_rules (by decide) h]
  simp only [Increment.shares_ofRule_cells]
  rw [sum_map_filter]
  conv_rhs => rw [← List.map_fst_zip hlen, List.map_map]
  rfl

/-- The outcome of a rule tells its family. -/
theorem family?_of_isOf {rule : Rule} {outcome : RuleOutcome} (h : outcome.IsOf rule) :
    outcome.family? = some rule.kind.family := by
  rw [RuleOutcome.family?, h.kind_eq, RuleKind.ofName?_name, Option.map_some]

/-- Every rule of a family in a block is counted with its failed rows. -/
theorem shares_columnIncrements_failures (h : e.evaluateColumn table b = .ok o) (f : RuleFamily)
    (column : String) :
    Increment.shares .ruleFailures (.failure f column) (e.columnIncrements table b) =
      if o.column = column then
        ((o.rules.filter fun outcome => outcome.family? = some f).map fun outcome =>
          outcome.failedRows.length).sum
      else 0 := by
  obtain ⟨hcolumn, hrules⟩ := isOf_of_evaluateColumn h
  -- What is counted names the family of the rule, and the report has only its outcome; the two are
  -- compared pair by pair.
  obtain ⟨hlen, hzip⟩ := List.forall₂_iff_zip.mp hrules
  have hshares : ∀ p ∈ b.rules.zip o.rules,
      Increment.shares .ruleFailures (.failure f column)
          (Increment.ofRule p.1.kind.family.name b.column table.rowCount p.2.failedCount) =
        if o.column = column then
          if p.2.family? = some f then p.2.failedRows.length else 0
        else 0 := by
    intro p hp
    rw [Increment.shares_ofRule_failures, family?_of_isOf (hzip hp), hcolumn, ite_and,
      RuleOutcome.failedCount]
    simp only [Option.some.injEq]
  rw [shares_columnIncrements_rules (by decide) h, List.map_congr_left hshares]
  split_ifs with heq
  · rw [sum_map_filter]
    conv_rhs => rw [← List.map_snd_zip hlen.ge, List.map_map]
    rfl
  · simp

/-- Everything that an evaluated block adds is a count. -/
theorem isCount_of_mem_columnIncrements (h : e.evaluateColumn table b = .ok o) {i : Increment}
    (hi : i ∈ e.columnIncrements table b) : i.IsCount := by
  obtain ⟨cells, hcells, hincrements⟩ := columnIncrements_eq h
  rw [hincrements, List.mem_append, List.mem_flatMap] at hi
  rcases hi with hi | ⟨p, -, hi⟩
  · unfold readingIncrements at hi
    split at hi
    · rename_i t htype
      obtain ⟨success, -, hincrements⟩ := coercionIncrements_eq (htype ▸ hcells)
      exact Increment.isCount_of_mem_ofCoercions (hincrements ▸ hi)
    · cases hi
  · exact Increment.isCount_of_mem_ofRule hi

/-! ### What conditional rules contribute -/

/-- Each conditional rule is counted with the status of its outcome. -/
theorem flatMap_conditionalIncrements {conditionals : List Conditional}
    {outcomes : List ConditionalOutcome}
    (h : List.Forall₂ (fun c o => e.evaluateConditional table c = .ok o) conditionals outcomes) :
    conditionals.flatMap (e.conditionalIncrements table) =
      outcomes.map fun o => .ofConditional o.status := by
  induction h with
  | nil => rfl
  | cons hc _ ih =>
    rw [List.flatMap_cons, ih, conditionalIncrements, hc]
    rfl

end Engine

end TableRules
