import TableRules.Proofs.RulesText.Contributions

/-!
# Contributions that go together

A blank draft takes contributions exactly if it takes each of them alone and no two of them declare
the same thing that can be declared once only (`Admissible`, `exists_takesAll_iff`). Neither depends
on their order nor on the numbers of the lines that they are written on (`Admissible.congr`).
-/

namespace TableRules

open Result Contribution

variable {d d' : Draft} {k : Contribution} {ks ks' : List Contribution}

/-! ### What can be declared once only -/

/-- What can be declared once only: the column names and each of the settings, a block of a column,
a conditional rule of a name. -/
inductive OnceOnly
  | setting (d : Declaration)
  | block (column : String)
  | conditional (name : String)

/-- What a contribution declares that can be declared once only. -/
def Contribution.once? : Contribution → Option OnceOnly
  | .declaration (.columnNames _) => some (.setting .columnNames)
  | .declaration (.nullValues _) => some (.setting .nullValues)
  | .declaration (.separator _) => some (.setting .separator)
  | .declaration (.precision _) => some (.setting .precision)
  | .declaration _ => none
  | .block column _ => some (.block column)
  | .conditional c => some (.conditional c.name)

/-- A contribution that a draft without other ones takes. -/
def Contribution.IsAcceptable (k : Contribution) : Prop := ∃ d, Draft.empty.Takes k d

/-- Contributions that go together: each is acceptable, and nothing is declared twice that can be
declared once only. -/
structure Admissible (ks : List Contribution) : Prop where
  acceptable : ∀ k ∈ ks, k.IsAcceptable
  once : (ks.filterMap once?).Nodup

theorem admissible_concat_iff :
    Admissible (ks ++ [k]) ↔
      Admissible ks ∧ k.IsAcceptable ∧ ∀ o, k.once? = some o → o ∉ ks.filterMap once? := by
  have honce : ((ks ++ [k]).filterMap once?).Nodup ↔
      (ks.filterMap once?).Nodup ∧ ∀ o, k.once? = some o → o ∉ ks.filterMap once? := by
    rw [List.filterMap_append]
    cases ho : k.once? with
    | none => simp [ho]
    | some o =>
      simp only [List.filterMap_cons, ho, List.filterMap_nil, Option.some.injEq, forall_eq']
      rw [List.nodup_append_comm, List.singleton_append, List.nodup_cons, and_comm]
  constructor
  · rintro ⟨hall, hnodup⟩
    obtain ⟨hks, hk⟩ := List.forall_mem_append.mp hall
    obtain ⟨hnodup, hnew⟩ := honce.mp hnodup
    exact ⟨⟨hks, hnodup⟩, hk k (List.mem_singleton_self k), hnew⟩
  · rintro ⟨⟨hks, hnodup⟩, hk, hnew⟩
    exact ⟨List.forall_mem_append.mpr ⟨hks, List.forall_mem_singleton.mpr hk⟩,
      honce.mpr ⟨hnodup, hnew⟩⟩

/-! ### Which contributions a draft takes -/

/-- What is collected of a kind of declarations is absent exactly if no
contribution makes one. -/
private theorem eq_none_iff {α β : Type} {declared : Option β} {o : OnceOnly}
    {f : Contribution → Option α} (hf : ∀ k, k.once? = some o ↔ f k ≠ none)
    (h : declared.toList.length = (ks.filterMap f).length) :
    declared = none ↔ o ∉ ks.filterMap once? := by
  have hnone : o ∉ ks.filterMap once? ↔ (ks.filterMap f).length = 0 := by
    simp only [List.length_eq_zero_iff, List.filterMap_eq_nil_iff, List.mem_filterMap, hf,
      not_exists, not_and, not_not]
  rw [hnone, ← h, List.length_eq_zero_iff, Option.toList_eq_nil_iff]

namespace Draft

private theorem Collects.names_eq_none_iff (h : d.Collects ks) :
    d.names = none ↔ .setting .columnNames ∉ ks.filterMap once? := by
  refine eq_none_iff (fun k => ?_) (congrArg List.length h.names)
  rcases k with st | _ | _
  · cases st <;> simp [once?, names?]
  · simp [once?, names?]
  · simp [once?, names?]

private theorem Collects.nullValues_eq_none_iff (h : d.Collects ks) :
    d.nullValues = none ↔ .setting .nullValues ∉ ks.filterMap once? := by
  refine eq_none_iff (fun k => ?_) (congrArg List.length h.nullValues)
  rcases k with st | _ | _
  · cases st <;> simp [once?, nullValues?]
  · simp [once?, nullValues?]
  · simp [once?, nullValues?]

private theorem Collects.separator_eq_none_iff (h : d.Collects ks) :
    d.separator = none ↔ .setting .separator ∉ ks.filterMap once? := by
  refine eq_none_iff (fun k => ?_) ((congrArg List.length h.separator).trans (List.length_map _))
  rcases k with st | _ | _
  · cases st <;> simp [once?, separator?]
  · simp [once?, separator?]
  · simp [once?, separator?]

private theorem Collects.precision_eq_none_iff (h : d.Collects ks) :
    d.precision = none ↔ .setting .precision ∉ ks.filterMap once? := by
  refine eq_none_iff (fun k => ?_) ((congrArg List.length h.precision).trans (List.length_map _))
  rcases k with st | _ | _
  · cases st <;> simp [once?, precision?]
  · simp [once?, precision?]
  · simp [once?, precision?]

private theorem Collects.column_mem_iff (h : d.Collects ks) {column : String} :
    column ∈ d.blocks.map Prod.fst ↔ .block column ∈ ks.filterMap once? := by
  have hone : ∀ k : Contribution, (∃ e, k.block? = some e ∧ e.1 = column) ↔
      k.once? = some (.block column) := by
    rintro (st | _ | _)
    · cases st <;> simp [once?, block?]
    · simp [once?, block?]
    · simp [once?, block?]
  simp only [h.blocks, List.mem_map, List.mem_filterMap, ← hone]
  constructor
  · rintro ⟨e, ⟨k, hk, he⟩, hcolumn⟩
    exact ⟨k, hk, e, he, hcolumn⟩
  · rintro ⟨k, hk, e, he, hcolumn⟩
    exact ⟨e, ⟨k, hk, he⟩, hcolumn⟩

private theorem Collects.name_mem_iff (h : d.Collects ks) {name : String} :
    name ∈ d.conditionals.map Conditional.name ↔ .conditional name ∈ ks.filterMap once? := by
  have hone : ∀ k : Contribution, (∃ c, k.conditional? = some c ∧ c.name = name) ↔
      k.once? = some (.conditional name) := by
    rintro (st | _ | _)
    · cases st <;> simp [once?, conditional?]
    · simp [once?, conditional?]
    · simp [once?, conditional?]
  simp only [h.conditionals, List.mem_map, List.mem_filterMap, ← hone]
  constructor
  · rintro ⟨c, ⟨k, hk, hc⟩, hname⟩
    exact ⟨k, hk, c, hc, hname⟩
  · rintro ⟨k, hk, c, hc, hname⟩
    exact ⟨c, ⟨k, hk, hc⟩, hname⟩

/-- A draft that has collected contributions takes another one exactly if that is acceptable and
declares nothing again. -/
theorem Collects.exists_takes_iff (h : d.Collects ks) :
    (∃ d', d.Takes k d') ↔
      k.IsAcceptable ∧ ∀ o, k.once? = some o → o ∉ ks.filterMap once? := by
  -- what can be declared once only is declared by one kind of contributions each
  have hnew : ∀ {k : Contribution} {o}, k.once? = some o →
      ((∀ o', k.once? = some o' → o' ∉ ks.filterMap once?) ↔ o ∉ ks.filterMap once?) := by
    intro k o ho
    simp only [ho, Option.some.injEq, forall_eq']
  cases k with
  | declaration st =>
    cases st with
    | columnNames names =>
      rw [hnew rfl, ← h.names_eq_none_iff]
      simp [IsAcceptable, Takes, perform, declareColumns_eq_ok_iff, empty, Statement.isDeclaration,
        and_comm]
    | nullValues values =>
      rw [hnew rfl, ← h.nullValues_eq_none_iff]
      simp [IsAcceptable, Takes, perform, declareNullValues_eq_ok_iff, empty,
        Statement.isDeclaration]
    | separator text =>
      rw [hnew rfl, ← h.separator_eq_none_iff]
      simp [IsAcceptable, Takes, perform, declareSeparator_some_eq_ok_iff, empty,
        Statement.isDeclaration, and_comm]
    | precision x =>
      rw [hnew rfl, ← h.precision_eq_none_iff]
      simp [IsAcceptable, Takes, perform, declarePrecision_eq_ok_iff, empty,
        Statement.isDeclaration, and_comm]
    | openBlock => simp [IsAcceptable, Takes, Statement.isDeclaration]
    | openConditional => simp [IsAcceptable, Takes, Statement.isDeclaration]
    | _ => simp [IsAcceptable, once?, Takes, perform, Statement.isDeclaration]
  | block column rules =>
    rw [hnew rfl, ← h.column_mem_iff]
    simp [IsAcceptable, Takes, empty, and_comm]
  | conditional c =>
    rw [hnew rfl, ← h.name_mem_iff]
    simp [IsAcceptable, Takes, empty, and_comm]

/-- **A blank draft takes contributions** one after another exactly if they go together. -/
theorem exists_takesAll_iff {catalog : Option Catalog} :
    (∃ d, (blank catalog).TakesAll ks d) ↔ Admissible ks := by
  induction ks using List.reverseRecOn with
  | nil => exact ⟨fun _ => ⟨by simp, by simp⟩, fun _ => ⟨_, rfl⟩⟩
  | append_singleton ks k ih =>
    rw [admissible_concat_iff, ← ih]
    simp only [takesAll_concat]
    constructor
    · rintro ⟨d', middle, hmiddle, hd'⟩
      exact ⟨⟨middle, hmiddle⟩, hmiddle.collects.exists_takes_iff.mp ⟨d', hd'⟩⟩
    · rintro ⟨⟨middle, hmiddle⟩, hnew⟩
      obtain ⟨d', hd'⟩ := hmiddle.collects.exists_takes_iff.mpr hnew
      exact ⟨d', middle, hmiddle, hd'⟩

end Draft

/-! ### Line numbers -/

/-- A rule without the number of its line. -/
def Rule.unnumbered (rule : Rule) : Rule := { rule with line := none }

/-- A block without the numbers of its lines. -/
def Block.unnumbered (b : Block) : Block := { b with rules := b.rules.map Rule.unnumbered }

/-- A clause without the number of its line. -/
def Clause.unnumbered (c : Clause) : Clause := { c with rule := c.rule.unnumbered }

/-- A conditional rule without the numbers of its lines. -/
def Conditional.unnumbered (c : Conditional) : Conditional :=
  ⟨c.name, c.antecedent.unnumbered, c.consequent.unnumbered, none⟩

namespace Contribution

/-- A contribution without the numbers of the lines that it is written on. -/
def unnumbered : Contribution → Contribution
  | .declaration st => .declaration st
  | .block column rules => .block column (rules.map Rule.unnumbered)
  | .conditional c => .conditional c.unnumbered

theorem once?_unnumbered (k : Contribution) : k.unnumbered.once? = k.once? := by
  cases k <;> rfl

theorem isAcceptable_unnumbered (k : Contribution) :
    k.unnumbered.IsAcceptable ↔ k.IsAcceptable := by
  cases k with
  | declaration => rfl
  | block column rules =>
    have htypes : ((rules.map Rule.unnumbered).filter Rule.declaresType).length
        = (rules.filter Rule.declaresType).length := by
      rw [List.filter_map, List.length_map]
      rfl
    simp [unnumbered, IsAcceptable, Draft.Takes, htypes]
  | conditional c =>
    simp [unnumbered, IsAcceptable, Draft.Takes, Conditional.unnumbered, Conditional.clauses,
      Clause.unnumbered]

end Contribution

/-- What contributions declare does not depend on their order and their line numbers, if it is read
from the contributions without these. -/
theorem filterMap_perm {α : Type} {f : Contribution → Option α} (hf : ∀ k, f k.unnumbered = f k)
    (h : (ks.map unnumbered).Perm (ks'.map unnumbered)) :
    (ks.filterMap f).Perm (ks'.filterMap f) := by
  have hmap : ∀ ks : List Contribution, (ks.map unnumbered).filterMap f = ks.filterMap f := by
    intro ks
    rw [List.filterMap_map]
    exact congrArg (List.filterMap · ks) (funext hf)
  rw [← hmap ks, ← hmap ks']
  exact h.filterMap f

/-- **Neither order nor line numbers** matter for which contributions go together. -/
theorem Admissible.congr (hks : Admissible ks)
    (h : (ks.map unnumbered).Perm (ks'.map unnumbered)) : Admissible ks' := by
  refine ⟨fun k hk => ?_, (filterMap_perm once?_unnumbered h).nodup_iff.mp hks.once⟩
  have hmem : k.unnumbered ∈ ks.map unnumbered := h.mem_iff.mpr (List.mem_map_of_mem hk)
  obtain ⟨k', hk', heq⟩ := List.mem_map.mp hmem
  rw [← isAcceptable_unnumbered k, ← heq, isAcceptable_unnumbered]
  exact hks.acceptable k' hk'

end TableRules
