import TableRules.Proofs.Text.Distinct
import TableRules.Ruleset.Link

/-!
# The findings about the links of a ruleset

What `Ruleset.linkFindings` finds is said by `Ruleset.Links`, in five parts: the names that are
declared more than once, the declared columns without rules (`Ruleset.IsIdle`), the blocks and the
clauses on columns that are not declared, and a ruleset without any rule (`Ruleset.HasNoRules`).

A declared list may repeat names, and the first two parts list every name once
(`Text.ListsOnce`). The blocks and the clauses are taken as they come, so that one column may be
reported for its block and again for each of its clauses.

`linkFindings_exact` is the whole of it. In particular nothing is found exactly if the declared
names are distinct, each of them has rules, and all rules are about declared columns.
-/

namespace TableRules.Ruleset

open Text

variable {r : Ruleset}

/-! ### The five kinds of warnings -/

/-- The warning about a name that is declared several times. -/
def repeatedWarning (name : String) (count : Nat) : Finding :=
  linkWarning (columnNamed name ++ " is declared " ++ decimal count ++ " times") name none

/-- The warning about a declared column without rules. -/
def idleWarning (name : String) : Finding :=
  linkWarning (columnNamed name ++ " has no associated value rules") name none

/-- The warning about a block for a column that is not declared. -/
def blockWarning (column : String) : Finding := linkWarning (undeclared column) column none

/-- The warning about a clause of a conditional rule whose column is not declared. -/
def clauseWarning (rule column : String) : Finding :=
  linkWarning (undeclared column ++ " in conditional rule '" ++ rule ++ "'") column rule

/-- The warning about a ruleset without rules. -/
def emptyWarning : Finding := linkWarning noRules none none

/-- A column has no block, or its block has no rules. -/
def IsIdle (r : Ruleset) (column : String) : Prop := ∀ b, r.block? column = some b → b.rules = []

/-- Every block is empty, and there are no conditional rules. -/
def HasNoRules (r : Ruleset) : Prop := (∀ b ∈ r.blocks, b.rules = []) ∧ r.conditionals = []

/-- What is to be found about a ruleset: one warning for each declared name that is repeated, with
the number of its places; one for each declared name without rules; one for each block on an
undeclared column; one for each clause on an undeclared column, that of the antecedent first; and
one if there are no rules at all. -/
structure Links (r : Ruleset) (repeated idle blocks clauses rest : List Finding) : Prop where
  repeated_eq : ∃ names,
    ListsOnce r.columns.names (fun n => 1 < r.columns.names.count n) names ∧
      repeated = names.map fun n => repeatedWarning n (r.columns.names.count n)
  idle_eq : ∃ names, ListsOnce r.columns.names r.IsIdle names ∧ idle = names.map idleWarning
  blocks_eq : blocks =
    (r.blocks.filter fun b => b.column ∉ r.columns.names).map fun b => blockWarning b.column
  clauses_eq : clauses = r.conditionals.flatMap fun c =>
    ([c.antecedent, c.consequent].filter fun k => k.column ∉ r.columns.names).map fun k =>
      clauseWarning c.name k.column
  rest_of_empty : r.HasNoRules → rest = [emptyWarning]
  rest_of_rules : ¬r.HasNoRules → rest = []

/-! ### The parts one by one -/

/-- A column has rules exactly if it is not idle. -/
theorem hasRules_eq_false_iff {column : String} : r.hasRules column = false ↔ r.IsIdle column := by
  unfold hasRules IsIdle
  cases r.block? column <;> simp

theorem not_isIdle_iff {column : String} :
    ¬r.IsIdle column ↔ ∃ b, r.block? column = some b ∧ b.rules ≠ [] := by
  simp [IsIdle]

/-- The rules number zero exactly if there are none in blocks and no conditional ones. -/
theorem ruleCount_eq_zero_iff : r.ruleCount = 0 ↔ r.HasNoRules := by
  rw [ruleCount, HasNoRules, Nat.add_eq_zero_iff, List.length_eq_zero_iff,
    List.flatMap_eq_nil_iff, Nat.mul_eq_zero, List.length_eq_zero_iff,
    or_iff_right (by decide : ¬2 = 0)]

/-- The warnings about repeated names come from the names that are listed at least twice. -/
theorem repeatedWarnings_eq (names : List String) :
    repeatedWarnings names =
      ((distinct names).filter fun n => decide (1 < names.count n)).map fun n =>
        repeatedWarning n (names.count n) := by
  rw [← List.filterMap_eq_map, List.filterMap_filter]
  refine List.filterMap_congr fun n _ => ?_
  simp [repeatedWarning]

/-- The warnings about blocks, from the blocks. -/
theorem blockWarnings_eq (r : Ruleset) :
    r.blockWarnings =
      (r.blocks.filter fun b => b.column ∉ r.columns.names).map fun b => blockWarning b.column := by
  simp only [blockWarnings, List.filter_map, List.map_map]
  refine congrArg₂ List.map rfl (List.filter_congr fun b _ => ?_)
  simp

/-- The warnings about a conditional rule, from its two clauses. -/
theorem clauseWarnings_eq (names : List String) (c : Conditional) :
    clauseWarnings names c =
      ([c.antecedent, c.consequent].filter fun k => k.column ∉ names).map fun k =>
        clauseWarning c.name k.column := by
  simp only [clauseWarnings, Conditional.clauses, List.filter_map, List.map_map]
  refine congrArg₂ List.map rfl (List.filter_congr fun k _ => ?_)
  simp

/-- The findings of the check, in five parts that are as they should be. -/
theorem links_linkFindings (r : Ruleset) :
    r.Links (repeatedWarnings r.columns.names) r.idleWarnings r.blockWarnings
      (r.conditionals.flatMap (clauseWarnings r.columns.names))
      (if r.ruleCount = 0 then [emptyWarning] else []) where
  repeated_eq := ⟨_, listsOnce_filter_distinct fun _ => decide_eq_true_iff, repeatedWarnings_eq _⟩
  idle_eq := ⟨_, listsOnce_filter_distinct fun n => by simp [← hasRules_eq_false_iff], rfl⟩
  blocks_eq := r.blockWarnings_eq
  clauses_eq := List.flatMap_congr fun c _ => clauseWarnings_eq _ c
  rest_of_empty h := if_pos (ruleCount_eq_zero_iff.mpr h)
  rest_of_rules h := if_neg fun hzero => h (ruleCount_eq_zero_iff.mp hzero)

/-! ### All findings -/

/-- All that is found about the declarations of a ruleset are warnings about them. -/
theorem exists_of_mem_linkFindings {x : Finding} (h : x ∈ r.linkFindings) :
    ∃ message column rule, x = linkWarning message column rule := by
  simp only [linkFindings, List.mem_append, List.mem_flatMap] at h
  rcases h with (((h | h) | h) | ⟨c, -, h⟩) | h
  · obtain ⟨name, -, h⟩ := List.mem_filterMap.mp h
    dsimp only at h
    split at h
    · exact ⟨_, _, _, (Option.some.inj h).symm⟩
    · cases h
  · obtain ⟨name, -, rfl⟩ := List.mem_map.mp h
    exact ⟨_, _, _, rfl⟩
  · obtain ⟨name, -, rfl⟩ := List.mem_map.mp h
    exact ⟨_, _, _, rfl⟩
  · obtain ⟨name, -, rfl⟩ := List.mem_map.mp h
    exact ⟨_, _, _, rfl⟩
  · split at h
    · exact ⟨_, _, _, List.mem_singleton.mp h⟩
    · cases h

namespace Links

variable {repeated idle blocks clauses rest : List Finding}

/-- No name is reported as repeated exactly if the declared names are distinct. -/
theorem repeated_eq_nil_iff (h : r.Links repeated idle blocks clauses rest) :
    repeated = [] ↔ r.columns.names.Nodup := by
  obtain ⟨names, hnames, rfl⟩ := h.repeated_eq
  rw [List.map_eq_nil_iff, List.eq_nil_iff_forall_not_mem, List.nodup_iff_count_le_one]
  simp only [hnames.mem_iff, not_and, not_lt]
  refine ⟨fun hle n => ?_, fun hle n _ => hle n⟩
  by_cases hn : n ∈ r.columns.names
  · exact hle n hn
  · exact List.count_eq_zero_of_not_mem hn ▸ Nat.zero_le 1

/-- No column is reported as idle exactly if every declared column has a block with rules. -/
theorem idle_eq_nil_iff (h : r.Links repeated idle blocks clauses rest) :
    idle = [] ↔ ∀ n ∈ r.columns.names, ∃ b, r.block? n = some b ∧ b.rules ≠ [] := by
  obtain ⟨names, hnames, rfl⟩ := h.idle_eq
  rw [List.map_eq_nil_iff, List.eq_nil_iff_forall_not_mem]
  simp only [hnames.mem_iff, not_and, not_isIdle_iff]

/-- No block is reported exactly if all blocks are about declared columns. -/
theorem blocks_eq_nil_iff (h : r.Links repeated idle blocks clauses rest) :
    blocks = [] ↔ ∀ b ∈ r.blocks, b.column ∈ r.columns.names := by
  rw [h.blocks_eq, List.map_eq_nil_iff, List.filter_eq_nil_iff]
  simp

/-- No clause is reported exactly if all clauses are about declared columns. -/
theorem clauses_eq_nil_iff (h : r.Links repeated idle blocks clauses rest) :
    clauses = [] ↔ ∀ c ∈ r.conditionals, ∀ k ∈ c.clauses, k.column ∈ r.columns.names := by
  rw [h.clauses_eq, List.flatMap_eq_nil_iff]
  refine forall₂_congr fun c _ => ?_
  rw [List.map_eq_nil_iff, List.filter_eq_nil_iff]
  simp [Conditional.clauses]

/-- A ruleset with rules has no last warning. -/
theorem rest_eq_nil_iff (h : r.Links repeated idle blocks clauses rest) :
    rest = [] ↔ ¬r.HasNoRules :=
  ⟨fun hrest hempty => by simp [h.rest_of_empty hempty] at hrest, h.rest_of_rules⟩

end Links

/-- Rules in a block are rules of the ruleset. -/
theorem not_hasNoRules_of_block? {column : String} {b : Block} (hb : r.block? column = some b)
    (hrules : b.rules ≠ []) : ¬r.HasNoRules :=
  fun hempty => hrules (hempty.1 b (List.mem_of_find?_eq_some hb))

/-- **The links are checked completely and exactly**: the findings are those that `Links` lists,
part after part, and nothing else. All of them are warnings. There are none exactly if the declared
names are distinct, each of them has a block with rules, and the columns of all blocks and clauses
are declared; some column is declared in every ruleset. -/
theorem linkFindings_exact (r : Ruleset) (hnames : r.columns.names ≠ []) :
    (∃ repeated idle blocks clauses rest,
      r.linkFindings = repeated ++ idle ++ blocks ++ clauses ++ rest ∧
        r.Links repeated idle blocks clauses rest) ∧
    (∀ x ∈ r.linkFindings, x.severity = .warning ∧ x.category = .link) ∧
    (r.linkFindings = [] ↔
      r.columns.names.Nodup ∧
      (∀ n ∈ r.columns.names, ∃ b, r.block? n = some b ∧ b.rules ≠ []) ∧
      (∀ b ∈ r.blocks, b.column ∈ r.columns.names) ∧
      ∀ c ∈ r.conditionals, ∀ k ∈ c.clauses, k.column ∈ r.columns.names) := by
  have hlinks := r.links_linkFindings
  refine ⟨⟨_, _, _, _, _, rfl, hlinks⟩, fun x hx => ?_, ?_⟩
  · obtain ⟨message, column, rule, rfl⟩ := exists_of_mem_linkFindings hx
    exact ⟨rfl, rfl⟩
  · have hparts : r.linkFindings = [] ↔ ((((repeatedWarnings r.columns.names = [] ∧
        r.idleWarnings = []) ∧ r.blockWarnings = []) ∧
        r.conditionals.flatMap (clauseWarnings r.columns.names) = []) ∧
        (if r.ruleCount = 0 then [emptyWarning] else []) = []) := by
      simp only [linkFindings, emptyWarning, List.append_eq_nil_iff]
    rw [hparts, hlinks.repeated_eq_nil_iff, hlinks.idle_eq_nil_iff, hlinks.blocks_eq_nil_iff,
      hlinks.clauses_eq_nil_iff, hlinks.rest_eq_nil_iff]
    constructor
    · rintro ⟨⟨⟨⟨hnodup, hidle⟩, hblocks⟩, hclauses⟩, -⟩
      exact ⟨hnodup, hidle, hblocks, hclauses⟩
    · rintro ⟨hnodup, hidle, hblocks, hclauses⟩
      -- the first declared column has rules
      obtain ⟨b, hb, hrules⟩ := hidle _ (List.head_mem hnames)
      exact ⟨⟨⟨⟨hnodup, hidle⟩, hblocks⟩, hclauses⟩, not_hasNoRules_of_block? hb hrules⟩

/-- A declaration that repeats a name and names two columns without rules, a block for a column that
is not declared, and a conditional rule whose antecedent is about another one. -/
theorem linkFindings_exact_of_untidy_ruleset :
    let columns : ColumnSpec := ⟨["id", "name", "id", "size"], true, false, false⟩
    let unique : Rule := ⟨.unique, none⟩
    let r : Ruleset :=
      ⟨.standard, columns, [⟨"name", []⟩, ⟨"code", [unique]⟩, ⟨"id", [unique]⟩],
        [⟨"dated", ⟨"date", unique⟩, ⟨"id", unique⟩, none⟩], none, by decide,
        by decide⟩
    r.linkFindings =
      [repeatedWarning "id" 2, idleWarning "name", idleWarning "size", blockWarning "code",
        clauseWarning "dated" "date"] := by
  intro columns unique r
  obtain ⟨⟨repeated, idle, blocks, clauses, rest, hfindings, hlinks⟩, -, -⟩ :=
    r.linkFindings_exact (by decide)
  obtain ⟨names, hnames, rfl⟩ := hlinks.repeated_eq
  obtain ⟨idleNames, hidle, rfl⟩ := hlinks.idle_eq
  have hnames' := hnames.unique (listsOnce_filter_distinct fun _ => decide_eq_true_iff)
  have hidle' := hidle.unique (listsOnce_filter_distinct (p := fun n => !r.hasRules n) fun n => by
    simp [← hasRules_eq_false_iff])
  have hrest : rest = [] := hlinks.rest_of_rules fun h => absurd h.2 (List.cons_ne_nil _ _)
  subst hnames' hidle' hrest
  rw [hfindings, hlinks.blocks_eq, hlinks.clauses_eq]
  rfl

end TableRules.Ruleset
