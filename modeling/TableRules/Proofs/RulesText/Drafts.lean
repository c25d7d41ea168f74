import Mathlib.Data.List.Nodup
import TableRules.Proofs.RulesText.Statements

/-!
# Drafts that are well formed

Every declaration leaves a draft well formed (`Draft.WellFormed`), and a well-formed draft that
names columns always makes a ruleset, if the catalog has the date formats it asks for
(`Draft.WellFormed.build_eq_ok`). So what is refused is refused where it is declared, and the checks
of the finished parts never fail.
-/

namespace TableRules

open Result

namespace Draft

variable {d d' : Draft} {column name : String} {rule : Rule} {rules : List Rule}
  {init : List (String × List Rule)} {a c : String × Rule} {line : Option Int}

/-- The head of a conditional rule leaves a draft as it is, and the name must be new. -/
theorem perform_openConditional_eq_ok_iff :
    d.perform (.openConditional name) = .ok d' ↔
      name ∉ d.conditionals.map Conditional.name ∧ d' = d := by
  rw [perform, ← hasConditional_eq_false_iff]
  cases d.hasConditional name <;> simp [eq_comm]

/-! ### The invariant -/

/-- What every draft satisfies: it declares columns only with names, a precision that can be used,
and blocks and conditional rules of different, non-empty names. A block has at most one value
type. -/
structure WellFormed (d : Draft) : Prop where
  names : ∀ names, d.names = some names → names ≠ []
  precision : ∀ n, d.precision = some n → ∃ x, n = .real x ∧ x.isFinite = true ∧
    x.isPositive = true
  columns : (d.blocks.map Prod.fst).Nodup
  blocks : ∀ e ∈ d.blocks, e.1 ≠ "" ∧ (e.2.filter Rule.declaresType).length ≤ 1
  conditionalNames : (d.conditionals.map Conditional.name).Nodup
  conditionals : ∀ c ∈ d.conditionals, c.name ≠ "" ∧ ∀ clause ∈ c.clauses, clause.column ≠ ""

/-- A draft without declarations is well formed. -/
theorem wellFormed_empty (formats : Option (List String)) :
    WellFormed { empty with dateFormats := formats } where
  names := by simp [empty]
  precision := by simp [empty]
  columns := by simp [empty]
  blocks := by simp [empty]
  conditionalNames := by simp [empty]
  conditionals := by simp [empty]

/-- A finite number is positive exactly if it is not at most zero. -/
private theorem isPositive_of_isAtMostZero {x : Double} (hx : x.isFinite = true)
    (h : (Number.real x).isAtMostZero = false) : x.isPositive = true := by
  cases x with
  | finite s m =>
    simp only [Number.isAtMostZero, Double.zero, Double.lt, Double.eq, Double.signedUnits,
      Bool.or_eq_false_iff, decide_eq_false_iff_not, beq_eq_false_iff_ne] at h
    simp only [Double.isPositive, Double.zero, Double.lt, Double.signedUnits, decide_eq_true_eq]
    simp only [Bool.false_eq_true, if_false] at h ⊢
    omega
  | _ => simp [Double.isFinite] at hx

namespace WellFormed

/-- Declarations other than rules keep a draft well formed. A precision has to be finite, and the
name of a column must not be empty; both hold of what is read from a text. -/
theorem perform (h : d.WellFormed) {st : Statement}
    (hprecision : ∀ x, st = .precision x → x.isFinite = true)
    (hcolumn : ∀ column, st = .openBlock column → column ≠ "") (hd : d.perform st = .ok d') :
    d'.WellFormed := by
  cases st with
  | columnNames names =>
    obtain ⟨-, hne, rfl⟩ := declareColumns_eq_ok_iff.mp hd
    refine { h with names := ?_ }
    rintro _ ⟨⟩
    exact hne
  | nullValues values =>
    obtain ⟨-, rfl⟩ := declareNullValues_eq_ok_iff.mp hd
    exact { h with }
  | separator text =>
    obtain ⟨-, sep, -, rfl⟩ := declareSeparator_some_eq_ok_iff.mp hd
    exact { h with }
  | precision x =>
    obtain ⟨-, hpos, rfl⟩ := declarePrecision_eq_ok_iff.mp hd
    refine { h with precision := ?_ }
    rintro _ ⟨⟩
    have hx := hprecision x rfl
    exact ⟨x, rfl, hx, isPositive_of_isAtMostZero hx hpos⟩
  | requireAll =>
    obtain rfl := Except.ok.inj hd
    exact { h with }
  | forbidExtra =>
    obtain rfl := Except.ok.inj hd
    exact { h with }
  | keepOrder =>
    obtain rfl := Except.ok.inj hd
    exact { h with }
  | openBlock column =>
    obtain ⟨hnew, rfl⟩ := beginColumn_eq_ok_iff.mp hd
    refine { h with columns := ?_, blocks := ?_ }
    · rw [List.map_append, List.map_singleton]
      exact List.nodup_append_comm.mpr (List.nodup_cons.mpr ⟨hnew, h.columns⟩)
    · intro e he
      rcases List.mem_append.mp he with he | he
      · exact h.blocks e he
      · obtain rfl := List.mem_singleton.mp he
        exact ⟨hcolumn column rfl, by simp⟩
  | openConditional name =>
    obtain ⟨-, rfl⟩ := perform_openConditional_eq_ok_iff.mp hd
    exact h

/-- A conditional rule that is added keeps a draft well formed. -/
theorem addConditional (h : d.WellFormed) (hd : d.addConditional name a c line = .ok d') :
    d'.WellFormed := by
  obtain ⟨hnew, hname, ha, hc, rfl⟩ := addConditional_eq_ok_iff.mp hd
  refine { h with conditionalNames := ?_, conditionals := ?_ }
  · rw [withConditional, List.map_append, List.map_singleton]
    exact List.nodup_append_comm.mpr (List.nodup_cons.mpr ⟨hnew, h.conditionalNames⟩)
  · intro made hmade
    rcases List.mem_append.mp hmade with hmade | hmade
    · exact h.conditionals made hmade
    · obtain rfl := List.mem_singleton.mp hmade
      refine ⟨hname, ?_⟩
      simp [Conditional.clauses, ha, hc]

end WellFormed

/-! ### The open block -/

/-- A rule for the last block goes to its end. -/
theorem appendRule_concat (h : column ∉ init.map Prod.fst) :
    appendRule column rule (init ++ [(column, rules)]) = init ++ [(column, rules ++ [rule])] := by
  induction init with
  | nil => simp [appendRule]
  | cons e init ih =>
    obtain ⟨name, others⟩ := e
    rw [List.map_cons, List.mem_cons, not_or] at h
    rw [List.cons_append, appendRule, if_neg (by simpa using Ne.symm h.1), ih h.2, List.cons_append]

/-- The rules of the last block. -/
theorem rules?_concat (h : column ∉ init.map Prod.fst)
    (hblocks : d.blocks = init ++ [(column, rules)]) : d.rules? column = some rules := by
  have hnone : init.lookup column = none := by
    rw [List.lookup_eq_none_iff]
    intro e he
    rw [bne_iff_ne]
    rintro rfl
    exact h (List.mem_map_of_mem he)
  rw [rules?, hblocks, List.lookup_append, hnone, Option.none_or, List.lookup_cons,
    beq_self_eq_true]

/-- A rule is one too many only if it declares a type that was declared before. -/
theorem length_filter_concat_le (h : (rules.filter Rule.declaresType).length ≤ 1)
    (hroom : rule.declaresType = true → ∀ r ∈ rules, r.declaresType = false) :
    ((rules ++ [rule]).filter Rule.declaresType).length ≤ 1 := by
  rw [List.filter_append, List.length_append]
  by_cases htype : rule.declaresType = true
  · have hnone : rules.filter Rule.declaresType = [] :=
      List.filter_eq_nil_iff.mpr fun r hr => by simp [hroom htype r hr]
    simp [hnone, htype]
  · simpa [htype] using h

/-- A rule that the last block has room for keeps a draft well formed. -/
theorem WellFormed.concat_rule (h : d.WellFormed) (hblocks : d.blocks = init ++ [(column, rules)])
    (hroom : rule.declaresType = true → ∀ r ∈ rules, r.declaresType = false) :
    WellFormed { d with blocks := init ++ [(column, rules ++ [rule])] } := by
  refine { h with columns := ?_, blocks := ?_ }
  · have hcolumns := h.columns
    rw [hblocks] at hcolumns
    simpa using hcolumns
  · intro e he
    have hlast := h.blocks (column, rules) (by simp [hblocks])
    rcases List.mem_append.mp he with he | he
    · exact h.blocks e (hblocks ▸ List.mem_append_left _ he)
    · obtain rfl := List.mem_singleton.mp he
      exact ⟨hlast.1, length_filter_concat_le hlast.2 hroom⟩

/-! ### The finished ruleset -/

/-- A well-formed draft has settings. -/
theorem WellFormed.exists_settings (h : d.WellFormed) : ∃ s, d.settings = .ok s := by
  obtain ⟨x, hx, hprecision⟩ : ∃ x : Double, x.isPositive = true ∧ d.precisionValue? = some x := by
    unfold precisionValue?
    cases hprecision : d.precision with
    | none => exact ⟨_, Settings.defaultPrecision_pos, rfl⟩
    | some n =>
      obtain ⟨x, rfl, -, hx⟩ := h.precision n hprecision
      exact ⟨x, hx, rfl⟩
  exact ⟨⟨_, _, x, hx⟩, settings_eq_ok_iff.mpr ⟨rfl, rfl, hprecision⟩⟩

/-- A ruleset holds what a draft has declared, with given settings and column names. -/
structure Finishes (d : Draft) (s : Settings) (names : List String) (ruleset : Ruleset) : Prop where
  settings : ruleset.settings = s
  columns : ruleset.columns = ⟨names, d.allRequired, d.noExtra, d.checkOrder⟩
  blocks : ruleset.blocks = d.blocks.map fun e => ⟨e.1, e.2⟩
  conditionals : ruleset.conditionals = d.conditionals
  dateFormats : ruleset.dateFormats = d.dateFormats

variable {s : Settings} {names : List String} {ruleset : Ruleset}

theorem Finishes.allRules_eq (h : d.Finishes s names ruleset) :
    ruleset.allRules = d.allRules := by
  rw [Ruleset.allRules, h.blocks, h.conditionals, Ruleset.rulesOf, allRules, List.flatMap_map]

/-- The columns of the blocks are those of the draft. -/
theorem Finishes.blockColumns_eq (h : d.Finishes s names ruleset) :
    ruleset.blocks.map Block.column = d.blocks.map Prod.fst := by
  rw [h.blocks, List.map_map]
  rfl

/-- A draft with different columns and different names of conditional rules is finished by a
ruleset. -/
theorem exists_finishes (s : Settings) (names : List String)
    (hcolumns : (d.blocks.map Prod.fst).Nodup)
    (hnames : (d.conditionals.map Conditional.name).Nodup) :
    ∃ ruleset, d.Finishes s names ruleset := by
  refine ⟨⟨s, ⟨names, d.allRequired, d.noExtra, d.checkOrder⟩, d.blocks.map fun e => ⟨e.1, e.2⟩,
    d.conditionals, d.dateFormats, ?_, hnames⟩, rfl, rfl, rfl, rfl, rfl⟩
  rwa [List.map_map]

end Draft

/-! ### Making rulesets -/

private theorem Block.make_eq_ok_iff {column : String} {rules : List Rule} {b : Block} :
    make column rules = .ok b ↔
      (column ≠ "" ∧ (rules.filter Rule.declaresType).length ≤ 1) ∧ b = ⟨column, rules⟩ := by
  rw [make, ← emptyFault_eq_nil_iff "column"]
  cases emptyFault "column" column with
  | cons => simp
  | nil =>
    simp only [true_and]
    split_ifs with h
    · refine ⟨fun hb => by simp at hb, fun hb => absurd h ?_⟩
      exact Nat.not_lt.mpr hb.1
    · rw [Except.ok.injEq]
      exact ⟨fun hb => ⟨Nat.le_of_not_lt h, hb.symm⟩, fun hb => hb.2.symm⟩

namespace Draft

variable {d : Draft} {s : Settings} {names : List String} {ruleset : Ruleset}

private theorem mapM_make_eq_ok_iff {entries : List (String × List Rule)}
    {blocks : List (String × Block)} :
    (entries.mapM fun (column, rules) => (Block.make column rules).map fun b => (column, b))
        = .ok blocks ↔
      (∀ e ∈ entries, e.1 ≠ "" ∧ (e.2.filter Rule.declaresType).length ≤ 1) ∧
        entries.map (fun e => (e.1, ⟨e.1, e.2⟩)) = blocks := by
  rw [mapM_eq_ok_iff, ← List.forall₂_eq_eq_eq, List.forall₂_map_left_iff, ← List.forall₂_and_left]
  have hstep : ∀ (e : String × List Rule) (block : String × Block),
      (Block.make e.1 e.2).map (fun b => (e.1, b)) = .ok block ↔
        (e.1 ≠ "" ∧ (e.2.filter Rule.declaresType).length ≤ 1) ∧
          (e.1, (⟨e.1, e.2⟩ : Block)) = block := by
    intro e block
    simp only [map_eq_ok_iff, Block.make_eq_ok_iff]
    constructor
    · rintro ⟨b, ⟨hfits, rfl⟩, rfl⟩
      exact ⟨hfits, rfl⟩
    · rintro ⟨hfits, rfl⟩
      exact ⟨_, ⟨hfits, rfl⟩, rfl⟩
  constructor
  · exact List.Forall₂.imp fun e block => (hstep e block).mp
  · exact List.Forall₂.imp fun e block => (hstep e block).mpr

private theorem columnsMake_eq_ok_iff {allRequired noExtra checkOrder : Bool} {spec : ColumnSpec} :
    ColumnSpec.make names allRequired noExtra checkOrder = .ok spec ↔
      names ≠ [] ∧ spec = ⟨names, allRequired, noExtra, checkOrder⟩ := by
  rw [ColumnSpec.make, ← List.isEmpty_eq_false_iff]
  cases names.isEmpty <;> simp [eq_comm]

/-- The parts of a draft with different columns make a ruleset exactly if they are not refused. -/
private theorem rulesetMake_eq_ok_iff (hcolumns : (d.blocks.map Prod.fst).Nodup) :
    Ruleset.make s ⟨names, d.allRequired, d.noExtra, d.checkOrder⟩
        (d.blocks.map fun e => (e.1, ⟨e.1, e.2⟩)) d.conditionals d.dateFormats = .ok ruleset ↔
      Ruleset.refusal? (d.blocks.map fun e => (e.1, ⟨e.1, e.2⟩)) d.conditionals d.dateFormats
          = none ∧ d.Finishes s names ruleset := by
  have hkeys : ((d.blocks.map fun e => (e.1, (⟨e.1, e.2⟩ : Block))).map (·.1)).Nodup := by
    rwa [List.map_map]
  rw [Ruleset.make_eq_ok_iff, Keyed.ofList_eq hkeys, List.map_map]
  exact and_congr_right fun _ => ⟨fun ⟨hs, hspec, hblocks, hconditionals, hformats⟩ =>
    ⟨hs, hspec, hblocks, hconditionals, hformats⟩, fun h =>
    ⟨h.settings, h.columns, h.blocks, h.conditionals, h.dateFormats⟩⟩

/-- What is built finishes the draft. -/
theorem WellFormed.finishes_of_build (hd : d.WellFormed) (h : d.build = .ok ruleset) :
    ∃ s names, d.settings = .ok s ∧ d.names = some names ∧ d.Finishes s names ruleset := by
  unfold build at h
  split at h
  · simp at h
  rename_i names hnames
  obtain ⟨s, hs, h⟩ := bind_eq_ok_iff.mp (mapError_eq_ok_iff.mp h)
  obtain ⟨columns, hcolumns, h⟩ := bind_eq_ok_iff.mp h
  obtain ⟨blocks, hblocks, h⟩ := bind_eq_ok_iff.mp h
  obtain ⟨-, rfl⟩ := columnsMake_eq_ok_iff.mp hcolumns
  obtain ⟨-, rfl⟩ := mapM_make_eq_ok_iff.mp hblocks
  exact ⟨s, names, hs, hnames, ((rulesetMake_eq_ok_iff hd.columns).mp h).2⟩

/-- **A well-formed draft that names columns makes a ruleset**, if its date formats are known. -/
theorem WellFormed.build_eq_ok (h : d.WellFormed) (hs : d.settings = .ok s)
    (hnames : d.names = some names)
    (hformats : ∀ known, d.dateFormats = some known → ∀ rule ∈ d.allRules, ∀ w,
      Ruleset.formatName? rule = some w → w.value ∈ known)
    (hfinishes : d.Finishes s names ruleset) : d.build = .ok ruleset := by
  have hrules : Ruleset.rulesOf (((d.blocks.map fun e => (e.1, (⟨e.1, e.2⟩ : Block)))).map (·.2))
      d.conditionals = d.allRules := by
    simp [Ruleset.rulesOf, allRules, List.flatMap_map]
  have hrefusal : Ruleset.refusal? (d.blocks.map fun e => (e.1, (⟨e.1, e.2⟩ : Block)))
      d.conditionals d.dateFormats = none := by
    refine Ruleset.refusal?_eq_none_iff.mpr ⟨?_, h.conditionalNames, ?_⟩
    · intro e he
      obtain ⟨e', -, rfl⟩ := List.mem_map.mp he
      rfl
    · rwa [hrules]
  unfold build
  rw [hnames]
  refine mapError_eq_ok_iff.mpr (bind_eq_ok_iff.mpr ⟨s, hs, bind_eq_ok_iff.mpr
    ⟨_, columnsMake_eq_ok_iff.mpr ⟨h.names names hnames, rfl⟩, bind_eq_ok_iff.mpr
      ⟨_, mapM_make_eq_ok_iff.mpr ⟨h.blocks, rfl⟩, ?_⟩⟩⟩)
  exact (rulesetMake_eq_ok_iff h.columns).mpr ⟨hrefusal, hfinishes⟩

end Draft

end TableRules
