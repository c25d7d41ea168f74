import TableRules.Evaluation.Run
import TableRules.Proofs.Results

/-!
# Recording outcomes

An assembly of a report could break off in three ways: an outcome may have no place, be it that of a
block or that of a conditional rule, and a failed rule may have neither a note nor a message to be
reported with. None of them happens to an assembly that is ready (`Assembly.Ready`): it has the
places of its ruleset, and all rules whose outcomes were recorded are explained. The assembly of an
engine is ready from the start, and recording keeps it so.

**Main result** (`Engine.exists_assemble`): outcomes that belong to blocks and conditional rules of
the ruleset, and whose rules are explained, make a report.
-/

namespace TableRules

open Result

variable {r : Ruleset} {a : Assembly} {e : Engine} {table : Table}

/-- The outcome of a rule that did not pass has a note or a message. -/
def RuleOutcome.IsExplained (o : RuleOutcome) : Prop :=
  o.passed = false → o.note.getD "" ≠ "" ∨ o.messages ≠ []

namespace Keyed

variable {κ α : Type} [BEq κ] [LawfulBEq κ] {key : κ} {value : α} {entries : List (κ × α)}

/-- Putting a value under a key adds no other entry. -/
theorem mem_of_mem_put {entry : κ × α} (h : entry ∈ put key value entries) :
    entry = (key, value) ∨ entry ∈ entries :=
  mem_of_mem_update h

/-- Putting a value under a key that is there keeps the keys. -/
theorem keys_put (h : key ∈ entries.map (·.1)) :
    (put key value entries).map (·.1) = entries.map (·.1) := by
  rw [put, keys_update, if_pos h]

theorem any_key_iff : (entries.any fun entry => entry.1 == key) = true ↔
    key ∈ entries.map (·.1) := by
  rw [List.any_eq_true, List.mem_map]
  exact exists_congr fun entry => and_congr_right fun _ => beq_iff_eq

end Keyed

namespace Assembly

/-- An assembly has a place for each block and each conditional rule of a ruleset, and all rules
whose outcomes were recorded are explained. -/
structure Ready (r : Ruleset) (a : Assembly) : Prop where
  columnKeys : a.columns.map (·.1) = r.blocks.map Block.column
  conditionalKeys : a.conditionals.map (·.1) = r.conditionals.map Conditional.name
  explained : ∀ entry ∈ a.columns, ∀ o, entry.2 = some o → ∀ rule ∈ o.rules, rule.IsExplained

/-- The assembly of an engine is ready before any outcome is recorded. -/
theorem ready_opening (e : Engine) (table : Table) : (e.opening table).Ready e.ruleset where
  columnKeys := by
    change (e.ruleset.blocks.map fun b => (b.column, none)).map (·.1) = _
    rw [List.map_map]
    rfl
  conditionalKeys := by
    change (e.ruleset.conditionals.map fun c => (c.name, none)).map (·.1) = _
    rw [List.map_map]
    rfl
  explained := by
    intro entry hentry o ho
    obtain ⟨b, -, rfl⟩ := List.mem_map.mp hentry
    cases ho

/-! ### Recording -/

/-- The outcome of a block has its place. -/
theorem Ready.recordColumn (h : a.Ready r) {o : ColumnOutcome}
    (hplace : o.column ∈ r.blocks.map Block.column) (ho : ∀ rule ∈ o.rules, rule.IsExplained) :
    ∃ b, a.recordColumn o = .ok b ∧ b.Ready r := by
  have hkey : o.column ∈ a.columns.map (·.1) := h.columnKeys ▸ hplace
  refine ⟨_, by rw [Assembly.recordColumn, if_pos (Keyed.any_key_iff.mpr hkey)], ?_, ?_, ?_⟩
  · exact (Keyed.keys_put hkey).trans h.columnKeys
  · exact h.conditionalKeys
  · intro entry hentry o' ho'
    rcases Keyed.mem_of_mem_put hentry with rfl | hentry
    · exact Option.some.inj ho' ▸ ho
    · exact h.explained entry hentry o' ho'

/-- The outcome of a conditional rule has its place. -/
theorem Ready.recordConditional (h : a.Ready r) {o : ConditionalOutcome}
    (hplace : o.name ∈ r.conditionals.map Conditional.name) :
    ∃ b, a.recordConditional o = .ok b ∧ b.Ready r := by
  have hkey : o.name ∈ a.conditionals.map (·.1) := h.conditionalKeys ▸ hplace
  refine ⟨_, by rw [Assembly.recordConditional, if_pos (Keyed.any_key_iff.mpr hkey)], ?_, ?_, ?_⟩
  · exact h.columnKeys
  · exact (Keyed.keys_put hkey).trans h.conditionalKeys
  · exact h.explained

/-! ### Findings -/

/-- A rule that did not pass is reported with its note, or else with its first message. -/
theorem exists_ruleFinding (column : String) {o : RuleOutcome} (h : o.IsExplained)
    (hfailed : o.passed = false) : ∃ finding, ruleFinding column o = .ok finding := by
  unfold ruleFinding
  dsimp only
  split_ifs with hnote
  · have hmessages : o.messages ≠ [] :=
      (h hfailed).resolve_left (not_not_intro (String.isEmpty_iff.mp hnote))
    obtain ⟨message, rest, hcons⟩ := List.exists_cons_of_ne_nil hmessages
    exact ⟨_, by rw [hcons]⟩
  · exact ⟨_, rfl⟩

theorem exists_columnFindings (column : String) {outcome : Option ColumnOutcome}
    (h : ∀ o, outcome = some o → ∀ rule ∈ o.rules, rule.IsExplained) :
    ∃ findings, columnFindings column outcome = .ok findings := by
  cases outcome with
  | none => exact ⟨_, rfl⟩
  | some o =>
    rw [columnFindings]
    split_ifs with hempty hpassed
    · exact ⟨_, rfl⟩
    · exact ⟨_, rfl⟩
    · refine exists_mapM_eq_ok fun rule hrule => ?_
      obtain ⟨hmem, hfailed⟩ := List.mem_filter.mp hrule
      exact exists_ruleFinding column (h o rfl rule hmem) (by simpa using hfailed)

/-- A ready assembly can be finished. -/
theorem Ready.exists_build (h : a.Ready r) : ∃ report, a.build = .ok report := by
  obtain ⟨perColumn, hfindings⟩ : ∃ perColumn,
      a.columns.mapM (fun entry => columnFindings entry.1 entry.2) = .ok perColumn :=
    exists_mapM_eq_ok fun entry hentry => exists_columnFindings entry.1 (h.explained entry hentry)
  exact ⟨_, map_eq_ok_iff.mpr ⟨_, map_eq_ok_iff.mpr ⟨perColumn, hfindings, rfl⟩, rfl⟩⟩

end Assembly

namespace Engine

/-- **Outcomes of blocks and conditional rules of the ruleset make a report** if their rules are
explained. -/
theorem exists_assemble {columns : List ColumnOutcome} {conditionals : List ConditionalOutcome}
    (hcolumns : ∀ o ∈ columns, o.column ∈ e.ruleset.blocks.map Block.column ∧
      ∀ rule ∈ o.rules, rule.IsExplained)
    (hconditionals : ∀ o ∈ conditionals, o.name ∈ e.ruleset.conditionals.map Conditional.name) :
    ∃ report, e.assemble table columns conditionals = .ok report := by
  obtain ⟨a, ha, hready⟩ : ∃ a,
      columns.foldlM Assembly.recordColumn (e.opening table) = .ok a ∧ a.Ready e.ruleset :=
    exists_foldlM_eq_ok (Assembly.ready_opening e table) fun a o ho hready =>
      hready.recordColumn (hcolumns o ho).1 (hcolumns o ho).2
  obtain ⟨b, hb, hready⟩ : ∃ b,
      conditionals.foldlM Assembly.recordConditional a = .ok b ∧ b.Ready e.ruleset :=
    exists_foldlM_eq_ok hready fun a o ho hready => hready.recordConditional (hconditionals o ho)
  obtain ⟨report, hreport⟩ := hready.exists_build
  exact ⟨report, bind_eq_ok_iff.mpr ⟨a, ha, bind_eq_ok_iff.mpr ⟨b, hb, hreport⟩⟩⟩

end Engine

end TableRules
