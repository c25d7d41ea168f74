import Mathlib.Data.List.Nodup
import Mathlib.Data.Sum.Basic
import TableRules.Proofs.Report.Recording

/-!
# The order of recording does not matter

Outcomes of columns and of conditional rules may be recorded in any order, also mixed. Two outcomes
with different places can change places (`Assembly.record_comm`), so a whole recording of outcomes
with different places leaves the same assembly in every order (`Assembly.foldlM_record_perm`).

* `Assembly.Ready.exists_build_perm`: a ready assembly is finished with the same report, whatever
  the order in which outcomes of its blocks and conditional rules were recorded.
-/

namespace TableRules

open Result

namespace Keyed

variable {κ α : Type} [BEq κ] [LawfulBEq κ] {k k' : κ} {v v' : α}

theorem put_cons_self {w : α} {entries : List (κ × α)} :
    put k v ((k, w) :: entries) = (k, v) :: entries := by
  rw [put, update, if_pos (beq_self_eq_true k)]

theorem put_cons_of_ne {w : α} {entries : List (κ × α)} (h : k' ≠ k) :
    put k v ((k', w) :: entries) = (k', w) :: put k v entries := by
  rw [put, update, if_neg (by simpa using h)]
  rfl

/-- Values put under different keys that are there can be put in either order. -/
theorem put_comm {entries : List (κ × α)} (hne : k ≠ k') (hk : k ∈ entries.map (·.1))
    (hk' : k' ∈ entries.map (·.1)) :
    put k v (put k' v' entries) = put k' v' (put k v entries) := by
  induction entries with
  | nil => simp at hk
  | cons entry entries ih =>
    obtain ⟨j, w⟩ := entry
    by_cases hj : j = k
    · subst hj
      rw [put_cons_of_ne hne, put_cons_self, put_cons_self, put_cons_of_ne hne]
    · by_cases hj' : j = k'
      · subst hj'
        rw [put_cons_self, put_cons_of_ne hne.symm, put_cons_of_ne hne.symm, put_cons_self]
      · rw [put_cons_of_ne hj', put_cons_of_ne hj, put_cons_of_ne hj, put_cons_of_ne hj',
          ih ((List.mem_cons.mp hk).resolve_left (Ne.symm hj))
            ((List.mem_cons.mp hk').resolve_left (Ne.symm hj'))]

end Keyed

namespace Assembly

variable {r : Ruleset} {a : Assembly} {columns : List ColumnOutcome}
  {conditionals : List ConditionalOutcome}

/-- Records the outcome of a column or of a conditional rule. -/
def record (a : Assembly) : ColumnOutcome ⊕ ConditionalOutcome → Except AssemblyFault Assembly
  | .inl o => a.recordColumn o
  | .inr o => a.recordConditional o

/-- The place of an outcome. -/
def placeOf : ColumnOutcome ⊕ ConditionalOutcome → String ⊕ String
  | .inl o => .inl o.column
  | .inr o => .inr o.name

/-- An outcome belongs to a ruleset: to one of its blocks, with rules that are explained, or to one
of its conditional rules. -/
def Belongs (r : Ruleset) : ColumnOutcome ⊕ ConditionalOutcome → Prop
  | .inl o => o.column ∈ r.blocks.map Block.column ∧ ∀ rule ∈ o.rules, rule.IsExplained
  | .inr o => o.name ∈ r.conditionals.map Conditional.name

/-- Puts an outcome into its place. -/
def fill (a : Assembly) : ColumnOutcome ⊕ ConditionalOutcome → Assembly
  | .inl o => { a with columns := Keyed.put o.column (some o) a.columns }
  | .inr o => { a with conditionals := Keyed.put o.name (some o) a.conditionals }

/-- An outcome that belongs to the ruleset is put into its place, and the assembly stays ready. -/
theorem Ready.record (h : a.Ready r) {o : ColumnOutcome ⊕ ConditionalOutcome}
    (ho : Belongs r o) : a.record o = .ok (a.fill o) ∧ (a.fill o).Ready r := by
  cases o with
  | inl o =>
    have hkey : o.column ∈ a.columns.map (·.1) := h.columnKeys ▸ ho.1
    obtain ⟨b, hb, hready⟩ := h.recordColumn ho.1 ho.2
    rw [Assembly.recordColumn, if_pos (Keyed.any_key_iff.mpr hkey)] at hb
    obtain rfl := Except.ok.inj hb
    exact ⟨if_pos (Keyed.any_key_iff.mpr hkey), hready⟩
  | inr o =>
    have hkey : o.name ∈ a.conditionals.map (·.1) := h.conditionalKeys ▸ ho
    obtain ⟨b, hb, hready⟩ := h.recordConditional ho
    rw [Assembly.recordConditional, if_pos (Keyed.any_key_iff.mpr hkey)] at hb
    obtain rfl := Except.ok.inj hb
    exact ⟨if_pos (Keyed.any_key_iff.mpr hkey), hready⟩

/-- Different places can be filled in either order. -/
theorem Ready.fill_comm (h : a.Ready r) {o o' : ColumnOutcome ⊕ ConditionalOutcome}
    (ho : Belongs r o) (ho' : Belongs r o') (hne : placeOf o ≠ placeOf o') :
    (a.fill o).fill o' = (a.fill o').fill o := by
  -- outcomes of different kinds are put into different parts of the assembly
  cases o with
  | inl o =>
    cases o' with
    | inl o' =>
      exact congrArg (fun places => { a with columns := places }) <|
        Keyed.put_comm (fun heq => hne (congrArg Sum.inl heq.symm)) (h.columnKeys ▸ ho'.1)
          (h.columnKeys ▸ ho.1)
    | inr o' => rfl
  | inr o =>
    cases o' with
    | inl o' => rfl
    | inr o' =>
      have hkey : o.name ∈ a.conditionals.map (·.1) := h.conditionalKeys ▸ ho
      have hkey' : o'.name ∈ a.conditionals.map (·.1) := h.conditionalKeys ▸ ho'
      exact congrArg (fun places => { a with conditionals := places }) <|
        Keyed.put_comm (fun heq => hne (congrArg Sum.inr heq.symm)) hkey' hkey

/-- Two outcomes with different places can be recorded in either order. -/
theorem Ready.record_comm (h : a.Ready r) {o o' : ColumnOutcome ⊕ ConditionalOutcome}
    (ho : Belongs r o) (ho' : Belongs r o') (hne : placeOf o ≠ placeOf o') :
    (a.record o >>= fun b => b.record o') = a.record o' >>= fun b => b.record o := by
  obtain ⟨hrecord, hready⟩ := h.record ho
  obtain ⟨hrecord', hready'⟩ := h.record ho'
  calc (a.record o >>= fun b => b.record o')
      = (a.fill o).record o' := by rw [hrecord]; rfl
    _ = .ok ((a.fill o).fill o') := (hready.record ho').1
    _ = .ok ((a.fill o').fill o) := by rw [h.fill_comm ho ho' hne]
    _ = (a.fill o').record o := (hready'.record ho).1.symm
    _ = a.record o' >>= fun b => b.record o := by rw [hrecord']; rfl

/-- **Outcomes with different places** leave the same assembly, in whatever order they are
recorded. -/
theorem foldlM_record_perm (h : a.Ready r) {os os' : List (ColumnOutcome ⊕ ConditionalOutcome)}
    (hperm : os'.Perm os) (hplaces : (os.map placeOf).Nodup) (hos : ∀ o ∈ os, Belongs r o) :
    os'.foldlM record a = os.foldlM record a :=
  (foldlM_perm hperm.symm hplaces (fun a o ho ha => ⟨a.fill o, ha.record (hos o ho)⟩)
    (fun _ o ho o' ho' hne ha => ha.record_comm (hos o ho) (hos o' ho') hne) h).symm

/-- The outcomes of columns and of conditional rules, in order. -/
def outcomes (columns : List ColumnOutcome) (conditionals : List ConditionalOutcome) :
    List (ColumnOutcome ⊕ ConditionalOutcome) :=
  columns.map .inl ++ conditionals.map .inr

theorem foldlM_outcomes :
    (outcomes columns conditionals).foldlM record a
      = columns.foldlM recordColumn a >>= fun b => conditionals.foldlM recordConditional b := by
  rw [outcomes, List.foldlM_append, List.foldlM_map]
  refine bind_congr fun b => ?_
  rw [List.foldlM_map]
  rfl

theorem nodup_placeOf_outcomes (hcolumns : (columns.map ColumnOutcome.column).Nodup)
    (hconditionals : (conditionals.map ConditionalOutcome.name).Nodup) :
    ((outcomes columns conditionals).map placeOf).Nodup := by
  have hleft : (columns.map ColumnOutcome.column).map (Sum.inl : String → String ⊕ String)
      = (columns.map Sum.inl).map placeOf := by
    rw [List.map_map, List.map_map]
    rfl
  have hright : (conditionals.map ConditionalOutcome.name).map
      (Sum.inr : String → String ⊕ String) = (conditionals.map Sum.inr).map placeOf := by
    rw [List.map_map, List.map_map]
    rfl
  rw [outcomes, List.map_append, ← hleft, ← hright, List.nodup_append]
  refine ⟨hcolumns.map Sum.inl_injective, hconditionals.map Sum.inr_injective, ?_⟩
  intro p hp q hq
  obtain ⟨n, -, rfl⟩ := List.mem_map.mp hp
  obtain ⟨m, -, rfl⟩ := List.mem_map.mp hq
  exact nofun

/-- A ready assembly is finished with the same report, whatever the order of recording. -/
theorem Ready.exists_build_perm (h : a.Ready r)
    {os : List (ColumnOutcome ⊕ ConditionalOutcome)} (hplaces : (os.map placeOf).Nodup)
    (hos : ∀ o ∈ os, Belongs r o) :
    ∃ report, ∀ os' : List (ColumnOutcome ⊕ ConditionalOutcome), os'.Perm os →
      (os'.foldlM Assembly.record a >>= build) = .ok report := by
  obtain ⟨b, hb, hready⟩ : ∃ b, os.foldlM Assembly.record a = .ok b ∧ b.Ready r :=
    exists_foldlM_eq_ok h fun a o ho ha => ⟨a.fill o, ha.record (hos o ho)⟩
  obtain ⟨report, hreport⟩ := hready.exists_build
  refine ⟨report, fun os' hperm => ?_⟩
  rw [foldlM_record_perm h hperm hplaces hos]
  exact bind_eq_ok_iff.mpr ⟨b, hb, hreport⟩

end Assembly

end TableRules
