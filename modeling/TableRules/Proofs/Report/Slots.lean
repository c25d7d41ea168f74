import TableRules.Proofs.Report.Recording

/-!
# Places for outcomes

An assembly has one place for each block and each conditional rule. `Keyed.slots` are such places
after some outcomes were recorded: the place of a name holds the outcome with that name.

* One more outcome fills its place and leaves the others (`Keyed.put_slots`), so a whole recording
  fills the places of its outcomes (`Keyed.foldlM_slots`, `Assembly.foldlM_recordColumn`,
  `Assembly.foldlM_recordConditional`).
* Outcomes that come in the order of their places are read off the places in that order, each once
  (`Keyed.filterMap_slots`).
-/

namespace TableRules

open Result

namespace Keyed

variable {α : Type} {key : α → String} {names : List String} {done os : List α} {o : α}

/-- The places for given names, each with the first of some outcomes that has its name. -/
def slots (key : α → String) (names : List String) (os : List α) : List (String × Option α) :=
  names.map fun n => (n, os.find? fun o => key o == n)

theorem slots_nil : slots key names [] = names.map fun n => (n, none) := rfl

/-- Where all keys are different, no key comes before itself. -/
private theorem key_notMem (h : ((done ++ o :: os).map key).Nodup) : key o ∉ done.map key := by
  rw [List.map_append, List.map_cons] at h
  exact fun hmem => (List.nodup_append.mp h).2.2 _ hmem _ List.mem_cons_self rfl

private theorem find?_key_cons : ((o :: os).find? fun o' => key o' == key o) = some o :=
  List.find?_cons_of_pos (beq_self_eq_true (key o))

/-- Where all keys are different, a value is found by its key. -/
theorem find?_key (hos : (os.map key).Nodup) (ho : o ∈ os) :
    (os.find? fun o' => key o' == key o) = some o := by
  induction os with
  | nil => simp at ho
  | cons first os ih =>
    rw [List.map_cons, List.nodup_cons] at hos
    rcases List.mem_cons.mp ho with rfl | ho
    · exact find?_key_cons
    · have hne : key first ≠ key o := fun h => hos.1 (h ▸ List.mem_map_of_mem ho)
      rw [List.find?_cons_of_neg (by simpa using hne)]
      exact ih hos.2 ho

theorem find?_key_eq_none {n : String} (h : n ∉ os.map key) :
    (os.find? fun o => key o == n) = none := by
  refine List.find?_eq_none.mpr fun o ho => ?_
  rw [beq_iff_eq]
  rintro rfl
  exact h (List.mem_map_of_mem ho)

/-- A value is put into the place of its key. -/
theorem put_map {β : Type} {f : String → β} {k : String} {value : β} (hnames : names.Nodup)
    (hk : k ∈ names) : put k value (names.map fun n => (n, f n))
      = names.map fun n => (n, if n = k then value else f n) := by
  rw [put]
  induction names with
  | nil => simp at hk
  | cons n names ih =>
    rw [List.nodup_cons] at hnames
    simp only [List.map_cons, update, beq_iff_eq]
    by_cases hn : n = k
    · subst hn
      have hrest : ∀ m ∈ names, m ≠ n := fun m hm hmn => hnames.1 (hmn ▸ hm)
      rw [if_pos rfl, if_pos rfl]
      exact congrArg _ (List.map_congr_left fun m hm => by rw [if_neg (hrest m hm)])
    · rw [if_neg hn, if_neg hn, ih hnames.2 ((List.mem_cons.mp hk).resolve_left (Ne.symm hn))]

/-- **One more outcome** fills its place and leaves the others. -/
theorem put_slots (hnames : names.Nodup) (ho : key o ∈ names) (hnew : key o ∉ done.map key) :
    put (key o) (some o) (slots key names done) = slots key names (done ++ [o]) := by
  rw [slots, put_map hnames ho, slots]
  refine List.map_congr_left fun n _ => ?_
  rw [List.find?_append]
  split_ifs with hn
  · subst hn
    rw [find?_key_eq_none hnew, Option.none_or, find?_key_cons]
  · rw [List.find?_cons_of_neg (by simpa using Ne.symm hn), List.find?_nil, Option.or_none]

/-- **A recording of outcomes** fills their places, if every step puts an outcome into its place. -/
theorem foldlM_slots {ε σ : Type} {f : σ → α → Except ε σ} (fill : List (String × Option α) → σ)
    {t : σ} (hstep : ∀ places o t, f (fill places) o = .ok t →
      key o ∈ places.map (·.1) ∧ t = fill (put (key o) (some o) places))
    (hnames : names.Nodup) (hos : (os.map key).Nodup)
    (h : os.foldlM f (fill (slots key names [])) = .ok t) : t = fill (slots key names os) := by
  -- by induction on the outcomes that are left, for any outcomes recorded before them
  have hall : ∀ done, ((done ++ os).map key).Nodup →
      os.foldlM f (fill (slots key names done)) = .ok t →
        t = fill (slots key names (done ++ os)) := by
    clear h hos
    induction os with
    | nil =>
      intro done _ h
      rw [List.append_nil]
      exact (Except.ok.inj h).symm
    | cons o os ih =>
      intro done hdone h
      rw [List.foldlM_cons] at h
      obtain ⟨middle, ho, hrest⟩ := bind_eq_ok_iff.mp h
      obtain ⟨hplace, rfl⟩ := hstep _ o middle ho
      have hkeys : (slots key names done).map (·.1) = names := by
        rw [slots, List.map_map]
        exact List.map_id names
      rw [put_slots hnames (hkeys ▸ hplace) (key_notMem hdone)] at hrest
      rw [List.append_cons] at hdone ⊢
      exact ih (done ++ [o]) hdone hrest
  exact hall [] hos h

/-- **Outcomes that come in the order of their places** are read off in that order. -/
theorem filterMap_slots (hnames : names.Nodup) (h : (os.map key).Sublist names) :
    (slots key names os).filterMap (·.2) = os := by
  rw [slots, List.filterMap_map]
  change names.filterMap (fun n => os.find? fun o => key o == n) = os
  generalize hkeys : os.map key = keys at h
  induction h generalizing os with
  | slnil =>
    obtain rfl := List.map_eq_nil_iff.mp hkeys
    rfl
  | @cons keys names n h ih =>
    rw [List.nodup_cons] at hnames
    have hn : n ∉ os.map key := fun hmem => hnames.1 (h.subset (hkeys ▸ hmem))
    rw [List.filterMap_cons, find?_key_eq_none hn]
    exact ih hnames.2 hkeys
  | @cons_cons keys names n h ih =>
    rw [List.nodup_cons] at hnames
    obtain ⟨o, os, rfl, rfl, hrest⟩ := List.map_eq_cons_iff.mp hkeys
    rw [List.filterMap_cons, find?_key_cons]
    refine congrArg _ ((List.filterMap_congr fun m hm => ?_).trans (ih hnames.2 hrest))
    have hne : key o ≠ m := fun heq => hnames.1 (heq ▸ hm)
    exact List.find?_cons_of_neg (by simpa using hne)

end Keyed

namespace Assembly

variable {a b : Assembly} {names : List String} {columns : List ColumnOutcome}
  {conditionals : List ConditionalOutcome}

theorem foldlM_recordColumn (hnames : names.Nodup)
    (hcolumns : (columns.map ColumnOutcome.column).Nodup)
    (ha : a.columns = Keyed.slots ColumnOutcome.column names [])
    (h : columns.foldlM recordColumn a = .ok b) :
    b = { a with columns := Keyed.slots ColumnOutcome.column names columns } := by
  refine Keyed.foldlM_slots (fun places => { a with columns := places }) (fun places o t ht => ?_)
    hnames hcolumns (by rw [← ha]; exact h)
  rw [recordColumn] at ht
  split_ifs at ht with hany
  exact ⟨Keyed.any_key_iff.mp hany, (Except.ok.inj ht).symm⟩

theorem foldlM_recordConditional (hnames : names.Nodup)
    (hconditionals : (conditionals.map ConditionalOutcome.name).Nodup)
    (ha : a.conditionals = Keyed.slots ConditionalOutcome.name names [])
    (h : conditionals.foldlM recordConditional a = .ok b) :
    b = { a with conditionals := Keyed.slots ConditionalOutcome.name names conditionals } := by
  refine Keyed.foldlM_slots (fun places => { a with conditionals := places })
    (fun places o t ht => ?_) hnames hconditionals (by rw [← ha]; exact h)
  rw [recordConditional] at ht
  split_ifs at ht with hany
  exact ⟨Keyed.any_key_iff.mp hany, (Except.ok.inj ht).symm⟩

end Assembly

end TableRules
