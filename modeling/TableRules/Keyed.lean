/-!
# Keyed lists

A keyed list holds entries with different keys, in the order in which the keys were first put.
Putting a value under a key that is there replaces the value and keeps the place.
-/

namespace TableRules.Keyed

variable {κ α : Type} [BEq κ]

/-- Puts the value that `f` makes of the present value, if any, under a key. -/
def update (key : κ) (f : Option α → α) : List (κ × α) → List (κ × α)
  | [] => [(key, f none)]
  | (k, v) :: rest => if k == key then (k, f (some v)) :: rest else (k, v) :: update key f rest

/-- Puts a value under a key. -/
def put (key : κ) (value : α) (entries : List (κ × α)) : List (κ × α) :=
  update key (fun _ => value) entries

/-- The keyed list of some entries; of two entries with one key the later value counts. -/
def ofList (entries : List (κ × α)) : List (κ × α) :=
  entries.foldl (fun acc e => put e.1 e.2 acc) []

/-- The keys after an update: an absent key comes last. -/
theorem keys_update [LawfulBEq κ] (key : κ) (f : Option α → α) (entries : List (κ × α)) :
    (update key f entries).map (·.1) =
      if key ∈ entries.map (·.1) then entries.map (·.1) else entries.map (·.1) ++ [key] := by
  induction entries with
  | nil => rfl
  | cons e rest ih =>
    obtain ⟨k, v⟩ := e
    simp only [update, beq_iff_eq, List.map_cons, List.mem_cons]
    by_cases h : k = key
    · simp [h]
    · by_cases hr : key ∈ rest.map (·.1)
      · simp [h, ih, hr]
      · simp [h, ih, hr, Ne.symm h]

/-- An update keeps keys different. -/
theorem nodup_keys_update [LawfulBEq κ] {key : κ} {f : Option α → α} {entries : List (κ × α)}
    (h : (entries.map (·.1)).Nodup) : ((update key f entries).map (·.1)).Nodup := by
  rw [keys_update]
  split
  · exact h
  · rename_i hkey
    rw [List.nodup_append]
    refine ⟨h, by simp, ?_⟩
    intro a ha b hb hab
    simp only [List.mem_singleton] at hb
    exact hkey (hb ▸ hab ▸ ha)

/-- A keyed list has different keys. -/
theorem nodup_keys_ofList [LawfulBEq κ] (entries : List (κ × α)) :
    ((ofList entries).map (·.1)).Nodup := by
  have hfold : ∀ before : List (κ × α), (before.map (·.1)).Nodup →
      ((entries.foldl (fun acc e => put e.1 e.2 acc) before).map (·.1)).Nodup := by
    induction entries with
    | nil => exact fun _ h => h
    | cons e entries ih => exact fun before h => ih _ (nodup_keys_update h)
  exact hfold [] List.nodup_nil

/-- Entries with different keys are the keyed list of themselves. -/
theorem ofList_eq [LawfulBEq κ] {entries : List (κ × α)} (h : (entries.map (·.1)).Nodup) :
    ofList entries = entries := by
  have hput : ∀ (before : List (κ × α)) (e : κ × α), e.1 ∉ before.map (·.1) →
      put e.1 e.2 before = before ++ [e] := by
    intro before e he
    rw [put]
    induction before with
    | nil => rfl
    | cons first before ih =>
      rw [List.map_cons, List.mem_cons, not_or] at he
      rw [update, if_neg (by simpa using Ne.symm he.1), ih he.2]
      rfl
  have hfold : ∀ before : List (κ × α), ((before ++ entries).map (·.1)).Nodup →
      entries.foldl (fun acc e => put e.1 e.2 acc) before = before ++ entries := by
    clear h
    induction entries with
    | nil => exact fun before _ => (List.append_nil before).symm
    | cons e entries ih =>
      intro before hbefore
      have he : e.1 ∉ before.map (·.1) := by
        rw [List.map_append, List.map_cons, List.nodup_append] at hbefore
        exact fun hmem => hbefore.2.2 _ hmem _ List.mem_cons_self rfl
      rw [List.append_cons] at hbefore ⊢
      rw [List.foldl_cons, hput before e he]
      exact ih _ hbefore
  exact hfold [] h

/-- An entry after an update is the new one or was there before. -/
theorem mem_of_mem_update [LawfulBEq κ] {key : κ} {f : Option α → α} {entries : List (κ × α)}
    {entry : κ × α} (h : entry ∈ update key f entries) :
    entry = (key, f (entries.lookup key)) ∨ entry ∈ entries := by
  induction entries with
  | nil => exact .inl (List.mem_singleton.mp h)
  | cons e rest ih =>
    obtain ⟨k, v⟩ := e
    rw [update] at h
    rw [List.lookup_cons]
    by_cases hkey : k = key
    · subst hkey
      rw [if_pos (beq_self_eq_true k), List.mem_cons] at h
      rw [beq_self_eq_true]
      exact h.imp_right (List.mem_cons_of_mem _)
    · rw [if_neg (by simpa using hkey), List.mem_cons] at h
      rw [beq_eq_false_iff_ne.mpr (Ne.symm hkey)]
      rcases h with rfl | h
      · exact .inr List.mem_cons_self
      · exact (ih h).imp_right (List.mem_cons_of_mem _)

/-- The value under the key of an update. -/
theorem lookup_update_self [LawfulBEq κ] (key : κ) (f : Option α → α) (entries : List (κ × α)) :
    (update key f entries).lookup key = some (f (entries.lookup key)) := by
  induction entries with
  | nil => simp [update]
  | cons e rest ih =>
    obtain ⟨k, v⟩ := e
    by_cases hkey : k = key
    · simp [update, hkey]
    · simp [update, hkey, List.lookup_cons, beq_eq_false_iff_ne.mpr (Ne.symm hkey), ih]

/-- An update keeps the values under other keys. -/
theorem lookup_update_of_ne [LawfulBEq κ] {key key' : κ} (h : key' ≠ key) (f : Option α → α)
    (entries : List (κ × α)) : (update key f entries).lookup key' = entries.lookup key' := by
  induction entries with
  | nil => simp [update, h]
  | cons e rest ih =>
    obtain ⟨k, v⟩ := e
    by_cases hkey : k = key
    · simp [update, hkey, List.lookup_cons, beq_eq_false_iff_ne.mpr h]
    · simp [update, hkey, List.lookup_cons, ih]

/-- Of two updates of one key the second one works on what the first one made. -/
theorem update_update [LawfulBEq κ] (key : κ) (f g : Option α → α) (entries : List (κ × α)) :
    update key g (update key f entries) = update key (fun value => g (some (f value))) entries := by
  induction entries with
  | nil => simp [update]
  | cons e rest ih =>
    obtain ⟨k, v⟩ := e
    by_cases hkey : k = key
    · simp [update, hkey]
    · simp [update, hkey, ih]

/-- An update depends on what becomes of the present value. -/
theorem update_congr [LawfulBEq κ] {key : κ} {f g : Option α → α} {entries : List (κ × α)}
    (h : f (entries.lookup key) = g (entries.lookup key)) :
    update key f entries = update key g entries := by
  induction entries with
  | nil => exact congrArg (fun value => [(key, value)]) h
  | cons e rest ih =>
    obtain ⟨k, v⟩ := e
    rw [List.lookup_cons] at h
    by_cases hkey : k = key
    · subst hkey
      rw [beq_self_eq_true] at h
      simp [update, h]
    · rw [beq_eq_false_iff_ne.mpr (Ne.symm hkey)] at h
      simp [update, hkey, ih h]

end TableRules.Keyed
