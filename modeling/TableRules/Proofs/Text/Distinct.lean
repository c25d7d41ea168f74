import Mathlib.Data.List.Induction
import Mathlib.Data.List.Sort
import TableRules.Text.Search

/-!
# Distinct members

`Text.distinct` keeps the first occurrence of every member of a list, so it has the same members
(`mem_distinct_iff`), each of them once (`nodup_distinct`), in the order of their first places
(`pairwise_idxOf_distinct`).

These properties determine a list (`ListsOnce.unique`), also where only some of the members are
kept (`listsOnce_filter_distinct`).
-/

namespace TableRules.Text

variable {α : Type} [BEq α] [LawfulBEq α]

/-- One step of `distinct`: a member that was seen before is dropped. -/
private def addNew (seen : List α) (x : α) : List α := if seen.contains x then seen else seen ++ [x]

private theorem mem_addNew_iff {seen : List α} {x y : α} :
    y ∈ addNew seen x ↔ y ∈ seen ∨ y = x := by
  unfold addNew
  split
  · rename_i hseen
    exact ⟨.inl, fun h => h.elim id fun h => h ▸ List.contains_iff_mem.mp hseen⟩
  · rw [List.mem_append, List.mem_singleton]

/-- A list and the list of its distinct members have the same members. -/
theorem mem_distinct_iff {xs : List α} {x : α} : x ∈ distinct xs ↔ x ∈ xs := by
  have hfold : ∀ seen : List α, x ∈ xs.foldl addNew seen ↔ x ∈ seen ∨ x ∈ xs := by
    induction xs with
    | nil => simp
    | cons y ys ih =>
      intro seen
      rw [List.foldl_cons, ih, mem_addNew_iff, List.mem_cons, or_assoc]
  exact (hfold []).trans (or_iff_right List.not_mem_nil)

/-- Every distinct member is listed once. -/
theorem nodup_distinct (xs : List α) : (distinct xs).Nodup := by
  have hstep : ∀ (seen : List α) (x : α), seen.Nodup → (addNew seen x).Nodup := by
    intro seen x hseen
    unfold addNew
    split
    · exact hseen
    · rename_i hnew
      rw [List.contains_iff_mem] at hnew
      refine List.nodup_append.mpr ⟨hseen, by simp, ?_⟩
      rintro a ha b hb rfl
      exact hnew (List.mem_singleton.mp hb ▸ ha)
  have hfold : ∀ seen : List α, seen.Nodup → (xs.foldl addNew seen).Nodup := by
    induction xs with
    | nil => exact fun _ h => h
    | cons y ys ih => exact fun seen hseen => ih _ (hstep seen y hseen)
  exact hfold [] List.nodup_nil

/-! ### First places -/

/-- A last member is kept if it is new. -/
theorem distinct_append_singleton (xs : List α) (x : α) :
    distinct (xs ++ [x]) = if x ∈ xs then distinct xs else distinct xs ++ [x] := by
  have hstep : distinct (xs ++ [x]) = addNew (distinct xs) x := List.foldl_concat ..
  simp only [hstep, addNew, List.contains_iff_mem, mem_distinct_iff]

/-- Distinct members follow each other in the order of their first places. -/
theorem pairwise_idxOf_distinct (xs : List α) :
    (distinct xs).Pairwise fun a b => xs.idxOf a < xs.idxOf b := by
  induction xs using List.reverseRecOn with
  | nil => exact .nil
  | append_singleton xs x ih =>
    have hplace : ∀ a ∈ distinct xs, (xs ++ [x]).idxOf a = xs.idxOf a := fun a ha =>
      List.idxOf_append_of_mem (mem_distinct_iff.mp ha)
    have hkeep : (distinct xs).Pairwise fun a b => (xs ++ [x]).idxOf a < (xs ++ [x]).idxOf b :=
      ih.imp_of_mem fun ha hb hab => by rwa [hplace _ ha, hplace _ hb]
    rw [distinct_append_singleton]
    split_ifs with hx
    · exact hkeep
    · -- a new member has its first place behind all others
      refine List.pairwise_append.mpr ⟨hkeep, List.pairwise_singleton _ _, fun a ha b hb => ?_⟩
      rw [List.mem_singleton.mp hb, hplace a ha, List.idxOf_append_of_notMem hx]
      exact Nat.lt_add_right _ (List.idxOf_lt_length_of_mem (mem_distinct_iff.mp ha))

/-- Of the distinct members those with a property are the distinct ones among the members with
it. -/
theorem filter_distinct (p : α → Bool) (xs : List α) :
    (distinct xs).filter p = distinct (xs.filter p) := by
  induction xs using List.reverseRecOn with
  | nil => rfl
  | append_singleton xs x ih =>
    rw [distinct_append_singleton, List.filter_append]
    cases hp : p x with
    | true =>
      have hlast : [x].filter p = [x] := List.filter_eq_self.mpr (by simp [hp])
      have hmem : x ∈ xs.filter p ↔ x ∈ xs := by simp [hp]
      rw [hlast, distinct_append_singleton, ← ih]
      simp only [hmem]
      split_ifs
      · rfl
      · rw [List.filter_append, hlast]
    | false =>
      have hlast : [x].filter p = [] := List.filter_eq_nil_iff.mpr (by simp [hp])
      rw [hlast, List.append_nil, ← ih]
      split_ifs
      · rfl
      · rw [List.filter_append, hlast, List.append_nil]

/-- A list of the members of another that have a property: each of them once, in the order of their
first places. -/
structure ListsOnce (xs : List α) (P : α → Prop) (ys : List α) : Prop where
  mem_iff (a : α) : a ∈ ys ↔ a ∈ xs ∧ P a
  ordered : ys.Pairwise fun a b => xs.idxOf a < xs.idxOf b

omit [LawfulBEq α] in
/-- There is one such list. -/
theorem ListsOnce.unique {xs ys zs : List α} {P : α → Prop} (hy : ListsOnce xs P ys)
    (hz : ListsOnce xs P zs) : ys = zs := by
  have hirrefl : Std.Irrefl fun a b : α => xs.idxOf a < xs.idxOf b := ⟨fun _ => Nat.lt_irrefl _⟩
  have hantisymm : Std.Antisymm fun a b : α => xs.idxOf a < xs.idxOf b :=
    ⟨fun _ _ hab hba => absurd hab (Nat.lt_asymm hba)⟩
  exact hy.ordered.eq_of_mem_iff hz.ordered fun a => (hy.mem_iff a).trans (hz.mem_iff a).symm

theorem listsOnce_filter_distinct {xs : List α} {P : α → Prop} {p : α → Bool}
    (hp : ∀ a, p a = true ↔ P a) : ListsOnce xs P ((distinct xs).filter p) where
  mem_iff a := by rw [List.mem_filter, mem_distinct_iff, hp]
  ordered := (pairwise_idxOf_distinct xs).sublist List.filter_sublist

end TableRules.Text
