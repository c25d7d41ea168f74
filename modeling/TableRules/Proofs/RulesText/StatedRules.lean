import TableRules.Check.Basic
import TableRules.Proofs.RulesText.ArgumentLexemes
import TableRules.Proofs.RulesText.Statements

/-!
# Constraints that a text states

A text states fewer constraints than there are: the numbers that cells are compared with are finite
doubles, and a date format is one of the catalog (`Constraint.IsStated`). Such a constraint can be
checked (`Constraint.IsStated.exists_check`) and described
(`Constraint.IsStated.exists_description`), which is not so for every constraint: a bound may be an
integer beyond the largest double, and a date format unknown.
-/

namespace TableRules

open Tokens Result

variable {s : Settings} {catalog : Catalog} {c : Constraint} {ts : List Token}

namespace Constraint

/-- The numbers that a constraint compares cells with. -/
def bounds : Constraint → List Number
  | .member _ items => Check.itemNumbers items
  | .compare _ n => [n]
  | _ => []

/-- What a constraint satisfies that a text states. -/
structure IsStated (catalog : Catalog) (c : Constraint) : Prop where
  bounds : ∀ n ∈ c.bounds, ∃ x, n = .real x ∧ x.isFinite = true
  format : ∀ w, c = .hasFormat w → w.value ∈ catalog.names

private theorem mapM_item?_itemArgument (items : List SetItem) :
    (items.map itemArgument).mapM item? = some items := by
  rw [mapM_eq_some_iff, List.forall₂_map_left_iff, List.forall₂_same]
  intro item _
  cases item <;> rfl

/-- **An argument fits the kind of its constraint**, and the two make the constraint again. -/
theorem ofArgument_argument (c : Constraint) : ofArgument c.kind c.argument = .ok c := by
  cases c with
  | member allowed items =>
    cases allowed <;>
      simp only [kind, argument, ofArgument, withItems, mapM_item?_itemArgument]
  | text equal w => cases equal <;> rfl
  | compare op n => cases op <;> rfl
  | length b n => cases b <;> simp [kind, argument, ofArgument, withCount]
  | part p w => cases p <;> rfl
  | digits d n => cases d <;> simp [kind, argument, ofArgument, withCount]
  | _ => rfl

end Constraint

/-! ### What a text states -/

/-- The members of a written list that are numbers are finite doubles. -/
private theorem isFinite_of_isList {items : List SetItem} {n : Number} (h : IsList s items ts)
    (hn : n ∈ Check.itemNumbers items) : ∃ x, n = .real x ∧ x.isFinite = true := by
  obtain ⟨item, hitem, hnumber⟩ := List.mem_filterMap.mp hn
  obtain ⟨t, -, hread⟩ := h.exists_item hitem
  cases hread with
  | text => simp at hnumber
  | @number _ x _ hreal =>
    exact ⟨x, (Option.some.inj hnumber).symm, isFinite_of_parseReal? hreal⟩

theorem IsPhrase.isStated (h : IsPhrase s catalog c ts) : c.IsStated catalog := by
  -- phrases from tables: no form of theirs compares with doubles or names a format
  have hcount : ∀ form ∈ countForms, ∀ n, (form.2 n).bounds = [] ∧
      ∀ w, form.2 n ≠ .hasFormat w := by
    simp [countForms, Constraint.bounds]
  have hbare : ∀ form ∈ bareForms, form.2.bounds = [] ∧ ∀ w, form.2 ≠ .hasFormat w := by
    simp [bareForms, Constraint.bounds]
  have htext : ∀ form ∈ textForms, ∀ w, (form.2 w).bounds = [] ∧
      ∀ w', form.2 w ≠ .hasFormat w' := by
    simp [textForms, Constraint.bounds]
  cases h with
  | hasFormat _ _ hknown =>
    refine ⟨by simp [Constraint.bounds], ?_⟩
    rintro _ ⟨⟩
    exact hknown
  | count hform =>
    refine ⟨fun n hn => ?_, fun w hw => absurd hw ((hcount _ hform _).2 w)⟩
    simp [(hcount _ hform _).1] at hn
  | bare hform =>
    refine ⟨fun n hn => ?_, fun w hw => absurd hw ((hbare _ hform).2 w)⟩
    simp [(hbare _ hform).1] at hn
  | text hform =>
    refine ⟨fun n hn => ?_, fun w hw => absurd hw ((htext _ hform _).2 w)⟩
    simp [(htext _ hform _).1] at hn
  | member _ _ hlist => exact ⟨fun n hn => isFinite_of_isList hlist hn, by simp⟩
  | @compare _ x _ _ _ _ _ _ _ hreal =>
    refine ⟨fun n hn => ?_, by simp⟩
    exact ⟨x, List.mem_singleton.mp hn, isFinite_of_parseReal? hreal⟩
  | hasType => exact ⟨by simp [Constraint.bounds], by simp⟩
  | pattern => exact ⟨by simp [Constraint.bounds], by simp⟩

/-! ### What can be done with it -/

namespace Constraint

/-- A double is its own bound. -/
private theorem bound_real (x : Double) : Check.bound (.real x) = .ok x := rfl

/-- **A stated constraint can be checked.** -/
theorem IsStated.exists_check (h : c.IsStated catalog) :
    ∃ check, Check.ofConstraint catalog c = .ok check := by
  cases c with
  | hasFormat w =>
    have hsome : (catalog.get? w.value).isSome = true := by
      have hknown := h.format w rfl
      simpa [Catalog.get?, Catalog.names] using hknown
    obtain ⟨f, hf⟩ := Option.isSome_iff_exists.mp hsome
    exact ⟨.inFormat f, by rw [Check.ofConstraint, hf]⟩
  | member allowed items =>
    have hnumbers : ∃ xs, (Check.itemNumbers items).mapM Check.bound = .ok xs := by
      refine exists_mapM_eq_ok fun n hn => ?_
      obtain ⟨x, rfl, -⟩ := h.bounds n hn
      exact ⟨x, bound_real x⟩
    obtain ⟨xs, hxs⟩ := hnumbers
    exact ⟨_, map_eq_ok_iff.mpr ⟨xs, hxs, rfl⟩⟩
  | compare op n =>
    obtain ⟨x, rfl, -⟩ := h.bounds n List.mem_cons_self
    exact ⟨_, map_eq_ok_iff.mpr ⟨x, bound_real x, rfl⟩⟩
  | _ => exact ⟨_, rfl⟩

/-- **A stated constraint has a phrase.** -/
theorem IsStated.exists_description (h : c.IsStated catalog) :
    ∃ phrase, c.describe? = some phrase := by
  cases c with
  | member allowed items =>
    have hitems : ∃ texts, items.mapM describeItem? = some texts := by
      refine exists_mapM_eq_some fun item hitem => ?_
      cases item with
      | text w => exact ⟨_, rfl⟩
      | number n =>
        obtain ⟨x, rfl, -⟩ := h.bounds n (List.mem_filterMap.mpr ⟨.number n, hitem, rfl⟩)
        exact ⟨_, rfl⟩
    obtain ⟨texts, htexts⟩ := hitems
    cases allowed <;> simp [describe?, describeItems?, htexts]
  | text equal w => cases equal <;> exact ⟨_, rfl⟩
  | compare op n =>
    obtain ⟨x, rfl, -⟩ := h.bounds n List.mem_cons_self
    exact ⟨_, rfl⟩
  | _ => exact ⟨_, rfl⟩

end Constraint

end TableRules
