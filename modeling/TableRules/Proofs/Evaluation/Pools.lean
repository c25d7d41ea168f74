import Mathlib.Data.List.Perm.Basic
import TableRules.Evaluation.Pool
import TableRules.Proofs.Results

/-!
# Every schedule of a pool gives the same results

The moves of a pool come in an order that nothing fixes. What holds in every order is an invariant
(`Pool.Reached`): whatever waits, runs or has ended belongs to the item of its slot, a filled slot
holds the result of its item, and an item whose slot is empty is still under way unless a fault was
met. Each move brings the pool nearer to its end (`Pool.left`), and as long as something is left
some move is possible.

* `Pool.yields_cases`: whatever the schedule, a pool comes to the results of all items in order, or
  to a fault of one of them.
* `Pool.settles`: where no item has a fault, all schedules are bounded and come to the results that
  evaluating the items in turn gives.
-/

namespace TableRules.Pool

open Result

variable {α ε β : Type} {workers : Nat} {f : α → Except ε β} {items : List α} {p q : Pool α ε β}

/-! ### Moves -/

/-- What a move does. -/
inductive Step (workers : Nat) (f : α → Except ε β) (p : Pool α ε β) : Pool α ε β → Prop
  | takeUp {task : Nat × α} {rest : List (Nat × α)} (hwaiting : p.waiting = task :: rest)
      (hfree : p.running.length < workers) :
      Step workers f p { p with waiting := rest, running := p.running ++ [task] }
  | finish {place slot : Nat} {x : α} (hrunning : p.running[place]? = some (slot, x)) :
      Step workers f p
        { p with running := p.running.eraseIdx place, ended := p.ended ++ [(slot, f x)] }
  | collect {place slot : Nat} {y : β} (hfault : p.fault = none)
      (hended : p.ended[place]? = some (slot, .ok y)) :
      Step workers f p
        { p with ended := p.ended.eraseIdx place, results := p.results.set slot (some y) }
  | breakOff {place slot : Nat} {e : ε} (hfault : p.fault = none)
      (hended : p.ended[place]? = some (slot, .error e)) :
      Step workers f p { p with ended := p.ended.eraseIdx place, fault := some e }

/-- A move that is carried out takes up, finishes or collects an evaluation. -/
theorem step_of_step_eq_some {move : Move} (h : p.step workers f move = some q) :
    Step workers f p q := by
  cases move with
  | takeUp =>
    rw [step] at h
    split at h
    · cases h
    · rename_i task rest hwaiting
      split_ifs at h with hfree
      exact Option.some.inj h ▸ .takeUp hwaiting hfree
  | finish place =>
    obtain ⟨⟨slot, x⟩, hrunning, rfl⟩ := Option.map_eq_some_iff.mp h
    exact .finish hrunning
  | collect place =>
    rw [step] at h
    split_ifs at h with hfault
    rw [Option.not_isSome_iff_eq_none] at hfault
    obtain ⟨⟨slot, r⟩, hended, rfl⟩ := Option.map_eq_some_iff.mp h
    cases r with
    | ok y => exact .collect hfault hended
    | error e => exact .breakOff hfault hended

/-! ### What holds after any moves -/

/-- The slot of an item that is under way. -/
def IsPending (p : Pool α ε β) (slot : Nat) : Prop :=
  slot ∈ p.waiting.map (·.1) ∨ slot ∈ p.running.map (·.1) ∨ slot ∈ p.ended.map (·.1)

/-- What holds of a pool for some items after any moves. -/
structure Reached (f : α → Except ε β) (items : List α) (p : Pool α ε β) : Prop where
  waiting : ∀ t ∈ p.waiting, items[t.1]? = some t.2
  running : ∀ t ∈ p.running, items[t.1]? = some t.2
  ended : ∀ t ∈ p.ended, ∃ x, items[t.1]? = some x ∧ f x = t.2
  filled : ∀ (slot : Nat) (y : β), p.results[slot]? = some (some y) →
    ∃ x, items[slot]? = some x ∧ f x = .ok y
  length_results : p.results.length = items.length
  covered : p.fault = none → ∀ slot : Nat, p.results[slot]? = some none → p.IsPending slot
  fault : ∀ e, p.fault = some e → ∃ x ∈ items, f x = .error e

theorem reached_start : (start items).Reached f items where
  waiting := by
    intro t ht
    obtain ⟨⟨x, slot⟩, hmem, rfl⟩ := List.mem_map.mp ht
    exact List.mem_zipIdx_iff_getElem?.mp hmem
  running := nofun
  ended := nofun
  filled := by
    intro slot y h
    rw [start, List.getElem?_map] at h
    obtain ⟨x, -, h⟩ := Option.map_eq_some_iff.mp h
    cases h
  length_results := List.length_map _
  covered := by
    intro _ slot h
    rw [start, List.getElem?_map] at h
    obtain ⟨x, hx, -⟩ := Option.map_eq_some_iff.mp h
    refine .inl (List.mem_map.mpr ⟨(slot, x), List.mem_map.mpr ⟨(x, slot), ?_, rfl⟩, rfl⟩)
    exact List.mem_zipIdx_iff_getElem?.mpr hx
  fault := nofun

/-- What is in a list is at a given place or among the rest. -/
private theorem mem_eraseIdx_or {γ : Type} {xs : List γ} {place : Nat} {x y : γ}
    (hx : xs[place]? = some x) (hy : y ∈ xs) : y = x ∨ y ∈ xs.eraseIdx place := by
  obtain ⟨hplace, rfl⟩ := List.getElem?_eq_some_iff.mp hx
  exact List.mem_cons.mp ((List.getElem_cons_eraseIdx_perm hplace).mem_iff.mpr hy)

/-- A slot among given ones is that of a given place or among the rest. -/
private theorem slot_mem_or {γ : Type} {xs : List (Nat × γ)} {place slot n : Nat} {x : γ}
    (hx : xs[place]? = some (slot, x)) (h : n ∈ xs.map (·.1)) :
    n = slot ∨ n ∈ (xs.eraseIdx place).map (·.1) := by
  obtain ⟨t, ht, rfl⟩ := List.mem_map.mp h
  exact (mem_eraseIdx_or hx ht).imp (congrArg Prod.fst) (List.mem_map_of_mem)

/-- A move keeps the invariant. -/
theorem Reached.step (h : p.Reached f items) (hstep : Step workers f p q) : q.Reached f items := by
  cases hstep with
  | @takeUp task rest hwaiting hfree =>
    obtain ⟨htask, hrest⟩ := List.forall_mem_cons.mp (hwaiting ▸ h.waiting)
    refine ⟨hrest, ?_, h.ended, h.filled, h.length_results, fun hfault slot hslot => ?_, h.fault⟩
    · exact List.forall_mem_append.mpr ⟨h.running, List.forall_mem_singleton.mpr htask⟩
    · have hpending := h.covered hfault slot hslot
      simp only [IsPending, hwaiting, List.map_cons, List.mem_cons, List.map_append,
        List.mem_append, List.map_nil, List.not_mem_nil, or_false] at hpending ⊢
      tauto
  | @finish place slot x hrunning =>
    have hitem : items[slot]? = some x := h.running _ (List.mem_of_getElem? hrunning)
    refine ⟨h.waiting, fun t ht => h.running t (List.mem_of_mem_eraseIdx ht), ?_, h.filled,
      h.length_results, fun hfault slot' hslot => ?_, h.fault⟩
    · exact List.forall_mem_append.mpr
        ⟨h.ended, List.forall_mem_singleton.mpr ⟨x, hitem, rfl⟩⟩
    · have hpending := h.covered hfault slot' hslot
      have hmoved := slot_mem_or (n := slot') hrunning
      simp only [IsPending, List.map_append, List.mem_append, List.map_cons, List.map_nil,
        List.mem_singleton] at hpending ⊢
      tauto
  | @collect place slot y hfault hended =>
    obtain ⟨x, hitem, hx⟩ := h.ended _ (List.mem_of_getElem? hended)
    refine ⟨h.waiting, h.running, fun t ht => h.ended t (List.mem_of_mem_eraseIdx ht),
      fun slot' y' hslot => ?_, (List.length_set).trans h.length_results, fun _ slot' hslot => ?_,
      h.fault⟩
    · rw [List.getElem?_set] at hslot
      split_ifs at hslot with heq hlt
      · subst heq
        obtain rfl := Option.some.inj (Option.some.inj hslot)
        exact ⟨x, hitem, hx⟩
      · exact h.filled slot' y' hslot
    · rw [List.getElem?_set] at hslot
      split_ifs at hslot with heq hlt
      · cases hslot
      · have hpending := h.covered hfault slot' hslot
        have hmoved := slot_mem_or (n := slot') hended
        have hne : slot' ≠ slot := Ne.symm heq
        simp only [IsPending] at hpending ⊢
        tauto
  | @breakOff place slot e hfault hended =>
    obtain ⟨x, hitem, hx⟩ := h.ended _ (List.mem_of_getElem? hended)
    refine ⟨h.waiting, h.running, fun t ht => h.ended t (List.mem_of_mem_eraseIdx ht), h.filled,
      h.length_results, nofun, fun e' he' => ?_⟩
    obtain rfl := Option.some.inj he'
    exact ⟨x, List.mem_of_getElem? hitem, hx⟩

/-! ### How much is left -/

/-- The number of moves that are left, unless a fault is met. -/
def left (p : Pool α ε β) : Nat := 3 * p.waiting.length + 2 * p.running.length + p.ended.length

theorem left_start : (start items : Pool α ε β).left = 3 * items.length := by
  simp [left, start]

/-- Each move brings a pool nearer to its end. -/
theorem Step.left_eq (h : Step workers f p q) : p.left = q.left + 1 := by
  have herase : ∀ {γ : Type} {xs : List γ} {place : Nat} {x : γ}, xs[place]? = some x →
      xs.length = (xs.eraseIdx place).length + 1 := by
    intro γ xs place x hx
    obtain ⟨hplace, -⟩ := List.getElem?_eq_some_iff.mp hx
    rw [List.length_eraseIdx_of_lt hplace]
    omega
  cases h with
  | takeUp hwaiting hfree =>
    simp only [left, hwaiting, List.length_cons, List.length_append, List.length_nil]
    omega
  | finish hrunning =>
    simp only [left, herase hrunning, List.length_append, List.length_cons, List.length_nil]
    omega
  | collect hfault hended =>
    simp only [left, herase hended]
    omega
  | breakOff hfault hended =>
    simp only [left, herase hended]
    omega

/-- A pool in which no move is possible has nothing left, or has met a fault. -/
theorem IsStuck.nothing_left (hworkers : 0 < workers) (h : p.IsStuck workers f) :
    p.waiting = [] ∧ p.running = [] ∧ (p.fault = none → p.ended = []) := by
  have hrunning : p.running = [] := by
    cases hcase : p.running with
    | nil => rfl
    | cons task rest => simpa [step, hcase] using h (.finish 0)
  refine ⟨?_, hrunning, fun hfault => ?_⟩
  · cases hcase : p.waiting with
    | nil => rfl
    | cons task rest => simpa [step, hcase, hrunning, hworkers] using h .takeUp
  · cases hcase : p.ended with
    | nil => rfl
    | cons task rest => simpa [step, hcase, hfault] using h (.collect 0)

/-! ### Runs -/

/-- A run of a pool makes its moves one after another. -/
theorem run_cons {move : Move} {moves : List Move} :
    p.run workers f (move :: moves) = (p.step workers f move).bind fun q => q.run workers f moves :=
  List.foldlM_cons

/-- A run keeps the invariant and uses up one of the moves that are left for each of its moves. -/
theorem Reached.run {moves : List Move} (h : p.Reached f items)
    (hrun : p.run workers f moves = some q) :
    q.Reached f items ∧ p.left = q.left + moves.length := by
  induction moves generalizing p with
  | nil =>
    obtain rfl := Option.some.inj hrun
    exact ⟨h, rfl⟩
  | cons move moves ih =>
    rw [run_cons] at hrun
    obtain ⟨middle, hmove, hrest⟩ := Option.bind_eq_some_iff.mp hrun
    have hstep := step_of_step_eq_some hmove
    obtain ⟨hq, hleft⟩ := ih (h.step hstep) hrest
    refine ⟨hq, ?_⟩
    rw [hstep.left_eq, hleft, List.length_cons]
    omega

/-- From every pool some run leads to one in which no move is possible. -/
theorem exists_run_isStuck (workers : Nat) (f : α → Except ε β) (p : Pool α ε β) :
    ∃ moves q, p.run workers f moves = some q ∧ q.IsStuck workers f := by
  -- by induction on the number of moves that are left
  induction hleft : p.left using Nat.strongRecOn generalizing p with
  | ind n ih =>
    by_cases hstuck : p.IsStuck workers f
    · exact ⟨[], p, rfl, hstuck⟩
    · obtain ⟨move, hmove⟩ := not_forall.mp hstuck
      obtain ⟨q, hq⟩ := Option.ne_none_iff_exists'.mp hmove
      have hlt : q.left < n := by
        have := (step_of_step_eq_some hq).left_eq
        omega
      obtain ⟨moves, r, hrun, hr⟩ := ih q.left hlt q rfl
      exact ⟨move :: moves, r, by rw [run_cons, hq]; exact hrun, hr⟩

/-! ### Outcomes -/

/-- A pool that came to its end has the results of all items in order, or a fault of one. -/
theorem Reached.outcome?_cases (h : p.Reached f items) (hworkers : 0 < workers)
    (hstuck : p.IsStuck workers f) :
    (∃ ys, items.mapM f = .ok ys ∧ p.outcome? = some (.ok ys)) ∨
      ∃ x ∈ items, ∃ e, f x = .error e ∧ p.outcome? = some (.error e) := by
  cases hfault : p.fault with
  | some e =>
    obtain ⟨x, hx, he⟩ := h.fault e hfault
    exact .inr ⟨x, hx, e, he, by rw [outcome?, hfault]⟩
  | none =>
    obtain ⟨hwaiting, hrunning, hended⟩ := hstuck.nothing_left hworkers
    have hfull : ∀ slot (hslot : slot < p.results.length), ∃ y, p.results[slot] = some y := by
      intro slot hslot
      refine Option.ne_none_iff_exists'.mp fun hnone => ?_
      have hpending := h.covered hfault slot (by rw [List.getElem?_eq_getElem hslot, hnone])
      simp [IsPending, hwaiting, hrunning, hended hfault] at hpending
    obtain ⟨ys, hys⟩ : ∃ ys, p.results.mapM id = some ys :=
      exists_mapM_eq_some fun r hr => by
        obtain ⟨slot, hslot, rfl⟩ := List.getElem_of_mem hr
        exact hfull slot hslot
    refine .inl ⟨ys, ?_, by rw [outcome?, hfault, hys]; rfl⟩
    have hresults := mapM_eq_some_iff.mp hys
    rw [mapM_eq_ok_iff, List.forall₂_iff_get]
    refine ⟨h.length_results.symm.trans hresults.length_eq, fun slot hslot hslot' => ?_⟩
    have hslot'' : slot < p.results.length := hresults.length_eq ▸ hslot'
    have hfilled : p.results[slot] = some ys[slot] := hresults.get hslot'' hslot'
    obtain ⟨x, hx, hfx⟩ := h.filled slot ys[slot]
      (by rw [List.getElem?_eq_getElem hslot'', hfilled])
    obtain ⟨_, rfl⟩ := List.getElem?_eq_some_iff.mp hx
    exact hfx

/-- **Whatever the schedule**, evaluating items comes to the results of all of them in order, or to
a fault of one of them. -/
theorem yields_cases {r : Option (Except ε (List β))} (h : Yields workers f items r) :
    (∃ ys, items.mapM f = .ok ys ∧ r = some (.ok ys)) ∨
      ∃ x ∈ items, ∃ e, f x = .error e ∧ r = some (.error e) := by
  unfold Yields at h
  split_ifs at h with hturn
  · cases hresult : items.mapM f with
    | ok ys => exact .inl ⟨ys, rfl, hresult ▸ h⟩
    | error e =>
      obtain ⟨x, hx, he⟩ := exists_of_mapM_eq_error hresult
      exact .inr ⟨x, hx, e, he, hresult ▸ h⟩
  · obtain ⟨moves, p, hrun, hstuck, rfl⟩ := h
    exact (reached_start.run hrun).1.outcome?_cases (by omega) hstuck

/-- Evaluating items comes to something. -/
theorem exists_yields (workers : Nat) (f : α → Except ε β) (items : List α) :
    ∃ r, Yields workers f items r := by
  unfold Yields
  split_ifs with hturn
  · exact ⟨_, rfl⟩
  · obtain ⟨moves, p, hrun, hstuck⟩ := exists_run_isStuck workers f (start items)
    exact ⟨_, moves, p, hrun, hstuck, rfl⟩

/-- Evaluating items settles at some results: no run of a pool goes on for ever, and the results are
all that it comes to, in whatever order evaluations are taken up, end and are collected. -/
structure Settles (workers : Nat) (f : α → Except ε β) (items : List α) (ys : List β) : Prop where
  bounded (moves : List Move) (p : Pool α ε β) :
    (start items).run workers f moves = some p → moves.length ≤ 3 * items.length
  yields_iff (r : Option (Except ε (List β))) : Yields workers f items r ↔ r = some (.ok ys)

/-- **Where no item has a fault**, all schedules of all numbers of workers settle at the results
that evaluating the items in turn gives. -/
theorem settles {ys : List β} (workers : Nat) (h : items.mapM f = .ok ys) :
    Settles workers f items ys where
  bounded moves p hrun := by
    have hleft := (reached_start.run hrun).2
    rw [left_start] at hleft
    omega
  yields_iff := by
    have honly : ∀ r, Yields workers f items r → r = some (.ok ys) := by
      intro r hr
      rcases yields_cases hr with ⟨ys', hys', rfl⟩ | ⟨x, hx, e, he, -⟩
      · rw [Except.ok.inj (h.symm.trans hys')]
      · obtain ⟨y, -, hy⟩ := exists_mem_of_forall₂ (mapM_eq_ok_iff.mp h) hx
        cases he.symm.trans hy
    intro r
    refine ⟨honly r, ?_⟩
    rintro rfl
    obtain ⟨r, hr⟩ := exists_yields workers f items
    exact honly r hr ▸ hr

/-- Two workers end three evaluations in the order second, third, first. -/
example : ((start [1, 2, 3]).run 2 (fun n => (.ok (n * n) : Except Unit Nat))
      [.takeUp, .takeUp, .finish 1, .takeUp, .finish 1, .collect 1, .finish 0, .collect 0,
        .collect 0]).bind outcome? = some (.ok [1, 4, 9]) := by
  decide

end TableRules.Pool
