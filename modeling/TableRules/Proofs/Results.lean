import Mathlib.Data.List.Forall2
import TableRules.Evaluation.Column

/-!
# Results that may be faults

Evaluation runs in `Except`: a step gives a result or breaks off with a fault. The lemmas here say
what a composite step did when it gave a result: a sequence of two steps passed through a result of
the first (`bind_eq_ok_iff`), a traversal gave one result for each member, in order
(`mapM_eq_ok_iff`), and a filter that may break off kept what its test accepts
(`filterM_eq_ok`). Where a composite step breaks off, one of its parts did (`bind_eq_error_iff`,
`exists_of_mapM_eq_error`, `exists_of_foldlM_eq_error`, `exists_of_filterM_eq_error`).

Traversals and loops over related members give related results (`exists_mapM_forall₂`,
`exists_foldlM_forall₂`), and those over the same members in another order give the same results
(`mapM_perm`, `foldlM_perm`).
-/

namespace TableRules.Result

variable {ε ε' α β : Type}

/-- A sequence of two steps gives a result exactly when both do. -/
theorem bind_eq_ok_iff {x : Except ε α} {f : α → Except ε β} {b : β} :
    (x >>= f) = .ok b ↔ ∃ a, x = .ok a ∧ f a = .ok b := by
  cases x with
  | error e => simp [bind, Except.bind]
  | ok a => simp [bind, Except.bind]

theorem map_eq_ok_iff {x : Except ε α} {f : α → β} {b : β} :
    x.map f = .ok b ↔ ∃ a, x = .ok a ∧ f a = b := by
  cases x <;> simp [Except.map]

theorem mapError_eq_ok_iff {x : Except ε α} {f : ε → ε'} {a : α} :
    x.mapError f = .ok a ↔ x = .ok a := by
  cases x <;> simp [Except.mapError]

/-- A sequence of two steps breaks off exactly when one of them does. -/
theorem bind_eq_error_iff {x : Except ε α} {f : α → Except ε β} {e : ε} :
    (x >>= f) = .error e ↔ x = .error e ∨ ∃ a, x = .ok a ∧ f a = .error e := by
  cases x with
  | error e' => simp [bind, Except.bind]
  | ok a => simp [bind, Except.bind]

theorem map_eq_error_iff {x : Except ε α} {f : α → β} {e : ε} :
    x.map f = .error e ↔ x = .error e := by
  cases x <;> simp [Except.map]

theorem mapError_eq_error_iff {x : Except ε α} {f : ε → ε'} {e' : ε'} :
    x.mapError f = .error e' ↔ ∃ e, x = .error e ∧ f e = e' := by
  cases x <;> simp [Except.mapError]

theorem ofNumber_eq_ok_iff {x : Except NumberFault α} {a : α} :
    Engine.ofNumber x = .ok a ↔ x = .ok a :=
  mapError_eq_ok_iff

/-- A result that passes a test is a result. -/
theorem any_toOption_iff {x : Except ε α} {p : α → Bool} :
    x.toOption.any p = true ↔ ∃ a, x = .ok a ∧ p a = true := by
  cases x <;> simp [Except.toOption]

/-- A traversal gives the results of its steps, in order. -/
theorem mapM_eq_ok_iff {f : α → Except ε β} {xs : List α} {ys : List β} :
    xs.mapM f = .ok ys ↔ List.Forall₂ (fun x y => f x = .ok y) xs ys := by
  induction xs generalizing ys with
  | nil =>
    rw [List.mapM_nil, List.forall₂_nil_left_iff]
    exact ⟨fun h => (Except.ok.inj h).symm, fun h => h ▸ rfl⟩
  | cons x xs ih =>
    rw [List.mapM_cons, bind_eq_ok_iff, List.forall₂_cons_left_iff]
    constructor
    · rintro ⟨y, hy, hrest⟩
      obtain ⟨ys', hys', h⟩ := bind_eq_ok_iff.mp hrest
      exact ⟨y, ys', hy, ih.mp hys', (Except.ok.inj h).symm⟩
    · rintro ⟨y, ys', hy, hys', rfl⟩
      exact ⟨y, hy, bind_eq_ok_iff.mpr ⟨ys', ih.mpr hys', rfl⟩⟩

/-- A traversal without reasons for failure gives the results of its steps, in order. -/
theorem mapM_eq_some_iff {f : α → Option β} {xs : List α} {ys : List β} :
    xs.mapM f = some ys ↔ List.Forall₂ (fun x y => f x = some y) xs ys := by
  induction xs generalizing ys with
  | nil =>
    rw [List.mapM_nil, List.forall₂_nil_left_iff]
    exact ⟨fun h => (Option.some.inj h).symm, fun h => h ▸ rfl⟩
  | cons x xs ih =>
    rw [List.mapM_cons, List.forall₂_cons_left_iff]
    simp only [Option.bind_eq_bind, Option.bind_eq_some_iff, ih]
    constructor
    · rintro ⟨y, hy, ys', hys', h⟩
      exact ⟨y, ys', hy, hys', (Option.some.inj h).symm⟩
    · rintro ⟨y, ys', hy, hys', rfl⟩
      exact ⟨y, hy, ys', hys', rfl⟩

/-- A traversal of members that all have results gives a result. -/
theorem exists_mapM_eq_ok {f : α → Except ε β} {xs : List α} (h : ∀ x ∈ xs, ∃ y, f x = .ok y) :
    ∃ ys, xs.mapM f = .ok ys := by
  induction xs with
  | nil => exact ⟨[], rfl⟩
  | cons x xs ih =>
    obtain ⟨⟨y, hy⟩, hrest⟩ := List.forall_mem_cons.mp h
    obtain ⟨ys, hys⟩ := ih hrest
    exact ⟨y :: ys, mapM_eq_ok_iff.mpr (.cons hy (mapM_eq_ok_iff.mp hys))⟩

/-- A traversal without reasons for failure gives a result if all members have one. -/
theorem exists_mapM_eq_some {f : α → Option β} {xs : List α} (h : ∀ x ∈ xs, ∃ y, f x = some y) :
    ∃ ys, xs.mapM f = some ys := by
  induction xs with
  | nil => exact ⟨[], rfl⟩
  | cons x xs ih =>
    obtain ⟨⟨y, hy⟩, hrest⟩ := List.forall_mem_cons.mp h
    obtain ⟨ys, hys⟩ := ih hrest
    exact ⟨y :: ys, mapM_eq_some_iff.mpr (.cons hy (mapM_eq_some_iff.mp hys))⟩

/-- A traversal breaks off at a member. -/
theorem exists_of_mapM_eq_error {f : α → Except ε β} {xs : List α} {e : ε}
    (h : xs.mapM f = .error e) : ∃ x ∈ xs, f x = .error e := by
  induction xs with
  | nil =>
    rw [List.mapM_nil] at h
    cases h
  | cons x xs ih =>
    rw [List.mapM_cons, bind_eq_error_iff] at h
    rcases h with hx | ⟨y, -, h⟩
    · exact ⟨x, List.mem_cons_self, hx⟩
    · rcases bind_eq_error_iff.mp h with hrest | ⟨ys, -, hpure⟩
      · obtain ⟨x', hx', he⟩ := ih hrest
        exact ⟨x', List.mem_cons_of_mem x hx', he⟩
      · cases hpure

/-- A loop whose steps keep an invariant, and give a result where it holds, gives a result. -/
theorem exists_foldlM_eq_ok {σ : Type} {P : σ → Prop} {f : σ → α → Except ε σ} {xs : List α}
    {s : σ} (h : P s) (hstep : ∀ s, ∀ x ∈ xs, P s → ∃ t, f s x = .ok t ∧ P t) :
    ∃ t, xs.foldlM f s = .ok t ∧ P t := by
  induction xs generalizing s with
  | nil => exact ⟨s, rfl, h⟩
  | cons x xs ih =>
    obtain ⟨t, ht, hPt⟩ := hstep s x List.mem_cons_self h
    obtain ⟨u, hu, hPu⟩ := ih hPt fun s y hy => hstep s y (List.mem_cons_of_mem x hy)
    exact ⟨u, by rw [List.foldlM_cons]; exact bind_eq_ok_iff.mpr ⟨t, ht, hu⟩, hPu⟩

/-- A loop breaks off at a member, and its steps before that one give results. -/
theorem exists_of_foldlM_eq_error {σ : Type} {f : σ → α → Except ε σ} {xs : List α} {s : σ} {e : ε}
    (h : xs.foldlM f s = .error e) :
    ∃ before x after t, xs = before ++ x :: after ∧ before.foldlM f s = .ok t ∧
      f t x = .error e := by
  induction xs generalizing s with
  | nil => simp [pure, Except.pure] at h
  | cons x xs ih =>
    rw [List.foldlM_cons] at h
    rcases bind_eq_error_iff.mp h with hx | ⟨t, ht, hrest⟩
    · exact ⟨[], x, xs, s, rfl, rfl, hx⟩
    · obtain ⟨before, y, after, u, rfl, hbefore, hy⟩ := ih hrest
      refine ⟨x :: before, y, after, u, rfl, ?_, hy⟩
      rw [List.foldlM_cons]
      exact bind_eq_ok_iff.mpr ⟨t, ht, hbefore⟩

/-- Every member of a list is related to one of a list that is related member by member. -/
theorem exists_mem_of_forall₂ {R : α → β → Prop} {xs : List α} {ys : List β}
    (h : List.Forall₂ R xs ys) {x : α} (hx : x ∈ xs) : ∃ y ∈ ys, R x y := by
  induction h with
  | nil => simp at hx
  | cons hxy _ ih =>
    rcases List.mem_cons.mp hx with rfl | hx
    · exact ⟨_, List.mem_cons_self, hxy⟩
    · obtain ⟨y, hy, hR⟩ := ih hx
      exact ⟨y, List.mem_cons_of_mem _ hy, hR⟩

/-- Members of lists that are related member by member are related at each place. -/
theorem exists_getElem?_of_forall₂ {R : α → β → Prop} {xs : List α} {ys : List β}
    (h : List.Forall₂ R xs ys) {i : Nat} {x : α} (hx : xs[i]? = some x) :
    ∃ y, ys[i]? = some y ∧ R x y := by
  obtain ⟨hlen, hall⟩ := List.forall₂_iff_get.mp h
  obtain ⟨hi, rfl⟩ := List.getElem?_eq_some_iff.mp hx
  exact ⟨_, List.getElem?_eq_getElem (hlen ▸ hi), hall i hi (hlen ▸ hi)⟩

/-- What is related member by member to a list of one member has one member. -/
theorem exists_of_forall₂_singleton {R : α → β → Prop} {x : α} {ys : List β}
    (h : List.Forall₂ R [x] ys) : ∃ y, ys = [y] ∧ R x y := by
  obtain ⟨y, rest, hxy, hnil, rfl⟩ := List.forall₂_cons_left_iff.mp h
  obtain rfl := List.forall₂_nil_left_iff.mp hnil
  exact ⟨y, rfl, hxy⟩

/-- What is related member by member to two lists one after the other is two lists too. -/
theorem exists_append_of_forall₂ {R : α → β → Prop} {us xs : List α} {ys : List β}
    (h : List.Forall₂ R (us ++ xs) ys) :
    ∃ vs zs, ys = vs ++ zs ∧ List.Forall₂ R us vs ∧ List.Forall₂ R xs zs := by
  refine ⟨ys.take us.length, ys.drop us.length, (List.take_append_drop _ _).symm, ?_, ?_⟩
  · simpa using List.forall₂_take us.length h
  · simpa using List.forall₂_drop us.length h

/-- Lists that are related member by member have the same images if related members do. -/
theorem map_eq_of_forall₂ {γ : Type} {f : α → γ} {g : β → γ} {xs : List α} {ys : List β}
    (h : List.Forall₂ (fun x y => g y = f x) xs ys) : ys.map g = xs.map f := by
  induction h with
  | nil => rfl
  | cons hxy _ ih => rw [List.map_cons, List.map_cons, hxy, ih]

/-- The accumulator of a filter holds the kept members, last first. -/
private theorem filterAuxM_eq_ok {f : α → Except ε Bool} {p : α → Bool} {xs : List α}
    (h : ∀ x ∈ xs, f x = .ok (p x)) (kept : List α) :
    xs.filterAuxM f kept = .ok ((xs.filter p).reverse ++ kept) := by
  induction xs generalizing kept with
  | nil => rfl
  | cons x xs ih =>
    have hx := h x List.mem_cons_self
    have hxs := ih fun z hz => h z (List.mem_cons_of_mem x hz)
    rw [List.filterAuxM, hx]
    change xs.filterAuxM f (cond (p x) (x :: kept) kept) = _
    rw [hxs]
    cases hp : p x <;> simp [hp]

/-- A filter whose test agrees on every member with a test that cannot break off keeps what that
test accepts. -/
theorem filterM_eq_ok {f : α → Except ε Bool} {p : α → Bool} {xs : List α}
    (h : ∀ x ∈ xs, f x = .ok (p x)) : xs.filterM f = .ok (xs.filter p) := by
  rw [List.filterM, filterAuxM_eq_ok h]
  change Except.ok (((xs.filter p).reverse ++ []).reverse) = _
  simp

/-- A filter breaks off at a member. -/
theorem exists_of_filterM_eq_error {f : α → Except ε Bool} {xs : List α} {e : ε}
    (h : xs.filterM f = .error e) : ∃ x ∈ xs, f x = .error e := by
  have haux : ∀ (xs kept : List α), xs.filterAuxM f kept = .error e → ∃ x ∈ xs, f x = .error e := by
    intro xs
    induction xs with
    | nil => exact fun _ h => by cases h
    | cons x xs ih =>
      intro kept h
      rw [List.filterAuxM] at h
      rcases bind_eq_error_iff.mp h with hx | ⟨b, -, hrest⟩
      · exact ⟨x, List.mem_cons_self, hx⟩
      · obtain ⟨x', hx', he⟩ := ih _ hrest
        exact ⟨x', List.mem_cons_of_mem x hx', he⟩
  rw [List.filterM] at h
  rcases bind_eq_error_iff.mp h with h | ⟨kept, -, hpure⟩
  · exact haux xs [] h
  · cases hpure

/-- A filter keeps members only. -/
theorem subset_of_filterM_eq_ok {f : α → Except ε Bool} {xs ys : List α}
    (h : xs.filterM f = .ok ys) : ys ⊆ xs := by
  have haux : ∀ (xs kept ys : List α), xs.filterAuxM f kept = .ok ys → ys ⊆ xs ++ kept := by
    intro xs
    induction xs with
    | nil => exact fun kept ys h => Except.ok.inj h ▸ List.Subset.refl kept
    | cons x xs ih =>
      intro kept ys h
      rw [List.filterAuxM] at h
      obtain ⟨b, -, hrest⟩ := bind_eq_ok_iff.mp h
      have hsub := ih _ ys hrest
      cases b with
      | true => exact List.Subset.trans hsub List.perm_middle.subset
      | false => exact List.Subset.trans hsub (List.subset_cons_self x _)
  rw [List.filterM] at h
  obtain ⟨kept, hkept, hpure⟩ := bind_eq_ok_iff.mp h
  obtain rfl := Except.ok.inj hpure
  intro y hy
  simpa using haux xs [] kept hkept (List.mem_reverse.mp hy)

/-- Whether a test that may break off accepts. -/
def accepts (r : Except ε Bool) : Bool := r.toOption.getD false

/-- A filter that gives a result has applied its test to every member. -/
theorem eq_ok_of_filterM_eq_ok {f : α → Except ε Bool} {xs ys : List α}
    (h : xs.filterM f = .ok ys) {x : α} (hx : x ∈ xs) : f x = .ok (accepts (f x)) := by
  have haux : ∀ kept ys, xs.filterAuxM f kept = .ok ys → ∃ b, f x = .ok b := by
    clear h
    induction xs with
    | nil => cases hx
    | cons first xs ih =>
      intro kept ys h
      rw [List.filterAuxM] at h
      obtain ⟨b, hb, hrest⟩ := bind_eq_ok_iff.mp h
      rcases List.mem_cons.mp hx with rfl | hx
      · exact ⟨b, hb⟩
      · exact ih hx _ ys hrest
  rw [List.filterM] at h
  obtain ⟨kept, hkept, -⟩ := bind_eq_ok_iff.mp h
  obtain ⟨b, hb⟩ := haux [] kept hkept
  rw [hb]
  rfl

/-- A filter gives a result exactly when its test does so for every member, and then keeps what the
test accepts. -/
theorem filterM_eq_ok_iff {f : α → Except ε Bool} {xs ys : List α} :
    xs.filterM f = .ok ys ↔
      (∀ x ∈ xs, ∃ b, f x = .ok b) ∧ ys = xs.filter fun x => accepts (f x) := by
  have hrun : (∀ x ∈ xs, ∃ b, f x = .ok b) →
      xs.filterM f = .ok (xs.filter fun x => accepts (f x)) := fun h =>
    filterM_eq_ok fun x hx => by
      obtain ⟨b, hb⟩ := h x hx
      rw [hb]
      rfl
  constructor
  · intro h
    have hok : ∀ x ∈ xs, ∃ b, f x = .ok b := fun x hx => ⟨_, eq_ok_of_filterM_eq_ok h hx⟩
    exact ⟨hok, Except.ok.inj (h.symm.trans (hrun hok))⟩
  · rintro ⟨hok, rfl⟩
    exact hrun hok

/-! ### Renamed members -/

/-- Steps that agree on all members make the same traversal. -/
theorem mapM_congr {f g : α → Except ε β} {xs : List α} (h : ∀ x ∈ xs, f x = g x) :
    xs.mapM f = xs.mapM g := by
  induction xs with
  | nil => rfl
  | cons x xs ih =>
    obtain ⟨hx, hxs⟩ := List.forall_mem_cons.mp h
    rw [List.mapM_cons, List.mapM_cons, hx, ih hxs]

/-- Steps that agree on all members up to a function of their results make traversals that agree up
to it. -/
theorem map_mapM_congr {γ : Type} {k : β → γ} {f g : α → Except ε β} {xs : List α}
    (h : ∀ x ∈ xs, (f x).map k = (g x).map k) :
    (xs.mapM f).map (List.map k) = (xs.mapM g).map (List.map k) := by
  have hmap : ∀ f : α → Except ε β,
      (xs.mapM f).map (List.map k) = xs.mapM fun x => (f x).map k := by
    intro f
    induction xs with
    | nil => rfl
    | cons x xs ih =>
      rw [List.mapM_cons, List.mapM_cons, ← ih fun y hy => h y (List.mem_cons_of_mem x hy)]
      cases f x with
      | error e => rfl
      | ok y => cases xs.mapM f <;> rfl
  rw [hmap, hmap]
  exact mapM_congr h

/-- A filter of renamed members keeps the renamed members if its test agrees with the test of the
members. -/
theorem filterM_map {f : α → β} {p : α → Except ε Bool} {q : β → Except ε Bool} {xs : List α}
    (h : ∀ x ∈ xs, q (f x) = p x) : (xs.map f).filterM q = (xs.filterM p).map (List.map f) := by
  have haux : ∀ kept, (xs.map f).filterAuxM q (kept.map f)
      = (xs.filterAuxM p kept).map (List.map f) := by
    induction xs with
    | nil => exact fun _ => rfl
    | cons x xs ih =>
      obtain ⟨hx, hxs⟩ := List.forall_mem_cons.mp h
      intro kept
      rw [List.map_cons, List.filterAuxM, List.filterAuxM, hx]
      cases p x with
      | error e => rfl
      | ok b =>
        cases b with
        | true => exact ih hxs (x :: kept)
        | false => exact ih hxs kept
  rw [List.filterM, List.filterM, show ([] : List β) = [].map f from rfl, haux]
  cases xs.filterAuxM p [] with
  | error e => rfl
  | ok kept => exact congrArg Except.ok List.map_reverse.symm

/-- A loop from a renamed state leaves the renamed state, if each step does. -/
theorem foldlM_map {σ : Type} {f : σ → σ} {g : σ → α → Except ε σ}
    (h : ∀ s x, g (f s) x = (g s x).map f) (xs : List α) (s : σ) :
    xs.foldlM g (f s) = (xs.foldlM g s).map f := by
  induction xs generalizing s with
  | nil => rfl
  | cons x xs ih =>
    rw [List.foldlM_cons, List.foldlM_cons, h]
    cases g s x with
    | error e => rfl
    | ok t => exact ih t

/-! ### Related members -/

/-- A traversal of related members gives related results, if each step does. -/
theorem exists_mapM_forall₂ {α' β' : Type} {S : α → α' → Prop} {R : β → β' → Prop}
    {g : α → Except ε β} {g' : α' → Except ε β'} {xs : List α} {xs' : List α'}
    (h : List.Forall₂ S xs xs')
    (hstep : ∀ x x', S x x' → ∀ y, g x = .ok y → ∃ y', g' x' = .ok y' ∧ R y y') {ys : List β}
    (hys : xs.mapM g = .ok ys) : ∃ ys', xs'.mapM g' = .ok ys' ∧ List.Forall₂ R ys ys' := by
  induction h generalizing ys with
  | nil =>
    obtain rfl := Except.ok.inj hys
    exact ⟨[], rfl, .nil⟩
  | @cons x x' xs xs' hx _ ih =>
    rw [List.mapM_cons] at hys ⊢
    obtain ⟨y, hy, hys⟩ := bind_eq_ok_iff.mp hys
    obtain ⟨ys, hrest, hys⟩ := bind_eq_ok_iff.mp hys
    obtain rfl := Except.ok.inj hys
    obtain ⟨y', hy', hR⟩ := hstep x x' hx y hy
    obtain ⟨ys', hrest', hRs⟩ := ih hrest
    exact ⟨y' :: ys', bind_eq_ok_iff.mpr ⟨y', hy', bind_eq_ok_iff.mpr ⟨ys', hrest', rfl⟩⟩,
      .cons hR hRs⟩

/-- A loop over related members leaves related states, if each step does. -/
theorem exists_foldlM_forall₂ {α' σ σ' : Type} {S : α → α' → Prop} {P : σ → σ' → Prop}
    {g : σ → α → Except ε σ} {g' : σ' → α' → Except ε σ'} {xs : List α} {xs' : List α'}
    (h : List.Forall₂ S xs xs')
    (hstep : ∀ s s' x x', P s s' → S x x' → ∀ t, g s x = .ok t → ∃ t', g' s' x' = .ok t' ∧ P t t')
    {s t : σ} {s' : σ'} (hs : P s s') (ht : xs.foldlM g s = .ok t) :
    ∃ t', xs'.foldlM g' s' = .ok t' ∧ P t t' := by
  induction h generalizing s s' with
  | nil =>
    obtain rfl := Except.ok.inj ht
    exact ⟨s', rfl, hs⟩
  | @cons x x' xs xs' hx _ ih =>
    rw [List.foldlM_cons] at ht ⊢
    obtain ⟨u, hu, ht⟩ := bind_eq_ok_iff.mp ht
    obtain ⟨u', hu', hP⟩ := hstep s s' x x' hs hx u hu
    obtain ⟨t', ht', hPt⟩ := ih hP ht
    exact ⟨t', bind_eq_ok_iff.mpr ⟨u', hu', ht'⟩, hPt⟩

/-! ### Other orders -/

/-- A traversal of the members in another order gives each the same result. -/
theorem mapM_perm {f : α → Except ε β} {xs xs' : List α} {ys : List β}
    (hperm : xs'.Perm xs) (h : xs.mapM f = .ok ys) :
    ∃ ys', xs'.mapM f = .ok ys' ∧ (xs'.zip ys').Perm (xs.zip ys) := by
  -- the pairs of members and results are read off the members
  have hzip : ∀ {xs : List α} {ys : List β}, xs.mapM f = .ok ys →
      xs.zip ys = xs.filterMap fun x => (f x).toOption.map fun y => (x, y) := by
    intro xs ys h
    rw [mapM_eq_ok_iff] at h
    induction h with
    | nil => rfl
    | @cons x y xs ys hxy _ ih =>
      rw [List.zip_cons_cons, ih, List.filterMap_cons, hxy]
      rfl
  obtain ⟨ys', hys'⟩ : ∃ ys', xs'.mapM f = .ok ys' := exists_mapM_eq_ok fun x hx => by
    obtain ⟨y, -, hy⟩ := exists_mem_of_forall₂ (mapM_eq_ok_iff.mp h) (hperm.mem_iff.mp hx)
    exact ⟨y, hy⟩
  refine ⟨ys', hys', ?_⟩
  rw [hzip h, hzip hys']
  exact hperm.filterMap _

/-- A loop whose steps can be exchanged gives the same result in any order. The steps give results
and keep an invariant, and two of them can be exchanged where their keys differ. -/
theorem foldlM_perm {κ σ : Type} {P : σ → Prop} {key : α → κ} {f : σ → α → Except ε σ}
    {xs ys : List α} {s : σ} (hperm : xs.Perm ys) (hkeys : (xs.map key).Nodup)
    (hstep : ∀ s, ∀ x ∈ xs, P s → ∃ t, f s x = .ok t ∧ P t)
    (hcomm : ∀ s, ∀ x ∈ xs, ∀ y ∈ xs, key x ≠ key y → P s →
      (f s x >>= fun t => f t y) = f s y >>= fun t => f t x)
    (h : P s) : xs.foldlM f s = ys.foldlM f s := by
  -- on the permutation, for every state in which the invariant holds
  induction hperm generalizing s with
  | nil => rfl
  | @cons x xs ys _ ih =>
    obtain ⟨t, ht, hPt⟩ := hstep s x List.mem_cons_self h
    rw [List.foldlM_cons, List.foldlM_cons, ht]
    exact ih (List.nodup_cons.mp hkeys).2
      (fun s y hy => hstep s y (List.mem_cons_of_mem x hy))
      (fun s y hy z hz => hcomm s y (List.mem_cons_of_mem x hy) z (List.mem_cons_of_mem x hz)) hPt
  | swap x y xs =>
    have hne : key y ≠ key x := by
      rw [List.map_cons, List.map_cons, List.nodup_cons] at hkeys
      exact fun heq => hkeys.1 (heq ▸ List.mem_cons_self)
    have hexchange := hcomm s y List.mem_cons_self x (List.mem_cons_of_mem y List.mem_cons_self)
      hne h
    simp only [List.foldlM_cons, ← bind_assoc, hexchange]
  | @trans xs ys zs hxy _ ih ih' =>
    rw [ih hkeys hstep hcomm h]
    refine ih' ((hxy.map key).nodup_iff.mp hkeys)
      (fun s x hx => hstep s x (hxy.mem_iff.mpr hx))
      (fun s x hx y hy => hcomm s x (hxy.mem_iff.mpr hx) y (hxy.mem_iff.mpr hy)) h

end TableRules.Result
