import Mathlib.Algebra.BigOperators.Group.List.Basic
import Mathlib.Algebra.GroupWithZero.Nat
import Mathlib.Algebra.Ring.Int.Defs
import TableRules.Metrics.Recording

/-!
# What series come to

Counters are kept in a register, and how it does that is up to the library that provides it. If it
keeps whole numbers exactly (`Register.IsExact`), the value of a series is the sum of the amounts
that were recorded for it (`Register.IsExact.total_record`), whatever came in between. In particular
the order of the recordings does not matter.

This asks of the recordings that they are counts (`Increment.IsCount`): none of them is negative,
and all name the labels of their counters. The other recordings have no influence on the series.

The same holds of what several series of a counter come to together
(`Register.IsExact.sumWhere_record`). Both totals are measures of the state that every count raises
by its weight (`Register.foldl_eq_add`).

A register with lists of series is exact if its values are (`Register.listed_isExact`). The counters
of a program are those of such a register, with doubles (`Metrics.series_recordAll`).
-/

namespace TableRules

/-! ### Counts -/

/-- The whole number that a number stands for, where it is one and not negative. -/
def Number.count : Number → Nat
  | .integer n => n.toNat
  | .real _ => 0

namespace Increment

/-- An increment is a whole number that is not negative, for a series of its counter. -/
structure IsCount (i : Increment) : Prop where
  amount : ∃ n : Nat, i.amount = .integer n
  labels : (sortLabels i.labels).map (·.1) = i.counter.labels

/-- What an increment contributes to a series. -/
def share (c : Counter) (labels : Labels) (i : Increment) : Nat :=
  if i.counter = c ∧ sortLabels i.labels = labels then i.amount.count else 0

/-- What increments contribute to a series. -/
def shares (c : Counter) (labels : Labels) (is : List Increment) : Nat :=
  (is.map (share c labels)).sum

/-- What an increment contributes to the series of a counter with some labels. -/
def shareWhere (c : Counter) (p : Labels → Bool) (i : Increment) : Nat :=
  if i.counter = c ∧ p (sortLabels i.labels) then i.amount.count else 0

end Increment

namespace Recording

/-- The increment that is recorded, if it is one. -/
def increment? : Recording → Option Increment
  | .increment i => some i
  | .rows _ => none
  | .phase _ => none

/-- The increments among recordings. -/
def increments (recorded : List Recording) : List Increment := recorded.filterMap increment?

theorem mem_increments_iff {recorded : List Recording} {i : Increment} :
    i ∈ increments recorded ↔ .increment i ∈ recorded := by
  rw [increments, List.mem_filterMap]
  constructor
  · rintro ⟨recording, hrecording, hi⟩
    cases recording with
    | increment j => exact Option.some.inj hi ▸ hrecording
    | rows n => cases hi
    | phase name => cases hi
  · exact fun h => ⟨_, h, rfl⟩

end Recording

/-! ### Readings -/

/-- The series of each counter with the whole numbers that they show, in the order in which they
were started. -/
abbrev Readings : Type := Counter → List (Labels × Int)

/-- A sum over the entries of some keys loses the present value of a key that is updated, and gains
the new one. -/
theorem Keyed.sum_update_add {κ : Type} [BEq κ] [LawfulBEq κ] (p : κ → Bool) (key : κ)
    (f : Option Int → Int) (entries : List (κ × Int)) :
    (((update key f entries).filter fun e => p e.1).map (·.2)).sum +
        (if p key then (entries.lookup key).getD 0 else 0) =
      ((entries.filter fun e => p e.1).map (·.2)).sum +
        if p key then f (entries.lookup key) else 0 := by
  induction entries with
  | nil => cases hp : p key <;> simp [update, hp]
  | cons e rest ih =>
    obtain ⟨k, v⟩ := e
    rw [update, List.lookup_cons]
    by_cases hkey : k = key
    · subst hkey
      cases hp : p k <;> simp [hp]
      omega
    · simp only [beq_iff_eq, hkey, if_false, beq_eq_false_iff_ne.mpr (Ne.symm hkey)]
      cases hk : p k <;> simp only [List.filter_cons, hk, Bool.false_eq_true, if_false, if_true,
        List.map_cons, List.sum_cons] <;> omega

namespace Readings

/-- The number that a series shows; a series that was not started shows zero. -/
def total (readings : Readings) (c : Counter) (labels : Labels) : Int :=
  ((readings c).lookup labels).getD 0

/-- What the series of a counter with some labels show together. -/
def sumWhere (readings : Readings) (c : Counter) (p : Labels → Bool) : Int :=
  (((readings c).filter fun e => p e.1).map (·.2)).sum

/-- Puts the number that `f` makes of the present one, if any, into a series of a counter. -/
def update (readings : Readings) (key : Counter × Labels) (f : Option Int → Int) : Readings :=
  Function.update readings key.1 (Keyed.update key.2 f (readings key.1))

variable {readings : Readings} {c : Counter} {labels : Labels} {key : Counter × Labels}
  {f : Option Int → Int}

theorem update_self : readings.update key f key.1 = Keyed.update key.2 f (readings key.1) :=
  Function.update_self ..

theorem update_of_ne (h : c ≠ key.1) : readings.update key f c = readings c :=
  Function.update_of_ne h ..

/-- A number that is added to a series is added to its total. -/
theorem total_update_add (n : Int) :
    (readings.update key fun value => value.getD 0 + n).total c labels =
      readings.total c labels + if key.1 = c ∧ key.2 = labels then n else 0 := by
  by_cases hc : c = key.1
  · subst hc
    by_cases hlabels : labels = key.2
    · subst hlabels
      rw [total, update_self, Keyed.lookup_update_self, if_pos ⟨rfl, rfl⟩]
      rfl
    · rw [total, update_self, Keyed.lookup_update_of_ne hlabels,
        if_neg fun h => hlabels h.2.symm, add_zero]
      rfl
  · rw [total, update_of_ne hc, if_neg fun h => hc h.1.symm, add_zero]
    rfl

/-- A number that is added to a series is added to what it shows together with others. -/
theorem sumWhere_update_add (p : Labels → Bool) (n : Int) :
    (readings.update key fun value => value.getD 0 + n).sumWhere c p =
      readings.sumWhere c p + if key.1 = c ∧ p key.2 then n else 0 := by
  by_cases hc : c = key.1
  · subst hc
    have hsum := Keyed.sum_update_add p key.2 (fun value => value.getD 0 + n) (readings key.1)
    rw [sumWhere, sumWhere, update_self]
    simp only [true_and]
    split_ifs at hsum ⊢ <;> omega
  · rw [sumWhere, sumWhere, update_of_ne hc, if_neg fun h => hc h.1.symm, add_zero]

end Readings

/-! ### Exact registers -/

section

variable {S H : Type} {R : Register S H} {shown : S → Readings} {key : H → Counter × Labels}
  {c : Counter} {labels : Labels}

/-- A register is exact if it shows the following. At first there are no series. Under the names of
the labels of a counter there is a series, which starts at zero where it was not there, while all
others stay as they are. A whole number that is not negative is added to the series that it is
meant for, and to no other one. -/
structure Register.IsExact (R : Register S H) (shown : S → Readings)
    (key : H → Counter × Labels) : Prop where
  start (c : Counter) : shown R.start c = []
  labels (state : S) (c : Counter) (labels : Labels) :
    (sortLabels labels).map (·.1) = c.labels →
      ∃ next series, R.labels state c labels = (next, .ok series) ∧
        key series = (c, sortLabels labels) ∧
        shown next = (shown state).update (key series) fun value => value.getD 0
  inc (state : S) (series : H) (value : Int) (n : Nat) :
    (shown state (key series).1).lookup (key series).2 = some value →
      ∃ next, R.inc state series (.integer n) = (next, none) ∧
        shown next = (shown state).update (key series) fun _ => value + n

namespace Register

/-! #### One recording -/

/-- A count is added to its series, unless it is zero. -/
theorem IsExact.increment_of_isCount (hR : R.IsExact shown key) {i : Increment} {n : Nat}
    (hi : i.IsCount) (hn : i.amount = .integer n) (state : S) :
    ∃ next, R.increment state i = (next, none) ∧
      shown next = if n = 0 then shown state
        else (shown state).update (i.counter, sortLabels i.labels)
          fun value => value.getD 0 + n := by
  rw [increment, hn]
  simp only [Number.isZero, beq_iff_eq, Int.natCast_eq_zero]
  by_cases hzero : n = 0
  · exact ⟨state, by rw [if_pos hzero], by rw [if_pos hzero]⟩
  · obtain ⟨started, series, hlabels, hkey, hstarted⟩ :=
      hR.labels state i.counter i.labels hi.labels
    have hvalue : (shown started (key series).1).lookup (key series).2
        = some (((shown state (key series).1).lookup (key series).2).getD 0) := by
      rw [hstarted, Readings.update_self, Keyed.lookup_update_self]
    obtain ⟨next, hinc, hnext⟩ := hR.inc started series _ n hvalue
    refine ⟨next, ?_, ?_⟩
    · rw [if_neg hzero, hlabels]
      exact hinc
    · rw [if_neg hzero, hnext, hstarted, ← hkey, Readings.update, Readings.update_self,
        Readings.update, Readings.update, Function.update_idem, Keyed.update_update]
      exact congrArg _ (Keyed.update_congr rfl)

/-- A count adds its share to a series. -/
theorem IsExact.total_increment (hR : R.IsExact shown key) {i : Increment} (hi : i.IsCount)
    (state : S) :
    (shown (R.increment state i).1).total c labels =
      (shown state).total c labels + i.share c labels := by
  obtain ⟨n, hn⟩ := hi.amount
  obtain ⟨next, hincrement, hnext⟩ := hR.increment_of_isCount hi hn state
  rw [hincrement, Increment.share, hn, Number.count, Int.toNat_natCast]
  dsimp only
  rw [hnext]
  split_ifs with hzero hkey hkey
  · simp [hzero]
  · simp
  · rw [Readings.total_update_add, if_pos hkey]
  · rw [Readings.total_update_add, if_neg hkey]
    rfl

/-- A count adds its weight to the series of a counter with some labels. -/
theorem IsExact.sumWhere_increment (hR : R.IsExact shown key) (p : Labels → Bool)
    {i : Increment} (hi : i.IsCount) (state : S) :
    (shown (R.increment state i).1).sumWhere c p =
      (shown state).sumWhere c p + i.shareWhere c p := by
  obtain ⟨n, hn⟩ := hi.amount
  obtain ⟨next, hincrement, hnext⟩ := hR.increment_of_isCount hi hn state
  rw [hincrement, Increment.shareWhere, hn, Number.count, Int.toNat_natCast]
  dsimp only
  rw [hnext]
  split_ifs with hzero hkey hkey
  · simp [hzero]
  · simp
  · rw [Readings.sumWhere_update_add, if_pos hkey]
  · rw [Readings.sumWhere_update_add, if_neg hkey]
    rfl

/-! #### Many recordings -/

/-- A measure of the state that every count raises by its weight is raised by recordings of counts
by their weights together. -/
theorem foldl_eq_add (measure : S → Int) (weight : Increment → Nat)
    (hstep : ∀ i state, i.IsCount → measure (R.increment state i).1 = measure state + weight i)
    {recorded : List Recording} (hcounts : ∀ i, .increment i ∈ recorded → i.IsCount) (state : S) :
    measure (recorded.foldl R.record state) =
      measure state + (((Recording.increments recorded).map weight).sum : Nat) := by
  -- The state is general, as each recording starts from what those before it left.
  induction recorded generalizing state with
  | nil => simp [Recording.increments]
  | cons recording recorded ih =>
    have hrest : ∀ i, .increment i ∈ recorded → i.IsCount := fun i hi =>
      hcounts i (List.mem_cons_of_mem _ hi)
    rw [List.foldl_cons, ih hrest]
    cases recording with
    | increment i =>
      have hweights : ((Recording.increments (.increment i :: recorded)).map weight).sum =
          weight i + ((Recording.increments recorded).map weight).sum := rfl
      rw [record, hstep i state (hcounts i List.mem_cons_self), hweights, Int.natCast_add,
        add_assoc]
    | rows n => rfl
    | phase name => rfl

/-- **The total of a series is the sum of what was recorded for it.** -/
theorem IsExact.total_record (hR : R.IsExact shown key) {recorded : List Recording}
    (hcounts : ∀ i, .increment i ∈ recorded → i.IsCount) :
    (shown (recorded.foldl R.record R.start)).total c labels =
      Increment.shares c labels (Recording.increments recorded) := by
  rw [foldl_eq_add (fun state => (shown state).total c labels) (Increment.share c labels)
    (fun i state hi => hR.total_increment hi state) hcounts, Increment.shares, Readings.total,
    hR.start]
  simp

/-- **What series come to together is the sum of what was recorded for them.** -/
theorem IsExact.sumWhere_record (hR : R.IsExact shown key) (p : Labels → Bool)
    {recorded : List Recording} (hcounts : ∀ i, .increment i ∈ recorded → i.IsCount) :
    (shown (recorded.foldl R.record R.start)).sumWhere c p =
      (((Recording.increments recorded).map (Increment.shareWhere c p)).sum : Nat) := by
  rw [foldl_eq_add (fun state => (shown state).sumWhere c p) (Increment.shareWhere c p)
    (fun i state hi => hR.sumWhere_increment p hi state) hcounts, Readings.sumWhere, hR.start]
  simp

end Register

end

/-! ### Lists of series -/

/-- The numbers that listed series show. -/
def Series.readings {V : Type} (number : V → Int) (series : Series V) : Readings := fun c =>
  (series.filter fun e => e.1.1 = c).map fun e => (e.1.2, number e.2)

namespace Series

variable {V : Type} {number : V → Int} {series : Series V} {key : Counter × Labels}

theorem readings_cons (e : (Counter × Labels) × V) (c : Counter) :
    readings number (e :: series) c =
      if e.1.1 = c then (e.1.2, number e.2) :: readings number series c
      else readings number series c := by
  rw [readings, List.filter_cons]
  by_cases hc : e.1.1 = c <;> simp [hc, readings]

/-- The number that a listed series shows is that of its value. -/
theorem lookup_readings :
    (readings number series key.1).lookup key.2 = (series.lookup key).map number := by
  induction series with
  | nil => rfl
  | cons e rest ih =>
    obtain ⟨k, value⟩ := e
    rw [readings_cons, List.lookup_cons]
    by_cases hkey : k = key
    · subst hkey
      simp
    · rw [beq_eq_false_iff_ne.mpr (Ne.symm hkey)]
      dsimp only
      split_ifs with hc
      · have hlabels : key.2 ≠ k.2 := fun h => hkey (Prod.ext hc h.symm)
        rw [List.lookup_cons, beq_eq_false_iff_ne.mpr hlabels, ih]
      · exact ih

/-- An update of a listed series updates what it shows. -/
theorem readings_update {f : Option V → V} {g : Option Int → Int}
    (h : number (f (series.lookup key)) = g ((series.lookup key).map number)) :
    readings number (Keyed.update key f series) = (readings number series).update key g := by
  funext c
  induction series with
  | nil =>
    rw [Keyed.update, readings_cons]
    by_cases hc : key.1 = c
    · subst hc
      rw [Readings.update_self, if_pos rfl]
      exact congrArg (fun n => [(key.2, n)]) h
    · rw [Readings.update_of_ne (Ne.symm hc), if_neg hc]
  | cons e rest ih =>
    obtain ⟨k, value⟩ := e
    rw [List.lookup_cons] at h
    by_cases hkey : k = key
    · subst hkey
      rw [beq_self_eq_true] at h
      rw [Keyed.update, if_pos (beq_self_eq_true k), readings_cons]
      by_cases hc : k.1 = c
      · subst hc
        rw [Readings.update_self, if_pos rfl, readings_cons, if_pos rfl, Keyed.update,
          if_pos (beq_self_eq_true _)]
        exact congrArg (fun n => (k.2, n) :: _) h
      · rw [Readings.update_of_ne (Ne.symm hc), if_neg hc, readings_cons, if_neg hc]
    · rw [beq_eq_false_iff_ne.mpr (Ne.symm hkey)] at h
      rw [Keyed.update, if_neg (by simpa using hkey), readings_cons, ih h]
      by_cases hc : key.1 = c
      · subst hc
        rw [Readings.update_self, Readings.update_self, readings_cons]
        split_ifs with hk
        · have hlabels : ¬(k.2 == key.2) = true := fun heq => hkey (Prod.ext hk (beq_iff_eq.mp heq))
          rw [Keyed.update, if_neg hlabels]
        · rfl
      · rw [Readings.update_of_ne (Ne.symm hc), Readings.update_of_ne (Ne.symm hc), readings_cons]

end Series

/-- A register with lists of series is exact if its values are. -/
theorem Register.listed_isExact {V : Type} {zero : V} {add : V → Number → Option V}
    {number : V → Int} (hzero : number zero = 0)
    (hadd : ∀ (value : V) (n : Nat), ∃ sum, add value (.integer n) = some sum ∧
      number sum = number value + n) :
    (listed zero add).IsExact (Series.readings number) id where
  start c := rfl
  labels series c labels hlabels := by
    -- the labels are right, so they are not empty either
    have hlabelled : sortLabels labels ≠ [] := by
      have hnames : c.labels ≠ [] := by cases c <;> exact List.cons_ne_nil _ _
      intro hnil
      exact hnames (by rw [← hlabels, hnil, List.map_nil])
    refine ⟨Keyed.update (c, sortLabels labels) (fun value => value.getD zero) series,
      (c, sortLabels labels), ?_, rfl, Series.readings_update ?_⟩
    · simp [listed, hlabelled, hlabels]
    · cases series.lookup (c, sortLabels labels) with
      | none => exact hzero
      | some value => rfl
  inc series key value n hvalue := by
    rw [id, Series.lookup_readings, Option.map_eq_some_iff] at hvalue
    obtain ⟨present, hpresent, rfl⟩ := hvalue
    obtain ⟨sum, hsum, hnumber⟩ := hadd present n
    refine ⟨Keyed.put key sum series, ?_, Series.readings_update hnumber⟩
    have hnegative : Number.isNegative (.integer n) = false := by simp [Number.isNegative]
    simp [listed, hnegative, hpresent, hsum]

namespace Metrics

/-- A recording does to the series of a program what it does to those of its register. -/
theorem series_record (m : Metrics) (recording : Recording) :
    (m.record recording).series = Register.double.record m.series recording := by
  cases recording with
  | increment i =>
    rw [record, Register.record, increment]
  | rows n => rw [record, Register.record, setRows]
  | phase name => rw [record, Register.record, timePhase]

/-- The counters of a program are kept in doubles. -/
theorem series_recordAll (m : Metrics) (recorded : List Recording) :
    (m.recordAll recorded).series = recorded.foldl Register.double.record m.series := by
  induction recorded generalizing m with
  | nil => rfl
  | cons recording recorded ih => rw [List.foldl_cons, ← series_record, ← ih, recordAll, recordAll,
      List.foldl_cons]

end Metrics

end TableRules
