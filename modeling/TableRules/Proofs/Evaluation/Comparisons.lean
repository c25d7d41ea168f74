import Mathlib.Data.List.Sort
import TableRules.Proofs.Evaluation.SetMembership

/-!
# The six comparisons

The comparisons of a column with one bound belong together. A row whose cell has no real number to
compare (`Cell.Incomparable`) fails all six. On any other row the comparisons are consistent
(`Comparison.Consistent`): what fails them follows from the order of the number and the bound and
from whether the two are close.

Two numbers that are close stay close when the precision is raised (`Close.mono`). So fewer rows
fail where closeness is accepted, more where it is refused, and the strict comparisons do not
change (`Comparison.Shifts`).

**Main result** (`Engine.evaluateRule_comparisons`).
-/

namespace TableRules

open Result

/-- Two numbers that are close are close within a greater precision. -/
theorem Close.mono {precision precision' a b : Double} (hraise : precision.lt precision' = true)
    (h : Close precision a b) : Close precision' a b :=
  Double.lt_trans h hraise

namespace Comparison

/-- The comparisons that fail fit together. -/
structure Consistent (fails : Comparison → Prop) : Prop where
  equal : fails .equal ↔ ¬ fails .notEqual
  strict : fails .greater ∨ fails .less
  greaterOrEqual : fails .greaterOrEqual ↔ fails .greater ∧ fails .equal
  lessOrEqual : fails .lessOrEqual ↔ fails .less ∧ fails .equal

/-- **The comparisons of two numbers are consistent.** -/
theorem consistent_holds (precision a bound : Double) :
    Consistent fun op => ¬ op.Holds precision a bound where
  equal := not_not.symm
  strict := by
    by_contra h
    obtain ⟨hgreater, hless⟩ := not_or.mp h
    have hlt : bound.lt a = true := not_not.mp hgreater
    have hgt : a.lt bound = true := not_not.mp hless
    exact Bool.false_ne_true ((Double.lt_asymm hlt).symm.trans hgt)
  greaterOrEqual := not_or
  lessOrEqual := not_or

/-- With a greater precision, comparisons that accept closeness fail at most the rows they failed
before, inequality fails at least these, and the strict comparisons fail the same rows. -/
structure Shifts (o o' : Comparison → RuleOutcome) : Prop where
  equal : (o' .equal).failedRows ⊆ (o .equal).failedRows
  greaterOrEqual : (o' .greaterOrEqual).failedRows ⊆ (o .greaterOrEqual).failedRows
  lessOrEqual : (o' .lessOrEqual).failedRows ⊆ (o .lessOrEqual).failedRows
  notEqual : (o .notEqual).failedRows ⊆ (o' .notEqual).failedRows
  greater : (o' .greater).failedRows = (o .greater).failedRows
  less : (o' .less).failedRows = (o .less).failedRows

end Comparison

/-! ### Cells without a number to compare -/

/-- A cell has no real number to compare: its column has no type, or it is null, does not fit its
type, or holds a value that is no real number. -/
def Cell.Incomparable (type : Option ValueType) (cell : Cell) : Prop :=
  type = none ∨ cell.isNull = true ∨ cell.isMisfit = true ∨
    ∃ v, cell.typed? = some v ∧ v.isRealNumber = false

/-- A cell with a real number to compare holds one. -/
theorem Cell.exists_real_of_comparable {e : Engine} {table : Table} {column : String}
    {type : Option ValueType} {cells : List Cell} {cell : Cell}
    (hcells : e.cells table column type = .ok cells) (hcell : cell ∈ cells)
    (h : ¬ cell.Incomparable type) :
    ¬ cell.isNull = true ∧
      ∃ v x, cell.typed? = some v ∧ v.isRealNumber = true ∧ v.value = some x := by
  obtain ⟨htype, hnull, hmisfit, hother⟩ : type ≠ none ∧ ¬ cell.isNull = true ∧
      ¬ cell.isMisfit = true ∧ ¬ ∃ v, cell.typed? = some v ∧ v.isRealNumber = false := by
    simpa only [Cell.Incomparable, not_or] using h
  obtain ⟨t, rfl⟩ := Option.ne_none_iff_exists'.mp htype
  obtain ⟨r, hr⟩ := Cell.exists_reading hcells hcell
  cases r with
  | misfit m => exact absurd (by simp [Cell.isMisfit, hr, Reading.isMisfit]) hmisfit
  | value v =>
    have htyped := Cell.typed?_eq_some_iff.mpr hr
    have hreal : v.isRealNumber = true := by
      by_contra hno
      exact hother ⟨v, htyped, Bool.eq_false_iff.mpr hno⟩
    obtain ⟨x, hx⟩ := TypedValue.exists_value_of_isRealNumber hreal
    exact ⟨hnull, v, x, htyped, hreal, hx⟩

namespace RawColumn

variable {col : RawColumn} {raw : Option String} {cell : Cell}

/-- A cell holds the real number that its raw cell is read as. -/
theorem ReadsReal.exists_typed {text : String} {x : Value} (h : col.ReadsReal raw text x)
    (hs : cell.Shows col raw) : ∃ v, cell.typed? = some v ∧ v.isRealNumber = true := by
  obtain ⟨t, v, ht, hreal, hv, hx, -⟩ := h
  obtain ⟨htyped, hreal, -⟩ := (Check.typed_isReal_iff hs).mpr ⟨t, ht, hreal, hv, hx⟩
  exact ⟨v, htyped, hreal⟩

/-- A cell that holds no real number fails every comparison. -/
theorem not_satisfies_of_incomparable {row : Nat} {op : Comparison} {n : Number}
    (hs : cell.Shows col raw) (h : cell.Incomparable col.type) :
    ¬ col.Satisfies row raw (.compare op n) := by
  rw [satisfies_compare_iff]
  rintro ⟨hnull, a, b, ⟨text, x, hreads, -⟩, -⟩
  obtain ⟨v, htyped, hreal⟩ := hreads.exists_typed hs
  rcases h with htype | hcell | hmisfit | ⟨w, hw, hother⟩
  · obtain ⟨t, -, ht, -⟩ := hreads
    simp [htype] at ht
  · exact hnull (hs.isNull_iff.mp hcell)
  · simp [Cell.isMisfit, Cell.typed?_eq_some_iff.mp htyped, Reading.isMisfit] at hmisfit
  · obtain rfl := Option.some.inj (htyped.symm.trans hw)
    exact Bool.false_ne_true (hother.symm.trans hreal)

/-- The rows that fail a comparison, where the cell has a number. -/
theorem Judges.mem_failedRows_compare_iff {op : Comparison} {n : Number} {line : Option Int}
    {o : RuleOutcome} (h : col.Judges ⟨.compare op n, line⟩ o) {row : Nat}
    (hraw : col.HasCell row raw) (hnull : ¬ col.IsNull raw) {a b : Double}
    (ha : col.HasNumber raw a) (hb : n.toDouble? = some b) :
    row ∈ o.failedRows ↔ ¬ op.Holds col.settings.precision a b := by
  rw [← not_iff_not, h.notMem_failedRows_iff hraw, satisfies_compare_iff, not_not]
  constructor
  · rintro ⟨-, a', b', ha', hb', hop⟩
    obtain rfl := ha.unique ha'
    obtain rfl := Option.some.inj (hb.symm.trans hb')
    exact hop
  · exact fun hop => ⟨hnull, a, b, ha, hb, hop⟩

end RawColumn

/-! ### Greater precision -/

/-- Settings that differ from others by a greater precision only. -/
structure Settings.RaisesPrecision (s s' : Settings) : Prop where
  nullValues : s'.nullValues = s.nullValues
  separator : s'.separator = s.separator
  precision : s.precision.lt s'.precision = true

theorem Settings.raisesPrecision_with {s : Settings} {precision : Double}
    (hpos : precision.isPositive = true) (h : s.precision.lt precision = true) :
    s.RaisesPrecision { s with precision := precision, precision_pos := hpos } :=
  ⟨rfl, rfl, h⟩

namespace Settings.RaisesPrecision

variable {s s' : Settings}

/-- The precision plays no part in coercion. -/
theorem coerce_eq (h : s.RaisesPrecision s') (raw : Option String) (t : ValueType) (c : Catalog) :
    coerce raw t s' c = coerce raw t s c := by
  obtain ⟨nullValues, separator, precision, hpos⟩ := s'
  obtain ⟨rfl, rfl, -⟩ := h
  cases t <;> rfl

theorem read_eq (h : s.RaisesPrecision s') (c : Catalog) (type : Option ValueType) (row : Nat)
    (raw : Option String) : Cell.read s' c type row raw = Cell.read s c type row raw := by
  have hnull : isNull raw s' = isNull raw s := by
    unfold isNull
    rw [h.nullValues]
  cases type with
  | none => rw [Cell.read, Cell.read, hnull]
  | some t => rw [Cell.read, Cell.read, hnull, h.coerce_eq]

/-- The precision plays no part in reading a column. -/
theorem readFrom_eq (h : s.RaisesPrecision s') (c : Catalog) (type : Option ValueType) (row : Nat)
    (raws : List (Option String)) :
    Cell.readFrom s' c type row raws = Cell.readFrom s c type row raws := by
  induction raws generalizing row with
  | nil => rfl
  | cons raw raws ih => rw [Cell.readFrom, Cell.readFrom, h.read_eq, ih]

end Settings.RaisesPrecision

/-- Whether a comparison breaks off depends on neither the precision nor the operator. -/
theorem Check.exists_violation?_compare {s s' : Settings} {c c' : Catalog} {op op' : Comparison}
    {bound : Double} {column column' : List Cell} {cell : Cell} {v : Option Violation}
    (h : (Check.compare op bound).violation? s c column cell = .ok v) :
    ∃ v', (Check.compare op' bound).violation? s' c' column' cell = .ok v' := by
  unfold violation? valueViolation? at h ⊢
  split_ifs at h ⊢
  · exact ⟨_, rfl⟩
  · dsimp only at h ⊢
    obtain ⟨v, hv⟩ | ⟨v, x, hv, hreal, hx⟩ := onReal_cases cell
    · exact ⟨_, hv _⟩
    · rw [onReal_of_value hv hreal hx] at h ⊢
      obtain ⟨a, ha, -⟩ := map_eq_ok_iff.mp h
      exact ⟨_, map_eq_ok_iff.mpr ⟨a, ha, rfl⟩⟩

namespace Engine

variable {e e' : Engine} {table : Table} {column : String} {type : Option ValueType}
  {cells : List Cell} {cell : Cell} {raw : Option String} {n : Number} {op : Comparison}
  {line : Option Int} {o : RuleOutcome}

/-- Where a comparison was evaluated, a cell with a real number and the bound have doubles that are
compared. -/
theorem exists_numbers_of_compare (hcells : e.cells table column type = .ok cells)
    (hcell : cell ∈ cells) (hs : cell.Shows (.ofTable e table column type) raw)
    (hcomparable : ¬ cell.Incomparable type)
    (h : e.evaluateRule cells type.isSome ⟨.compare op n, line⟩ = .ok o) :
    ∃ a b, (RawColumn.ofTable e table column type).HasNumber raw a ∧ n.toDouble? = some b := by
  obtain ⟨hnull, v, x, htyped, hreal, hx⟩ := Cell.exists_real_of_comparable hcells hcell hcomparable
  obtain ⟨t, ht, hisReal, hv, -⟩ := (Check.typed_isReal_iff hs).mp ⟨htyped, hreal, hx⟩
  obtain ⟨check, phrase, hcheck, -, hcase⟩ := evaluateRule_eq_ok h
  obtain ⟨b, hb, rfl⟩ := map_eq_ok_iff.mp hcheck
  rcases hcase with ⟨-, huntyped, -⟩ | ⟨-, found, hfound, -⟩
  · exact absurd (.inl (by simpa using huntyped)) hcomparable
  · obtain ⟨violation, hviolation⟩ := violation?_eq_ok_of_mem hfound hcell
    rw [Check.violation?, if_neg hnull, Check.valueViolation?,
      Check.onReal_of_value (Cell.typed?_eq_some_iff.mp htyped) hreal hx] at hviolation
    obtain ⟨a, ha, -⟩ := map_eq_ok_iff.mp hviolation
    exact ⟨a, b, ⟨v.text, x, ⟨t, v, ht, hisReal, hv, hx, rfl⟩, ha⟩, Check.bound_eq_ok_iff.mp hb⟩

/-- The row of a cell with a real number fails a comparison as the number and the bound do not stand
in its relation, for every engine that reads the cell alike. -/
theorem exists_mem_failedRows_iff (hcells : e.cells table column type = .ok cells)
    (hcell : cell ∈ cells) (hcomparable : ¬ cell.Incomparable type)
    (h : e.evaluateRule cells type.isSome ⟨.compare op n, line⟩ = .ok o) :
    ∃ a b, ∀ (e' : Engine) (op' : Comparison) (line' : Option Int) (o' : RuleOutcome),
      e'.cells table column type = .ok cells →
      (∀ raw t, coerce raw t e'.settings e'.catalog = coerce raw t e.settings e.catalog) →
      e'.evaluateRule cells type.isSome ⟨.compare op' n, line'⟩ = .ok o' →
        (cell.row ∈ o'.failedRows ↔ ¬ op'.Holds e'.settings.precision a b) := by
  obtain ⟨raw, -, hs⟩ := (Cell.showsColumn_of_cells hcells).shows hcell
  obtain ⟨a, b, ⟨text, x, ⟨t, v, ht, hreal, hv, hrest⟩, ha⟩, hb⟩ :=
    exists_numbers_of_compare hcells hcell hs hcomparable h
  have hnull := (Cell.exists_real_of_comparable hcells hcell hcomparable).1
  refine ⟨a, b, fun e' op' line' o' hcells' hcoerce h' => ?_⟩
  obtain ⟨raw', hraw', hs'⟩ := (Cell.showsColumn_of_cells hcells').shows hcell
  obtain rfl : raw = raw' := hs.raw_eq.symm.trans hs'.raw_eq
  exact (judges_of_evaluateRule hcells' h').mem_failedRows_compare_iff hraw'
    (fun hn => hnull (hs'.isNull_iff.mpr hn))
    ⟨text, x, ⟨t, v, ht, hreal, (hcoerce raw t).trans hv, hrest⟩, ha⟩ hb

/-- A cell without a real number fails every comparison. -/
theorem mem_failedRows_of_incomparable (hcells : e.cells table column type = .ok cells)
    (hcell : cell ∈ cells) (hincomparable : cell.Incomparable type)
    (h : e.evaluateRule cells type.isSome ⟨.compare op n, line⟩ = .ok o) :
    cell.row ∈ o.failedRows := by
  obtain ⟨raw, hraw, hs⟩ := (Cell.showsColumn_of_cells hcells).shows hcell
  exact ((judges_of_evaluateRule hcells h).mem_failedRows_iff _).mpr
    ⟨raw, hraw, RawColumn.not_satisfies_of_incomparable hs hincomparable⟩

/-! ### Two precisions -/

theorem cells_of_raisesPrecision (hsettings : e.settings.RaisesPrecision e'.settings)
    (hcatalog : e'.catalog = e.catalog) :
    e'.cells table column type = e.cells table column type := by
  rw [cells, cells, Cell.readColumn, Cell.readColumn, hcatalog, hsettings.readFrom_eq]

/-- A comparison that was evaluated is evaluated under any other settings too. -/
theorem exists_evaluateRule_compare {typed : Bool}
    (h : e.evaluateRule cells typed ⟨.compare op n, line⟩ = .ok o) :
    ∃ o', e'.evaluateRule cells typed ⟨.compare op n, line⟩ = .ok o' := by
  obtain ⟨check, phrase, hcheck, hphrase, hcase⟩ := evaluateRule_eq_ok h
  obtain ⟨b, hb, rfl⟩ := map_eq_ok_iff.mp hcheck
  have hcheck' : e'.check ⟨.compare op n, line⟩ = .ok (.compare op b) :=
    map_eq_ok_iff.mpr ⟨b, hb, rfl⟩
  rcases hcase with ⟨hneeds, rfl, -⟩ | ⟨hskip, found, hfound, -⟩
  · exact ⟨_, evaluateRule_untyped hcheck' hphrase hneeds⟩
  · obtain ⟨found', hfound'⟩ : ∃ found', e'.violations (.compare op b) cells = .ok found' :=
      exists_mapM_eq_ok fun cell hcell => by
        obtain ⟨v, hv⟩ := violation?_eq_ok_of_mem hfound hcell
        exact Check.exists_violation?_compare hv
    exact ⟨_, evaluateRule_checks hcheck' hphrase hskip hfound'⟩

/-- Where a comparison holds at the precision of an engine if it holds at that of another which
reads cells alike, its failed rows under the first are failed rows under the second. -/
theorem failedRows_compare_subset {o' : RuleOutcome}
    (hcells : e.cells table column type = .ok cells)
    (hcells' : e'.cells table column type = .ok cells)
    (hcoerce : ∀ raw t, coerce raw t e'.settings e'.catalog = coerce raw t e.settings e.catalog)
    (h : e.evaluateRule cells type.isSome ⟨.compare op n, line⟩ = .ok o)
    (h' : e'.evaluateRule cells type.isSome ⟨.compare op n, line⟩ = .ok o')
    (hholds : ∀ a b, op.Holds e'.settings.precision a b → op.Holds e.settings.precision a b) :
    o.failedRows ⊆ o'.failedRows := by
  intro row hrow
  obtain ⟨raw, hraw, -⟩ := ((judges_of_evaluateRule hcells h).mem_failedRows_iff row).mp hrow
  obtain ⟨cell, hcell, rfl, -⟩ := (Cell.showsColumn_of_cells hcells).exists_cell hraw
  by_cases hincomparable : cell.Incomparable type
  · exact mem_failedRows_of_incomparable hcells' hcell hincomparable h'
  · obtain ⟨a, b, hiff⟩ := exists_mem_failedRows_iff hcells hcell hincomparable h
    have hfails := (hiff e op line o hcells (fun _ _ => rfl) h).mp hrow
    exact (hiff e' op line o' hcells' hcoerce h').mpr fun hop => hfails (hholds a b hop)

/-- **The six comparisons of a column with one bound.** Wherever they can be evaluated: a row whose
cell has no real number to compare fails all six; on every other row they are consistent; and under
a greater precision they can be evaluated too, and their failures shift. -/
theorem evaluateRule_comparisons (e : Engine) (table : Table) (column : String)
    (type : Option ValueType) (cells : List Cell) (n : Number) (line : Comparison → Option Int)
    (outcome : Comparison → RuleOutcome) (hcells : e.cells table column type = .ok cells)
    (h : ∀ op, e.evaluateRule cells type.isSome ⟨.compare op n, line op⟩ = .ok (outcome op)) :
    (∀ cell ∈ cells, cell.Incomparable type → ∀ op, cell.row ∈ (outcome op).failedRows) ∧
    (∀ cell ∈ cells, ¬ cell.Incomparable type →
      Comparison.Consistent fun op => cell.row ∈ (outcome op).failedRows) ∧
    ∀ e' : Engine, e.settings.RaisesPrecision e'.settings → e'.catalog = e.catalog →
      e'.cells table column type = .ok cells ∧
      ∃ outcome' : Comparison → RuleOutcome,
        (∀ op, e'.evaluateRule cells type.isSome ⟨.compare op n, line op⟩ = .ok (outcome' op)) ∧
        Comparison.Shifts outcome outcome' := by
  refine ⟨fun cell hcell hincomparable op =>
    mem_failedRows_of_incomparable hcells hcell hincomparable (h op), ?_, ?_⟩
  · intro cell hcell hcomparable
    obtain ⟨a, b, hiff⟩ := exists_mem_failedRows_iff hcells hcell hcomparable (h .equal)
    have hfails : (fun op => cell.row ∈ (outcome op).failedRows)
        = fun op => ¬ op.Holds e.settings.precision a b :=
      funext fun op => propext (hiff e op _ _ hcells (fun _ _ => rfl) (h op))
    rw [hfails]
    exact Comparison.consistent_holds _ a b
  · intro e' hsettings hcatalog
    have hcells' := (cells_of_raisesPrecision hsettings hcatalog).trans hcells
    have hcoerce : ∀ raw t,
        coerce raw t e'.settings e'.catalog = coerce raw t e.settings e.catalog := fun raw t => by
      rw [hcatalog, hsettings.coerce_eq]
    have hexists : ∀ op, ∃ o',
        e'.evaluateRule cells type.isSome ⟨.compare op n, line op⟩ = .ok o' := fun op =>
      exists_evaluateRule_compare (h op)
    choose outcome' h' using hexists
    have hfewer : ∀ op : Comparison,
        (∀ a b, op.Holds e.settings.precision a b → op.Holds e'.settings.precision a b) →
          (outcome' op).failedRows ⊆ (outcome op).failedRows := fun op =>
      failedRows_compare_subset hcells' hcells (fun raw t => (hcoerce raw t).symm) (h' op) (h op)
    have hmore : ∀ op : Comparison,
        (∀ a b, op.Holds e'.settings.precision a b → op.Holds e.settings.precision a b) →
          (outcome op).failedRows ⊆ (outcome' op).failedRows := fun op =>
      failedRows_compare_subset hcells hcells' hcoerce (h op) (h' op)
    have hsame : ∀ op : Comparison,
        (∀ a b, op.Holds e.settings.precision a b ↔ op.Holds e'.settings.precision a b) →
          (outcome' op).failedRows = (outcome op).failedRows := fun op hop =>
      (judges_of_evaluateRule hcells' (h' op)).increasing.eq_of_mem_iff
        (judges_of_evaluateRule hcells (h op)).increasing fun row =>
          ⟨fun hrow => hfewer op (fun a b => (hop a b).mp) hrow,
            fun hrow => hmore op (fun a b => (hop a b).mpr) hrow⟩
    have hclose : ∀ a b, Close e.settings.precision a b → Close e'.settings.precision a b :=
      fun a b => Close.mono hsettings.precision
    exact ⟨hcells', outcome', h', hfewer .equal hclose,
      hfewer .greaterOrEqual fun a b => Or.imp_right (hclose a b),
      hfewer .lessOrEqual fun a b => Or.imp_right (hclose a b),
      hmore .notEqual fun a b => mt (hclose a b),
      hsame .greater fun _ _ => Iff.rfl, hsame .less fun _ _ => Iff.rfl⟩

/-! #### Filling weights

The weights should be ten. One is within the precision of a thousandth, one within one, one beyond
it; one cell is no number and one is empty. -/

/-- An engine without rules, with a precision of a thousandth. -/
def fillingEngine : Engine :=
  ⟨⟨.standard, ⟨["weight"], false, false, false⟩, [], [], none, List.nodup_nil,
    List.nodup_nil⟩, .standard, 1⟩

theorem coarsePrecision_pos : (Double.ofDecimal false 1 0).isPositive = true := by decide +kernel

/-- The engine with a precision of one. -/
def coarseEngine : Engine :=
  { fillingEngine with
    ruleset := { fillingEngine.ruleset with settings := { Settings.standard with
      precision := .ofDecimal false 1 0
      precision_pos := coarsePrecision_pos } } }

/-- Five weights. -/
def fillingTable : Table :=
  ⟨["weight"], [[("weight", some "10.0001")], [("weight", some "10.5")], [("weight", some "8")],
    [("weight", some "x")], [("weight", none)]], none⟩

/-- The outcomes of the six comparisons with ten fit together, and shift with the precision. -/
theorem fillingTable_comparisons :
    fillingEngine.settings.RaisesPrecision coarseEngine.settings ∧
    ∃ cells outcome outcome',
      fillingEngine.cells fillingTable "weight" (some .floatingPoint) = .ok cells ∧
      (∀ op, fillingEngine.evaluateRule cells true ⟨.compare op (.integer 10), none⟩
        = .ok (outcome op)) ∧
      (∀ op, coarseEngine.evaluateRule cells true ⟨.compare op (.integer 10), none⟩
        = .ok (outcome' op)) ∧
      (outcome .equal).failedRows = [2, 3, 4, 5] ∧
      (∀ cell ∈ cells, ¬ cell.Incomparable (some .floatingPoint) →
        Comparison.Consistent fun op => cell.row ∈ (outcome op).failedRows) ∧
      Comparison.Shifts outcome outcome' := by
  have hsettings : fillingEngine.settings.RaisesPrecision coarseEngine.settings :=
    Settings.raisesPrecision_with (s := Settings.standard) coarsePrecision_pos (by decide +kernel)
  have hrun : (fillingEngine.cells fillingTable "weight" (some .floatingPoint)).toOption.any
      (fun cells => [Comparison.equal, .notEqual, .greater, .less, .greaterOrEqual,
        .lessOrEqual].all fun op =>
          (fillingEngine.evaluateRule cells true ⟨.compare op (.integer 10), none⟩).toOption.any
            fun o => op != .equal || o.failedRows == [2, 3, 4, 5]) = true := by
    decide +kernel
  obtain ⟨cells, hcells, hall⟩ := any_toOption_iff.mp hrun
  have hexists : ∀ op, ∃ o,
      fillingEngine.evaluateRule cells true ⟨.compare op (.integer 10), none⟩ = .ok o ∧
        (op != .equal || o.failedRows == [2, 3, 4, 5]) = true := fun op =>
    any_toOption_iff.mp (List.all_eq_true.mp hall op (by cases op <;> simp))
  choose outcome houtcome hrows using hexists
  obtain ⟨-, hconsistent, hraise⟩ := evaluateRule_comparisons fillingEngine fillingTable "weight"
    (some .floatingPoint) cells (.integer 10) (fun _ => none) outcome hcells houtcome
  obtain ⟨-, outcome', houtcome', hshifts⟩ := hraise coarseEngine hsettings rfl
  exact ⟨hsettings, cells, outcome, outcome', hcells, houtcome, houtcome',
    by simpa using hrows .equal, hconsistent, hshifts⟩

end Engine

end TableRules
