import Mathlib.Data.Set.Card
import TableRules.Proofs.Evaluation.ReadCells
import TableRules.Proofs.Evaluation.RowOrder

/-!
# Repeated values

Uniqueness compares the cells of a column by their keys, each with every other: the key of a cell
that was read as a value is this value with its date format, that of any other cell its text. Having
the same key is an equivalence (`RawColumn.sameKey_equivalence`), and cells of both kinds are never
equivalent.

* `Engine.evaluateRule_unique`: wherever a column can be read, the rows that fail are exactly those
  of a key that occurs again, and the message says how often. Every row that fails while no type is
  declared fails under each type under which the column can be read, since equal texts are read
  alike.
-/

namespace TableRules

open Result

/-! ### Equal values -/

namespace Double

theorem eq_symm {x y : Double} (h : x.eq y = true) : y.eq x = true := by
  cases x <;> cases y <;> simp_all [eq]

theorem eq_trans {x y z : Double} (h : x.eq y = true) (h' : y.eq z = true) : x.eq z = true := by
  cases x <;> cases y <;> cases z <;> simp_all [eq]

end Double

namespace Value

theorem equal_symm {x y : Value} (h : x.equal y = true) : y.equal x = true := by
  cases x <;> cases y <;> simp_all [equal, Double.eq_symm]

theorem equal_trans {x y z : Value} (h : x.equal y = true) (h' : y.equal z = true) :
    x.equal z = true := by
  cases x <;> cases y <;> cases z <;> simp_all [equal]
  · exact Double.eq_trans h h'
  · exact ⟨Double.eq_trans h.1 h'.1, Double.eq_trans h.2 h'.2⟩

end Value

namespace RawColumn

variable {col : RawColumn} {a b c raw raw' : Option String}

/-! ### Keys -/

theorem SameKey.symm (h : col.SameKey a b) : col.SameKey b a := by
  rcases h with ⟨x, y, f, hx, hy, heq⟩ | ⟨ha, hb, htext⟩
  · exact .inl ⟨y, x, f, hy, hx, Value.equal_symm heq⟩
  · exact .inr ⟨hb, ha, htext.symm⟩

theorem SameKey.trans (h : col.SameKey a b) (h' : col.SameKey b c) : col.SameKey a c := by
  rcases h with ⟨x, y, f, hx, hy, heq⟩ | ⟨ha, hb, htext⟩ <;>
    rcases h' with ⟨y', z, g, hy', hz, heq'⟩ | ⟨hb', hc, htext'⟩
  · obtain ⟨rfl, rfl⟩ := hy.unique hy'
    exact .inl ⟨x, z, f, hx, hz, Value.equal_trans heq heq'⟩
  · exact absurd ⟨y, f, hy⟩ hb'
  · exact absurd ⟨y', g, hy'⟩ hb
  · exact .inr ⟨ha, hc, htext.trans htext'⟩

/-- Having the same key is an equivalence. -/
theorem sameKey_equivalence : Equivalence col.SameKey := ⟨sameKey_self, .symm, .trans⟩

/-- A cell that was read as a value has the key of such cells only. -/
theorem SameKey.hasTypedKey_iff (h : col.SameKey a b) :
    (∃ x f, col.HasTypedKey a x f) ↔ ∃ x f, col.HasTypedKey b x f := by
  rcases h with ⟨x, y, f, hx, hy, -⟩ | ⟨ha, hb, -⟩
  · exact iff_of_true ⟨x, f, hx⟩ ⟨y, f, hy⟩
  · exact iff_of_false ha hb

/-- Equal texts are read alike. -/
theorem HasTypedKey.of_trimmed_eq {x : Value} {f : Option String} (ha : ¬ col.IsNull a)
    (hb : ¬ col.IsNull b) (h : trimmed a = trimmed b) (hx : col.HasTypedKey a x f) :
    col.HasTypedKey b x f := by
  obtain ⟨t, v, ht, hv, hx⟩ := hx
  refine ⟨t, v, ht, ?_, hx⟩
  rw [CoercesTo, coerce, if_neg (isNull_iff.not.mpr ha)] at hv
  rw [CoercesTo, coerce, if_neg (isNull_iff.not.mpr hb)]
  exact (congrArg (coerceText · t col.settings col.catalog) h).symm.trans hv

/-- Cells that are not null have the same key if they have the same text. -/
theorem sameKey_of_trimmed_eq (ha : ¬ col.IsNull a) (hb : ¬ col.IsNull b)
    (h : trimmed a = trimmed b) : col.SameKey a b := by
  by_cases hread : ∃ x f, col.HasTypedKey a x f
  · obtain ⟨x, f, hx⟩ := hread
    exact .inl ⟨x, x, f, hx, hx.of_trimmed_eq ha hb h, hx.equal_self⟩
  · refine .inr ⟨hread, ?_, h⟩
    rintro ⟨x, f, hx⟩
    exact hread ⟨x, f, hx.of_trimmed_eq hb ha h.symm⟩

/-! ### Repetitions -/

/-- The rows of the cells that are not null and have the key of a raw cell. -/
def keyRows (col : RawColumn) (raw : Option String) : Set Nat :=
  {row | ∃ raw', col.HasCell row raw' ∧ ¬ col.IsNull raw' ∧ col.SameKey raw raw'}

theorem mem_keyRows {row : Nat} :
    row ∈ col.keyRows raw ↔
      ∃ raw', col.HasCell row raw' ∧ ¬ col.IsNull raw' ∧ col.SameKey raw raw' :=
  Iff.rfl

/-- A row repeats a value: its cell is not null, and another one that is not null has the same
key. -/
def Repeats (col : RawColumn) (row : Nat) : Prop :=
  ∃ raw, col.HasCell row raw ∧ ¬ col.IsNull raw ∧ ∃ row' ∈ col.keyRows raw, row' ≠ row

/-- An outcome reports the repetitions of a column: the failed rows are those that repeat a value,
in increasing order, and each message has the text of the cell and the number of rows with its
key. -/
structure ReportsRepetitions (col : RawColumn) (o : RuleOutcome) : Prop where
  increasing : o.failedRows.Pairwise (· < ·)
  mem_failedRows_iff (row : Nat) : row ∈ o.failedRows ↔ col.Repeats row
  messages : List.Forall₂ (fun row message => ∃ raw, col.HasCell row raw ∧
    message = (Violation.repeated (col.keyRows raw).ncard).message (trimmed raw))
      o.failedRows o.messages

/-- A row does not satisfy uniqueness exactly if it repeats a value. -/
theorem exists_not_satisfies_unique_iff {row : Nat} :
    (∃ raw, col.HasCell row raw ∧ ¬ col.Satisfies row raw .unique) ↔ col.Repeats row := by
  refine exists_congr fun raw => and_congr_right fun _ => ?_
  have hneeds : ¬ (Constraint.unique.NeedsType ∧ col.type = none) := fun h => h.1
  have haccepts : Constraint.unique.AcceptsNull := trivial
  rw [Satisfies, and_iff_right hneeds, and_iff_left haccepts, Meets]
  simp only [mem_keyRows]
  constructor
  · intro h
    obtain ⟨hnull, hother⟩ := not_or.mp h
    refine ⟨hnull, ?_⟩
    by_contra hnone
    refine hother ⟨hnull, fun row' raw' hrow' hne hnull' hsame => hnone ?_⟩
    exact ⟨row', ⟨raw', hrow', hnull', hsame⟩, hne⟩
  · rintro ⟨hnull, row', ⟨raw', hrow', hnull', hsame⟩, hne⟩ (h | ⟨-, hmeets⟩)
    · exact hnull h
    · exact hmeets row' raw' hrow' hne hnull' hsame

/-- Where equal texts repeat without a type, they repeat under every type. -/
theorem Repeats.of_untyped {e : Engine} {table : Table} {column : String} {type : Option ValueType}
    {row : Nat} (h : (ofTable e table column none).Repeats row) :
    (ofTable e table column type).Repeats row := by
  obtain ⟨raw, hrow, hnull, row', ⟨raw', hrow', hnull', hsame⟩, hne⟩ := h
  have htext : trimmed raw = trimmed raw' := by
    rcases hsame with ⟨x, y, f, ⟨t, v, ht, -⟩, -⟩ | ⟨-, -, htext⟩
    · cases ht
    · exact htext
  exact ⟨raw, hrow, hnull, row', ⟨raw', hrow', hnull', sameKey_of_trimmed_eq hnull hnull' htext⟩,
    hne⟩

end RawColumn

/-- The number of cells with the key of a cell is the number of their rows. -/
theorem Cell.occurrences_eq_ncard {col : RawColumn} {cells : List Cell} {cell : Cell}
    {raw : Option String} (hcol : ShowsColumn col cells) (hs : cell.Shows col raw) :
    occurrences cells cell = (col.keyRows raw).ncard := by
  set same := (cells.filter fun d => !d.isNull && cell.sameKey d).map Cell.row with hsame
  have hnodup : same.Nodup := by
    refine (List.pairwise_map.mpr (hcol.increasing.sublist List.filter_sublist)).imp ?_
    exact fun h => Nat.ne_of_lt h
  have hrows : col.keyRows raw = (same.toFinset : Set Nat) := by
    ext row
    simp only [RawColumn.mem_keyRows, List.coe_toFinset, hsame, Set.mem_ofPred_eq, List.mem_map,
      List.mem_filter, Bool.and_eq_true, Bool.not_eq_true']
    constructor
    · rintro ⟨raw', hrow, hnull, hkey⟩
      obtain ⟨d, hd, rfl, hd'⟩ := hcol.exists_cell hrow
      exact ⟨d, ⟨hd, Bool.eq_false_iff.mpr (hd'.isNull_iff.not.mpr hnull),
        (hs.sameKey_iff hd').mpr hkey⟩, rfl⟩
    · rintro ⟨d, ⟨hd, hnull, hkey⟩, rfl⟩
      obtain ⟨raw', hrow, hd'⟩ := hcol.shows hd
      exact ⟨raw', hrow, hd'.isNull_iff.not.mp (Bool.eq_false_iff.mp hnull),
        (hs.sameKey_iff hd').mp hkey⟩
  rw [hrows, Set.ncard_coe_finset, List.toFinset_card_of_nodup hnodup, hsame, List.length_map,
    occurrences]

namespace Engine

variable {e : Engine} {table : Table} {column : String} {type : Option ValueType}
  {cells : List Cell}

/-- The check for uniqueness answers for every cell. -/
theorem violation?_unique (cell : Cell) :
    Check.unique.violation? e.settings e.catalog cells cell = .ok (if cell.isNull then none
      else Check.demand (Cell.occurrences cells cell ≤ 1)
        (.repeated (Cell.occurrences cells cell))) := by
  rw [Check.violation?]
  split_ifs <;> rfl

/-- A cell fails uniqueness exactly if it is not null and its key occurs more than once. -/
private theorem failure?_unique_eq_some_iff {cell : Cell} {p : Nat × String} :
    e.failure? .unique cells cell = some p ↔ cell.isNull = false ∧
      1 < Cell.occurrences cells cell ∧
      p = (cell.row, (Violation.repeated (Cell.occurrences cells cell)).message cell.text) := by
  rw [failure?, violation?_unique]
  cases hnull : cell.isNull with
  | true => simp [Except.toOption]
  | false =>
    by_cases honce : Cell.occurrences cells cell ≤ 1
    · simp [Except.toOption, Check.demand, honce, Nat.not_lt.mpr honce]
    · simp [Except.toOption, Check.demand, honce, Nat.not_le.mp honce, eq_comm (a := p)]

/-- A rule for uniqueness always has an outcome, and this reports the repetitions. -/
theorem exists_evaluateRule_unique (line : Option Int)
    (hcells : e.cells table column type = .ok cells) :
    ∃ o, e.evaluateRule cells type.isSome ⟨.unique, line⟩ = .ok o ∧
      (RawColumn.ofTable e table column type).ReportsRepetitions o := by
  have hcol := Cell.showsColumn_of_cells hcells
  obtain ⟨found, hfound⟩ : ∃ found, e.violations .unique cells = .ok found :=
    exists_mapM_eq_ok fun cell _ => ⟨_, violation?_unique cell⟩
  have hskip : ¬ ((⟨.unique, line⟩ : Rule).kind.family.needsType = true ∧ type.isSome = false) :=
    fun h => Rule.needsType_iff.mp h.1
  have houtcome := evaluateRule_checks rfl rfl hskip hfound
  have hjudges := judges_of_evaluateRule hcells houtcome
  refine ⟨_, houtcome, hjudges.increasing, fun row => ?_, ?_⟩
  · rw [hjudges.mem_failedRows_iff, RawColumn.exists_not_satisfies_unique_iff]
  · rw [ruleOutcome, failures_eq_filterMap hfound, List.forall₂_map_left_iff,
      List.forall₂_map_right_iff, List.forall₂_same]
    intro p hp
    obtain ⟨cell, hcell, hfailure⟩ := List.mem_filterMap.mp hp
    obtain ⟨-, -, rfl⟩ := failure?_unique_eq_some_iff.mp hfailure
    obtain ⟨raw, hrow, hs⟩ := hcol.shows hcell
    exact ⟨raw, hrow, by rw [Cell.occurrences_eq_ncard hcol hs, hs.text_eq]⟩

/-- **Uniqueness is exact, and a type never hides a repetition.** Having the same key is an
equivalence that keeps cells with a typed value apart from the others. A column can be read unless
its cells are read as integers and one is overlong; where it can be read, the rows that fail are
those that repeat a value, with the size of their class in the message, and a row that fails without
a type is one of them. -/
theorem evaluateRule_unique (e : Engine) (table : Table) (column : String)
    (type : Option ValueType) (line : Option Int) :
    let col := RawColumn.ofTable e table column type
    Equivalence col.SameKey ∧
    (∀ a b, col.SameKey a b → ((∃ x f, col.HasTypedKey a x f) ↔ ∃ x f, col.HasTypedKey b x f)) ∧
    ((∃ cells, e.cells table column type = .ok cells) ↔
      ¬ (type = some .integer ∧ ∃ raw ∈ table.column column, col.IsOverlong raw)) ∧
    ∀ cells, e.cells table column type = .ok cells →
      ∃ o, e.evaluateRule cells type.isSome ⟨.unique, line⟩ = .ok o ∧ col.ReportsRepetitions o ∧
        ∃ cells₀ o₀, e.cells table column none = .ok cells₀ ∧
          e.evaluateRule cells₀ false ⟨.unique, line⟩ = .ok o₀ ∧ o₀.failedRows ⊆ o.failedRows := by
  refine ⟨RawColumn.sameKey_equivalence, fun a b => RawColumn.SameKey.hasTypedKey_iff,
    exists_cells_iff, fun cells hcells => ?_⟩
  obtain ⟨o, ho, hreports⟩ := exists_evaluateRule_unique line hcells
  obtain ⟨cells₀, hcells₀⟩ : ∃ cells₀, e.cells table column none = .ok cells₀ :=
    exists_cells_iff.mpr (by simp)
  obtain ⟨o₀, ho₀, hreports₀⟩ := exists_evaluateRule_unique line hcells₀
  refine ⟨o, ho, hreports, cells₀, o₀, hcells₀, ho₀, fun row hrow => ?_⟩
  have hrepeats := (hreports₀.mem_failedRows_iff row).mp hrow
  exact (hreports.mem_failedRows_iff row).mpr hrepeats.of_untyped

/-! #### Repeated counts

Two spellings of one, and a text that is no integer twice. -/

/-- Five rows of counts. -/
def repeatedCounts : Table :=
  ⟨["count"], [[("count", some "1")], [("count", some " 01")], [("count", some "x")],
    [("count", none)], [("count", some "x ")]], none⟩

/-- As integers the counts repeat in four rows, among them the two that repeat as texts. -/
theorem repeatedCounts_unique :
    ∃ cells o, stockEngine.cells repeatedCounts "count" (some .integer) = .ok cells ∧
      stockEngine.evaluateRule cells true ⟨.unique, some 3⟩ = .ok o ∧
      (RawColumn.ofTable stockEngine repeatedCounts "count" (some .integer)).ReportsRepetitions o ∧
      o.failedRows = [1, 2, 3, 5] ∧
      ∃ cells₀ o₀, stockEngine.cells repeatedCounts "count" none = .ok cells₀ ∧
        stockEngine.evaluateRule cells₀ false ⟨.unique, some 3⟩ = .ok o₀ ∧
        o₀.failedRows ⊆ [1, 2, 3, 5] := by
  have hrows : (stockEngine.cells repeatedCounts "count" (some .integer)).toOption.any (fun cells =>
      (stockEngine.evaluateRule cells true ⟨.unique, some 3⟩).toOption.any fun o =>
        o.failedRows == [1, 2, 3, 5]) = true := by decide +kernel
  obtain ⟨cells, hcells, hrows⟩ := any_toOption_iff.mp hrows
  obtain ⟨o, ho, hrows⟩ := any_toOption_iff.mp hrows
  obtain ⟨-, -, -, hunique⟩ :=
    evaluateRule_unique stockEngine repeatedCounts "count" (some .integer) (some 3)
  obtain ⟨o', ho', hreports, cells₀, o₀, hcells₀, ho₀, hsubset⟩ := hunique cells hcells
  obtain rfl := Except.ok.inj (ho.symm.trans ho')
  rw [beq_iff_eq] at hrows
  exact ⟨cells, o, hcells, ho, hreports, hrows, cells₀, o₀, hcells₀, ho₀, hrows ▸ hsubset⟩

/-! #### A repeated integer that is overlong -/

/-- Two rows with one and the same integer, of more digits than are read. -/
def overlongCounts : Table :=
  ⟨["count"], [[("count", some longInteger)], [("count", some longInteger)]], none⟩

/-- **A repetition that a type hides**: as texts the two cells fail, as integers they are not even
read. -/
theorem overlongCounts_hidden :
    (∃ cells o, stockEngine.cells overlongCounts "count" none = .ok cells ∧
      stockEngine.evaluateRule cells false ⟨.unique, none⟩ = .ok o ∧ 1 ∈ o.failedRows ∧
        2 ∈ o.failedRows) ∧
      ¬ ∃ cells, stockEngine.cells overlongCounts "count" (some .integer) = .ok cells := by
  have hcolumn : overlongCounts.column "count" = [some longInteger, some longInteger] := rfl
  have hlong : (RawColumn.ofTable stockEngine overlongCounts "count" (some .integer)).IsOverlong
      (some longInteger) := isOverlong_longInteger rfl
  constructor
  · obtain ⟨cells, hcells⟩ : ∃ cells, stockEngine.cells overlongCounts "count" none = .ok cells :=
      exists_cells_iff.mpr (by simp)
    obtain ⟨o, ho, hreports⟩ := exists_evaluateRule_unique none hcells
    set col := RawColumn.ofTable stockEngine overlongCounts "count" none with hcol
    have hfirst : col.HasCell 1 (some longInteger) := ⟨0, rfl, by rw [hcol]; rfl⟩
    have hsecond : col.HasCell 2 (some longInteger) := ⟨1, rfl, by rw [hcol]; rfl⟩
    have hsame := col.sameKey_self (some longInteger)
    refine ⟨cells, o, hcells, ho, ?_, ?_⟩
    · exact (hreports.mem_failedRows_iff 1).mpr
        ⟨_, hfirst, hlong.1, 2, ⟨_, hsecond, hlong.1, hsame⟩, by decide⟩
    · exact (hreports.mem_failedRows_iff 2).mpr
        ⟨_, hsecond, hlong.1, 1, ⟨_, hfirst, hlong.1, hsame⟩, by decide⟩
  · rw [exists_cells_iff, not_not]
    exact ⟨rfl, some longInteger, hcolumn ▸ List.mem_cons_self, hlong⟩

end Engine

end TableRules
