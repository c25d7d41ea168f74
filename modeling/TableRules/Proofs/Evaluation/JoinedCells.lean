import TableRules.Proofs.Evaluation.MovedCells

/-!
# Cells of a table in two parts

A table may come in two parts, the rows of the first and then those of the second (`Table.Joins`). A
column of the whole table is read where both parts of it are. Its cells are those of the first part
and then those of the second, with row numbers that go on from the last one of the first
(`Engine.cells_join`).

A check looks beyond its cell only to count how often a value occurs, and a value occurs in the
whole column at least as often as in a part of it. So a check finds a violation in the whole column
where it finds one in the part, and all checks but the one for uniqueness find the same violation
(`Check.exists_violation?_of_le`).
-/

namespace TableRules

open Result

/-! ### Tables and rows -/

/-- A table has the rows of a first table and then those of a second, all under one header. -/
structure Table.Joins (first second whole : Table) : Prop where
  header : whole.header = first.header
  header' : second.header = first.header
  rows : whole.rows = first.rows ++ second.rows

namespace Table.Joins

variable {first second whole : Table}

theorem rowCount_eq (h : first.Joins second whole) :
    whole.rowCount = first.rowCount + second.rowCount := by
  rw [rowCount, h.rows, List.length_append]
  rfl

theorem column_eq (h : first.Joins second whole) (c : String) :
    whole.column c = first.column c ++ second.column c := by
  rw [column, h.rows, List.map_append]
  rfl

theorem hasColumn_eq (h : first.Joins second whole) (c : String) :
    whole.hasColumn c = first.hasColumn c := by
  rw [hasColumn, h.header]
  rfl

theorem hasColumn_eq' (h : first.Joins second whole) (c : String) :
    second.hasColumn c = first.hasColumn c := by
  rw [hasColumn, h.header']
  rfl

end Table.Joins

/-- Rows of a first part with `n` rows, and then rows of a second part by their numbers in the
whole. -/
def joinRows (n : Nat) (rows rows' : List Nat) : List Nat := rows ++ rows'.map (n + ·)

section JoinRows

variable {n : Nat} {rows rows' : List Nat}

theorem joinRows_subset {more more' : List Nat} (h : rows ⊆ more) (h' : rows' ⊆ more') :
    joinRows n rows rows' ⊆ joinRows n more more' :=
  List.append_subset.mpr ⟨List.subset_append_of_subset_left _ h,
    List.subset_append_of_subset_right _ (List.map_subset _ h')⟩

theorem joinRows_eq_nil_iff : joinRows n rows rows' = [] ↔ rows = [] ∧ rows' = [] := by
  rw [joinRows, List.append_eq_nil_iff, List.map_eq_nil_iff]

end JoinRows

/-! ### Cells -/

namespace Cell

variable {s : Settings} {c : Catalog} {type : Option ValueType} {n : Nat} {cells cells' : List Cell}

/-- Cells of a first part with `n` rows, and then cells of a second part by their rows in the
whole. -/
def join (n : Nat) (cells cells' : List Cell) : List Cell := cells ++ cells'.map (renumber (n + ·))

theorem map_row_join :
    (join n cells cells').map row = joinRows n (cells.map row) (cells'.map row) := by
  rw [join, joinRows, List.map_append, List.map_map, List.map_map]
  rfl

theorem length_join : (join n cells cells').length = cells.length + cells'.length := by
  rw [join, List.length_append, List.length_map]

theorem mem_join_iff {cell : Cell} :
    cell ∈ join n cells cells' ↔ cell ∈ cells ∨ ∃ d ∈ cells', d.renumber (n + ·) = cell := by
  rw [join, List.mem_append, List.mem_map]

/-- What holds of the cells of both parts holds of those of the whole. -/
theorem forall_mem_join {P : Cell → Prop} :
    (∀ cell ∈ join n cells cells', P cell) ↔
      (∀ cell ∈ cells, P cell) ∧ ∀ cell ∈ cells', P (cell.renumber (n + ·)) := by
  rw [join, List.forall_mem_append, List.forall_mem_map]

/-- A test that agrees with tests of both parts keeps what these keep. -/
theorem filter_join {p r q : Cell → Bool} (hp : ∀ cell ∈ cells, q cell = p cell)
    (hr : ∀ cell ∈ cells', q (cell.renumber (n + ·)) = r cell) :
    (join n cells cells').filter q = join n (cells.filter p) (cells'.filter r) := by
  rw [join, join, List.filter_append, List.filter_map, List.filter_congr hp]
  exact congrArg _ (congrArg _ (List.filter_congr hr))

/-- A test that may break off, and accepts no cell of the whole that it does not accept in its part,
keeps no others than from the parts; if it accepts the same cells, it keeps the same. -/
theorem exists_filterM_join {ε : Type} {P : Prop} {p p' q : Cell → Except ε Bool}
    {kept kept' : List Cell}
    (hq : ∀ cell ∈ cells, ∀ b, p cell = .ok b →
      ∃ b', q cell = .ok b' ∧ (b' = true → b = true) ∧ (P → b' = b))
    (hq' : ∀ cell ∈ cells', ∀ b, p' cell = .ok b →
      ∃ b', q (cell.renumber (n + ·)) = .ok b' ∧ (b' = true → b = true) ∧ (P → b' = b))
    (h : cells.filterM p = .ok kept) (h' : cells'.filterM p' = .ok kept') :
    ∃ w, (join n cells cells').filterM q = .ok w ∧ w ⊆ join n kept kept' ∧
      (P → w = join n kept kept') := by
  obtain ⟨hok, rfl⟩ := filterM_eq_ok_iff.mp h
  obtain ⟨hok', rfl⟩ := filterM_eq_ok_iff.mp h'
  have hleft : ∀ cell ∈ cells, ∃ b, q cell = .ok b ∧ (b = true → accepts (p cell) = true) ∧
      (P → b = accepts (p cell)) := fun cell hcell => by
    obtain ⟨b, hb⟩ := hok cell hcell
    rw [hb]
    exact hq cell hcell b hb
  have hright : ∀ cell ∈ cells', ∃ b, q (cell.renumber (n + ·)) = .ok b ∧
      (b = true → accepts (p' cell) = true) ∧ (P → b = accepts (p' cell)) := fun cell hcell => by
    obtain ⟨b, hb⟩ := hok' cell hcell
    rw [hb]
    exact hq' cell hcell b hb
  refine ⟨_, filterM_eq_ok_iff.mpr ⟨forall_mem_join.mpr ⟨fun cell hcell => ?_,
    fun cell hcell => ?_⟩, rfl⟩, fun cell hcell => ?_, fun hP => filter_join (fun cell hcell => ?_)
      fun cell hcell => ?_⟩
  · exact (hleft cell hcell).imp fun _ hb => hb.1
  · exact (hright cell hcell).imp fun _ hb => hb.1
  · obtain ⟨hmem, haccepts⟩ := List.mem_filter.mp hcell
    rcases mem_join_iff.mp hmem with hfirst | ⟨d, hsecond, rfl⟩
    · obtain ⟨b, hb, himp, -⟩ := hleft cell hfirst
      rw [hb] at haccepts
      exact mem_join_iff.mpr (.inl (List.mem_filter.mpr ⟨hfirst, himp haccepts⟩))
    · obtain ⟨b, hb, himp, -⟩ := hright d hsecond
      rw [hb] at haccepts
      exact mem_join_iff.mpr (.inr ⟨d, List.mem_filter.mpr ⟨hsecond, himp haccepts⟩, rfl⟩)
  · obtain ⟨b, hb, -, heq⟩ := hleft cell hcell
    rw [hb, ← heq hP]
    rfl
  · obtain ⟨b, hb, -, heq⟩ := hright cell hcell
    rw [hb, ← heq hP]
    rfl

/-- The cells of the whole are read in two parts. -/
theorem readFrom_append {first : Nat} {raws raws' : List (Option String)}
    (h : readFrom s c type first raws = .ok cells)
    (h' : readFrom s c type (first + raws.length) raws' = .ok cells') :
    readFrom s c type first (raws ++ raws') = .ok (cells ++ cells') := by
  induction raws generalizing first cells with
  | nil =>
    obtain rfl := Except.ok.inj h
    exact h'
  | cons raw raws ih =>
    obtain ⟨cell, hcell, h⟩ := bind_eq_ok_iff.mp h
    obtain ⟨rest, hrest, h⟩ := bind_eq_ok_iff.mp h
    obtain rfl := Except.ok.inj h
    rw [List.length_cons, Nat.add_comm raws.length, ← Nat.add_assoc] at h'
    exact bind_eq_ok_iff.mpr ⟨cell, hcell, bind_eq_ok_iff.mpr ⟨_, ih hrest h', rfl⟩⟩

/-- Cells are read with any number of the first row. -/
theorem readFrom_add {first : Nat} {raws : List (Option String)}
    (h : readFrom s c type first raws = .ok cells) (n : Nat) :
    readFrom s c type (n + first) raws = .ok (cells.map (renumber (n + ·))) := by
  induction raws generalizing first cells with
  | nil =>
    obtain rfl := Except.ok.inj h
    rfl
  | cons raw raws ih =>
    obtain ⟨cell, hcell, h⟩ := bind_eq_ok_iff.mp h
    obtain ⟨rest, hrest, h⟩ := bind_eq_ok_iff.mp h
    obtain rfl := Except.ok.inj h
    have hrow : cell.row = first :=
      congrArg Cell.row (Except.ok.inj (hcell.symm.trans (read_row hcell first)))
    refine bind_eq_ok_iff.mpr ⟨cell.renumber (n + ·), ?_, bind_eq_ok_iff.mpr ⟨_, ih hrest, rfl⟩⟩
    rw [read_row hcell, renumber, hrow]

/-- A value occurs in the whole as often as in both parts together. -/
theorem occurrences_join (cell : Cell) : occurrences (join n cells cells') cell
    = occurrences cells cell + occurrences cells' cell := by
  rw [occurrences, filter_join (p := fun d => !d.isNull && cell.sameKey d)
    (r := fun d => !d.isNull && cell.sameKey d) (fun _ _ => rfl) fun _ _ => rfl, length_join]
  rfl

theorem occurrences_le_left (cell : Cell) :
    occurrences cells cell ≤ occurrences (join n cells cells') cell := by
  rw [occurrences_join]
  exact Nat.le_add_right _ _

theorem occurrences_le_right (cell : Cell) :
    occurrences cells' cell ≤ occurrences (join n cells cells') cell := by
  rw [occurrences_join]
  exact Nat.le_add_left _ _

end Cell

namespace Engine

variable {e : Engine} {first second whole : Table} {column : String} {type : Option ValueType}
  {cells cells' : List Cell}

/-- **The cells of a column in two parts.** -/
theorem cells_join (hjoin : first.Joins second whole) (h : e.cells first column type = .ok cells)
    (h' : e.cells second column type = .ok cells') :
    e.cells whole column type = .ok (Cell.join first.rowCount cells cells') := by
  rw [Engine.cells, Cell.readColumn, hjoin.column_eq]
  refine Cell.readFrom_append h ?_
  have hlen : (first.column column).length = first.rowCount := List.length_map _
  rw [hlen, Nat.add_comm]
  exact Cell.readFrom_add h' _

end Engine

/-! ### Checks -/

namespace Check

variable {s : Settings} {c : Catalog} {column column' : List Cell} {cell : Cell} {check : Check}

/-- A check does not look at the number of a row. -/
theorem violation?_renumber (f : Nat → Nat) :
    check.violation? s c column (cell.renumber f) = check.violation? s c column cell := by
  cases check <;> rfl

/-- Every check but the one for uniqueness looks at its cell only. -/
theorem violation?_local (h : check ≠ .unique) :
    check.violation? s c column' cell = check.violation? s c column cell := by
  cases check with
  | unique => exact absurd rfl h
  | _ => rfl

/-- Where a value occurs at least as often, a check finds at least the violations that it found, and
the same ones if it is not the check for uniqueness. -/
theorem exists_violation?_of_le (hle : Cell.occurrences column cell ≤ Cell.occurrences column' cell)
    {v : Option Violation} (hv : check.violation? s c column cell = .ok v) :
    ∃ v', check.violation? s c column' cell = .ok v' ∧ (v.isSome = true → v'.isSome = true) ∧
      (check ≠ .unique → v' = v) := by
  by_cases h : check = .unique
  · subst h
    unfold violation? at hv ⊢
    split_ifs at hv ⊢
    · exact ⟨v, hv, id, fun _ => rfl⟩
    · obtain rfl := Except.ok.inj hv
      refine ⟨_, rfl, fun hsome => ?_, fun hne => absurd rfl hne⟩
      rw [demand] at hsome ⊢
      split at hsome
      · exact absurd hsome Bool.false_ne_true
      · rename_i hmany
        rw [decide_eq_true_eq] at hmany
        rw [if_neg (by rw [decide_eq_true_eq]; omega)]
        rfl
  · exact ⟨v, (violation?_local h).trans hv, id, fun _ => rfl⟩

/-- Cells that are checked in their parts are checked in the whole. -/
theorem exists_violation?_join {n : Nat} {cells cells' picked picked' : List Cell}
    (h : ∀ cell ∈ picked, ∃ v, check.violation? s c cells cell = .ok v)
    (h' : ∀ cell ∈ picked', ∃ v, check.violation? s c cells' cell = .ok v) :
    ∀ cell ∈ Cell.join n picked picked',
      ∃ v, check.violation? s c (Cell.join n cells cells') cell = .ok v := by
  refine Cell.forall_mem_join.mpr ⟨fun cell hcell => ?_, fun cell hcell => ?_⟩
  · obtain ⟨v, hv⟩ := h cell hcell
    obtain ⟨w, hw, -⟩ := exists_violation?_of_le (Cell.occurrences_le_left cell) hv
    exact ⟨w, hw⟩
  · obtain ⟨v, hv⟩ := h' cell hcell
    obtain ⟨w, hw, -⟩ := exists_violation?_of_le (Cell.occurrences_le_right cell) hv
    exact ⟨w, (violation?_renumber _).trans hw⟩

end Check

end TableRules
