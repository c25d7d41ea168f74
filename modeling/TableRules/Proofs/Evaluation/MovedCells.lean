import Mathlib.Data.List.FinRange
import TableRules.Proofs.Evaluation.Cells
import TableRules.Proofs.Report.MovedRows

/-!
# Cells of moved rows

`Table.permute` puts the rows of a table into another order. A column of the new table is read
exactly if the old one is, and its cells are the old ones with new row numbers
(`Engine.exists_cells_permute`).

A check looks at the other cells of a column only to count how often a value occurs. So it finds in
a moved cell what it finds in the cell itself (`CellsMoved.violation?_eq`).
-/

namespace TableRules

open Result

/-- Lists are permutations of each other if a permutation of the places takes each member of the
one to the same member of the other. -/
private theorem perm_of_getElem {α : Type} {n : Nat} {xs ys : List α} (σ : Equiv.Perm (Fin n))
    (hxs : xs.length = n) (hys : ys.length = n) (h : ∀ i : Fin n, ys[σ i] = xs[i]) :
    ys.Perm xs := by
  have hlist : ∀ zs : List α, ∀ hzs : zs.length = n, List.ofFn (fun i : Fin n => zs[i]) = zs :=
    fun zs hzs => List.ext_getElem (by rw [List.length_ofFn, hzs]) fun _ _ _ =>
      List.getElem_ofFn _
  have hcomp : (fun j : Fin n => ys[j]) ∘ σ = fun i : Fin n => xs[i] := funext h
  have hperm := Equiv.Perm.ofFn_comp_perm σ fun j : Fin n => ys[j]
  rw [hcomp, hlist xs hxs, hlist ys hys] at hperm
  exact hperm.symm

/-! ### Tables in another row order -/

namespace Table

variable {n : Nat} {t : Table}

/-- A table with its rows in another order: the row at place `i` comes to place `σ i`. -/
def permute (t : Table) (σ : Equiv.Perm (Fin t.rows.length)) : Table :=
  { t with rows := List.ofFn fun i => t.rows[σ.symm i] }

/-- The number of a row after it was moved; rows are numbered from one. -/
def movedRow (σ : Equiv.Perm (Fin n)) : Nat → Nat
  | 0 => 0
  | i + 1 => if h : i < n then σ ⟨i, h⟩ + 1 else i + 1

theorem movedRow_succ {σ : Equiv.Perm (Fin n)} {i : Nat} (h : i < n) :
    movedRow σ (i + 1) = σ ⟨i, h⟩ + 1 :=
  dif_pos h

variable {σ : Equiv.Perm (Fin t.rows.length)}

theorem length_rows_permute : (t.permute σ).rows.length = t.rows.length := List.length_ofFn

/-- The row at the place that a row is moved to is that row. -/
theorem rows_permute_getElem (i : Fin t.rows.length)
    (h : (σ i).val < (t.permute σ).rows.length) : (t.permute σ).rows[σ i] = t.rows[i] := by
  simp only [permute, Fin.getElem_fin, List.getElem_ofFn, Fin.eta, σ.symm_apply_apply]

/-- The rows of a permuted table are those of the table. -/
theorem rows_permute_perm : (t.permute σ).rows.Perm t.rows :=
  perm_of_getElem σ rfl length_rows_permute fun i => rows_permute_getElem i _

theorem column_permute_perm (c : String) : ((t.permute σ).column c).Perm (t.column c) :=
  rows_permute_perm.map _

end Table

/-! ### Cells with other row numbers -/

namespace Cell

/-- A cell with another row number. -/
def renumber (f : Nat → Nat) (c : Cell) : Cell := { c with row := f c.row }

variable {s : Settings} {c : Catalog} {type : Option ValueType} {row : Nat} {raw : Option String}
  {raws : List (Option String)} {cell : Cell}

/-- A cell is read in the same way in every row. -/
theorem read_row (h : read s c type row raw = .ok cell) (row' : Nat) :
    read s c type row' raw = .ok { cell with row := row' } := by
  unfold read at h ⊢
  cases type with
  | none =>
    obtain rfl := Except.ok.inj h
    rfl
  | some t =>
    obtain ⟨r, hr, rfl⟩ := map_eq_ok_iff.mp h
    exact map_eq_ok_iff.mpr ⟨r, hr, rfl⟩

/-- Cells that can be read one by one can be read as a column. -/
theorem exists_readFrom (h : ∀ raw ∈ raws, ∃ row cell, read s c type row raw = .ok cell)
    (first : Nat) : ∃ cells, readFrom s c type first raws = .ok cells := by
  induction raws generalizing first with
  | nil => exact ⟨[], rfl⟩
  | cons raw raws ih =>
    obtain ⟨⟨row, cell, hcell⟩, hrest⟩ := List.forall_mem_cons.mp h
    obtain ⟨cells, hcells⟩ := ih hrest (first + 1)
    exact ⟨_, bind_eq_ok_iff.mpr ⟨_, read_row hcell first,
      bind_eq_ok_iff.mpr ⟨cells, hcells, rfl⟩⟩⟩

end Cell

/-- Cells are others with new row numbers, in the order of the new numbers. -/
structure CellsMoved (f : Nat → Nat) (cells cells' : List Cell) : Prop where
  increasing : cells'.Pairwise fun c d => c.row < d.row
  perm : cells'.Perm (cells.map (Cell.renumber f))

namespace CellsMoved

variable {ε : Type} {f : Nat → Nat} {cells cells' kept : List Cell}

theorem length_eq (h : CellsMoved f cells cells') : cells'.length = cells.length := by
  rw [h.perm.length_eq, List.length_map]

theorem rows (h : CellsMoved f cells cells') :
    RowsMoved f (cells.map Cell.row) (cells'.map Cell.row) := by
  refine ⟨List.pairwise_map.mpr h.increasing, ?_⟩
  have hperm := h.perm.map Cell.row
  rw [List.map_map] at hperm ⊢
  exact hperm

theorem exists_of_mem (h : CellsMoved f cells cells') {cell' : Cell} (hcell : cell' ∈ cells') :
    ∃ cell ∈ cells, cell.renumber f = cell' :=
  List.mem_map.mp (h.perm.mem_iff.mp hcell)

/-- Tests that agree on a cell and on the moved cell keep moved cells. -/
theorem filter {p p' : Cell → Bool} (h : CellsMoved f cells cells')
    (hp : ∀ cell ∈ cells, p' (cell.renumber f) = p cell) :
    CellsMoved f (cells.filter p) (cells'.filter p') := by
  refine ⟨h.increasing.sublist List.filter_sublist, ?_⟩
  have hperm := h.perm.filter p'
  have htests : cells.filter (p' ∘ Cell.renumber f) = cells.filter p := List.filter_congr hp
  rwa [List.filter_map, htests] at hperm

/-- Tests that agree on a cell and on the moved cell, and may break off, keep moved cells. -/
theorem exists_filterM {p q : Cell → Except ε Bool}
    (h : CellsMoved f cells cells') (hp : ∀ cell ∈ cells, q (cell.renumber f) = p cell)
    (hkept : cells.filterM p = .ok kept) :
    ∃ kept', cells'.filterM q = .ok kept' ∧ CellsMoved f kept kept' := by
  have haccepts : ∀ cell ∈ cells, p cell = .ok (accepts (p cell)) := fun _ =>
    eq_ok_of_filterM_eq_ok hkept
  have haccepts' : ∀ cell' ∈ cells', q cell' = .ok (accepts (q cell')) := fun cell' hcell' => by
    obtain ⟨cell, hcell, rfl⟩ := h.exists_of_mem hcell'
    rw [hp cell hcell]
    exact haccepts cell hcell
  obtain rfl := Except.ok.inj ((filterM_eq_ok haccepts).symm.trans hkept)
  exact ⟨_, filterM_eq_ok haccepts', h.filter fun cell hcell => by rw [hp cell hcell]⟩

/-- A value occurs as often among moved cells. -/
theorem occurrences_eq (h : CellsMoved f cells cells') (cell : Cell) :
    Cell.occurrences cells' (cell.renumber f) = Cell.occurrences cells cell :=
  (h.filter (p := fun d => !d.isNull && cell.sameKey d) fun _ _ => rfl).length_eq

/-- A check finds the same in a moved cell. -/
theorem violation?_eq (h : CellsMoved f cells cells') (s : Settings) (c : Catalog) (check : Check)
    (cell : Cell) :
    check.violation? s c cells' (cell.renumber f) = check.violation? s c cells cell := by
  have hnull : check.nullViolation? (cell.renumber f) = check.nullViolation? cell := by
    cases check <;> rfl
  have hvalue : check.valueViolation? s c cells' (cell.renumber f)
      = check.valueViolation? s c cells cell := by
    cases check with
    | unique => rw [Check.valueViolation?, Check.valueViolation?, h.occurrences_eq]
    | _ => rfl
  rw [Check.violation?, Check.violation?, hnull, hvalue]
  rfl

end CellsMoved

/-! ### Columns of a permuted table -/

namespace Engine

variable {e : Engine} {table : Table} {column : String} {type : Option ValueType}
  {cells : List Cell}

/-- **The cells of a column move with their rows.** -/
theorem exists_cells_permute (σ : Equiv.Perm (Fin table.rows.length))
    (h : e.cells table column type = .ok cells) :
    ∃ cells', e.cells (table.permute σ) column type = .ok cells' ∧
      CellsMoved (Table.movedRow σ) cells cells' := by
  obtain ⟨hlen, hread⟩ := Cell.readFrom_eq_ok h
  have hrows : (table.column column).length = table.rows.length := List.length_map _
  obtain ⟨cells', hcells'⟩ : ∃ cells', e.cells (table.permute σ) column type = .ok cells' := by
    refine Cell.exists_readFrom (fun raw hraw => ?_) 1
    obtain ⟨i, hi, rfl⟩ := List.getElem_of_mem ((Table.column_permute_perm column).mem_iff.mp hraw)
    exact ⟨_, _, hread i (hlen ▸ hi) hi⟩
  obtain ⟨hlen', hread'⟩ := Cell.readFrom_eq_ok hcells'
  have hlength : cells.length = table.rows.length := hlen.trans hrows
  have hlength' : cells'.length = table.rows.length :=
    hlen'.trans ((List.length_map _).trans Table.length_rows_permute)
  refine ⟨cells', hcells', (Cell.showsColumn_of_cells hcells').increasing, ?_⟩
  refine perm_of_getElem σ ((List.length_map _).trans hlength) hlength' fun i => ?_
  -- the raw cell at the new place is the one at the old place, and is read with the new number
  have hi : i < (table.column column).length := i.isLt.trans_eq hrows.symm
  have hj : σ i < ((table.permute σ).column column).length :=
    (σ i).isLt.trans_eq (hlength'.symm.trans hlen')
  have hi' : i < cells.length := i.isLt.trans_eq hlength.symm
  have hcell := hread i hi' hi
  have hcell' := hread' (σ i) ((σ i).isLt.trans_eq hlength'.symm) hj
  have hraw : ((table.permute σ).column column)[(σ i).val] = (table.column column)[i.val] := by
    simp only [Table.column, List.getElem_map]
    exact congrArg (Row.cell · column) (Table.rows_permute_getElem i _)
  have hrow : cells[i].row = i + 1 := ((Cell.shows_getElem h).2 i hi' hi).1
  rw [hraw, Cell.read_row hcell] at hcell'
  calc cells'[σ i] = { cells[i] with row := 1 + σ i } := (Except.ok.inj hcell').symm
    _ = cells[i].renumber (Table.movedRow σ) := by
      rw [Cell.renumber, hrow, Table.movedRow_succ i.isLt, Nat.add_comm 1]
    _ = _ := (List.getElem_map _).symm

end Engine

end TableRules
