import Mathlib.Data.List.Pairwise
import Mathlib.Data.List.Perm.Subperm
import TableRules.Proofs.Evaluation.Satisfaction
import TableRules.Proofs.Value.Coerced

/-!
# Cells read from a column

Reading a column (`Engine.cells`) gives one cell for each raw cell, numbered from one. A cell
**shows** a raw cell when it has the trimmed text of the raw cell, is null exactly when the raw cell
is, and holds the reading under the declared type (`Cell.Shows`). `Cell.ShowsColumn` collects what
later proofs use of a whole column: its cells show its raw cells, with strictly increasing rows.
-/

namespace TableRules

namespace RawColumn

variable {col : RawColumn}

theorem isNull_iff {raw : Option String} : isNull raw col.settings = true ↔ col.IsNull raw := by
  cases raw with
  | none => simp [isNull, IsNull]
  | some s => simp [isNull, IsNull, trimmed, String.isEmpty_iff]

/-- A row has at most one raw cell. -/
theorem HasCell.unique {row : Nat} {raw raw' : Option String} (h : col.HasCell row raw)
    (h' : col.HasCell row raw') : raw = raw' := by
  obtain ⟨i, rfl, hi⟩ := h
  obtain ⟨j, hj, hj'⟩ := h'
  obtain rfl : i = j := by omega
  exact Option.some.inj (hi.symm.trans hj')

/-- A raw cell has at most one typed key. -/
theorem HasTypedKey.unique {raw : Option String} {x y : Value} {f g : Option String}
    (h : col.HasTypedKey raw x f) (h' : col.HasTypedKey raw y g) : x = y ∧ f = g := by
  obtain ⟨t, v, ht, hv, hx, hf⟩ := h
  obtain ⟨t', v', ht', hv', hy, hg⟩ := h'
  obtain rfl := Option.some.inj (ht.symm.trans ht')
  obtain rfl := Reading.value.inj (Except.ok.inj (hv.symm.trans hv'))
  exact ⟨Option.some.inj (hx.symm.trans hy), hf.symm.trans hg⟩

/-- A raw cell is read as at most one real number. -/
theorem ReadsReal.unique {raw : Option String} {text text' : String} {x y : Value}
    (h : col.ReadsReal raw text x) (h' : col.ReadsReal raw text' y) : x = y := by
  obtain ⟨t, v, ht, -, hv, hx, -⟩ := h
  obtain ⟨t', v', ht', -, hv', hy, -⟩ := h'
  obtain rfl := Option.some.inj (ht.symm.trans ht')
  obtain rfl := Reading.value.inj (Except.ok.inj (hv.symm.trans hv'))
  exact Option.some.inj (hx.symm.trans hy)

/-- A raw cell is compared as at most one number. -/
theorem HasNumber.unique {raw : Option String} {a b : Double} (ha : col.HasNumber raw a)
    (hb : col.HasNumber raw b) : a = b := by
  obtain ⟨_, x, hx, ha⟩ := ha
  obtain ⟨_, y, hy, hb⟩ := hb
  obtain rfl := hx.unique hy
  exact Except.ok.inj (ha.symm.trans hb)

/-- The value of a typed key equals itself. -/
theorem HasTypedKey.equal_self {raw : Option String} {x : Value} {f : Option String}
    (h : col.HasTypedKey raw x f) : x.equal x = true := by
  obtain ⟨t, v, -, hv, hx, -⟩ := h
  rcases coerce_eq_value_iff.mp hv with ⟨-, rfl⟩ | ⟨-, hc⟩
  · simp [TypedValue.null] at hx
  · exact hc.equal_self hx

/-- A raw cell has the same key as itself. -/
theorem sameKey_self (raw : Option String) : col.SameKey raw raw := by
  by_cases h : ∃ x f, col.HasTypedKey raw x f
  · obtain ⟨x, f, hx⟩ := h
    exact .inl ⟨x, x, f, hx, hx, hx.equal_self⟩
  · exact .inr ⟨h, h, rfl⟩

end RawColumn

namespace Cell

/-! ### Cells and raw cells -/

/-- A cell shows a raw cell of a column. -/
structure Shows (col : RawColumn) (raw : Option String) (cell : Cell) : Prop where
  raw_eq : cell.raw = raw
  text_eq : cell.text = RawColumn.trimmed raw
  isNull_iff : cell.isNull = true ↔ col.IsNull raw
  reading_iff (r : Reading) :
    cell.reading = some r ↔ ∃ t, col.type = some t ∧ coerce raw t col.settings col.catalog = .ok r

/-- The cells of a column show its raw cells, in increasing rows. -/
structure ShowsColumn (col : RawColumn) (cells : List Cell) : Prop where
  length_eq : cells.length = col.cells.length
  increasing : cells.Pairwise fun c d => c.row < d.row
  shows {cell : Cell} : cell ∈ cells → ∃ raw, col.HasCell cell.row raw ∧ cell.Shows col raw
  exists_cell {row : Nat} {raw : Option String} :
    col.HasCell row raw → ∃ cell ∈ cells, cell.row = row ∧ cell.Shows col raw

variable {col : RawColumn} {raw raw' : Option String} {cell cell' : Cell}

/-- Cells of a column in the same row are the same. -/
theorem ShowsColumn.eq_of_row_eq {cells : List Cell} (h : ShowsColumn col cells)
    (hc : cell ∈ cells) (hc' : cell' ∈ cells) (hrow : cell.row = cell'.row) : cell = cell' := by
  -- rows are strictly increasing, so different cells stand in different rows
  by_contra hne
  have hrows : cells.Pairwise fun c d => c.row ≠ d.row := h.increasing.imp Nat.ne_of_lt
  have : Std.Symm fun c d : Cell => c.row ≠ d.row := ⟨fun _ _ hcd => hcd.symm⟩
  exact hrows.forall hc hc' hne hrow

theorem shows_of_read {row : Nat}
    (h : read col.settings col.catalog col.type row raw = .ok cell) :
    cell.row = row ∧ cell.Shows col raw := by
  unfold read at h
  split at h
  · rename_i ht
    obtain rfl := Except.ok.inj h
    exact ⟨rfl, rfl, rfl, RawColumn.isNull_iff, by simp [ht]⟩
  · rename_i t ht
    obtain ⟨r, hr, rfl⟩ := Result.map_eq_ok_iff.mp h
    exact ⟨rfl, rfl, rfl, RawColumn.isNull_iff, by simp [ht, hr]⟩

/-- Reading numbers the cells one after another. -/
theorem readFrom_eq_ok {s : Settings} {c : Catalog} {type : Option ValueType} {first : Nat}
    {raws : List (Option String)} {cells : List Cell}
    (h : readFrom s c type first raws = .ok cells) :
    cells.length = raws.length ∧ ∀ i (hi : i < cells.length) (hi' : i < raws.length),
      read s c type (first + i) raws[i] = .ok cells[i] := by
  -- on the raw cells, for every number of the first row
  induction raws generalizing first cells with
  | nil =>
    obtain rfl := Except.ok.inj h
    simp
  | cons raw raws ih =>
    obtain ⟨cell, hcell, h⟩ := Result.bind_eq_ok_iff.mp h
    obtain ⟨rest, hrest, h⟩ := Result.bind_eq_ok_iff.mp h
    obtain rfl := Except.ok.inj h
    obtain ⟨hlen, hread⟩ := ih hrest
    refine ⟨by simp [hlen], fun i hi hi' => ?_⟩
    cases i with
    | zero => exact hcell
    | succ i =>
      have := hread i (by simpa using hi) (by simpa using hi')
      rwa [show first + 1 + i = first + (i + 1) by omega] at this

/-- Reading a column numbers its cells from one, and each shows the raw cell at its place. -/
theorem shows_getElem {e : Engine} {table : Table} {column : String} {type : Option ValueType}
    {cells : List Cell} (h : e.cells table column type = .ok cells) :
    cells.length = (table.column column).length ∧
      ∀ i (hi : i < cells.length) (hi' : i < (table.column column).length),
        cells[i].row = i + 1 ∧
          cells[i].Shows (.ofTable e table column type) (table.column column)[i] := by
  obtain ⟨hlen, hread⟩ := readFrom_eq_ok h
  refine ⟨hlen, fun i hi hi' => ?_⟩
  obtain ⟨hrow, hs⟩ : cells[i].row = 1 + i ∧
      cells[i].Shows (.ofTable e table column type) (table.column column)[i] :=
    shows_of_read (hread i hi hi')
  exact ⟨hrow.trans (Nat.add_comm 1 i), hs⟩

/-- Reading a column shows its raw cells. -/
theorem showsColumn_of_cells {e : Engine} {table : Table} {column : String}
    {type : Option ValueType} {cells : List Cell}
    (h : e.cells table column type = .ok cells) :
    ShowsColumn (.ofTable e table column type) cells := by
  set col := RawColumn.ofTable e table column type with hcol
  obtain ⟨hlen, hshows⟩ : cells.length = col.cells.length ∧
      ∀ i (hi : i < cells.length) (hi' : i < col.cells.length),
        cells[i].row = i + 1 ∧ cells[i].Shows col col.cells[i] := shows_getElem h
  refine ⟨hlen, ?_, ?_, ?_⟩
  · refine List.pairwise_iff_getElem.mpr fun i j hi hj hij => ?_
    rw [(hshows i hi (hlen ▸ hi)).1, (hshows j hj (hlen ▸ hj)).1]
    omega
  · intro cell hcell
    obtain ⟨i, hi, rfl⟩ := List.getElem_of_mem hcell
    have hi' : i < col.cells.length := hlen ▸ hi
    exact ⟨col.cells[i], ⟨i, (hshows i hi hi').1, List.getElem?_eq_getElem hi'⟩,
      (hshows i hi hi').2⟩
  · rintro row raw ⟨i, rfl, hraw⟩
    obtain ⟨hi', rfl⟩ := List.getElem?_eq_some_iff.mp hraw
    have hi : i < cells.length := hlen ▸ hi'
    exact ⟨cells[i], List.getElem_mem hi, (hshows i hi hi').1, (hshows i hi hi').2⟩

/-! ### Readings and keys -/

/-- A cell was read as a value exactly when its raw cell coerces to the declared type. -/
theorem Shows.reading_value_iff (h : cell.Shows col raw) {v : TypedValue} :
    cell.reading = some (.value v) ↔ ∃ t, col.type = some t ∧ col.CoercesTo raw t v :=
  h.reading_iff (.value v)

theorem typed?_eq_some_iff {v : TypedValue} :
    cell.typed? = some v ↔ cell.reading = some (.value v) := by
  unfold typed?
  rcases cell.reading with _ | ⟨w⟩ | ⟨m⟩ <;> simp [Reading.value?]

theorem Shows.valueKey?_eq_some_iff (h : cell.Shows col raw) {x : Value} {f : Option String} :
    cell.valueKey? = some (x, f) ↔ col.HasTypedKey raw x f := by
  simp only [valueKey?, Option.bind_eq_some_iff, typed?_eq_some_iff, h.reading_value_iff,
    Option.map_eq_some_iff, Prod.mk.injEq, RawColumn.HasTypedKey]
  constructor
  · rintro ⟨v, ⟨t, ht, hv⟩, y, hy, rfl, rfl⟩
    exact ⟨t, v, ht, hv, hy, rfl⟩
  · rintro ⟨t, v, ht, hv, hx, hf⟩
    exact ⟨v, ⟨t, ht, hv⟩, x, hx, rfl, hf⟩

theorem Shows.valueKey?_eq_none_iff (h : cell.Shows col raw) :
    cell.valueKey? = none ↔ ¬ ∃ x f, col.HasTypedKey raw x f := by
  rw [Option.eq_none_iff_forall_ne_some]
  constructor
  · rintro hne ⟨x, f, hx⟩
    exact hne (x, f) (h.valueKey?_eq_some_iff.mpr hx)
  · rintro hne ⟨x, f⟩ hx
    exact hne ⟨x, f, h.valueKey?_eq_some_iff.mp hx⟩

/-- Cells have the same key exactly when their raw cells do. -/
theorem Shows.sameKey_iff (h : cell.Shows col raw) (h' : cell'.Shows col raw') :
    cell.sameKey cell' = true ↔ col.SameKey raw raw' := by
  -- by which of the two cells have a typed key; a cell that has one never equals one that has none
  unfold sameKey RawColumn.SameKey
  rcases hk : cell.valueKey? with _ | ⟨x, f⟩ <;> rcases hk' : cell'.valueKey? with _ | ⟨y, g⟩
  · have hn := h.valueKey?_eq_none_iff.mp hk
    have hn' := h'.valueKey?_eq_none_iff.mp hk'
    simp only [h.text_eq, h'.text_eq, beq_iff_eq]
    exact ⟨fun heq => .inr ⟨hn, hn', heq⟩, fun hs => hs.elim
      (fun ⟨x, _, f, hx, _⟩ => absurd ⟨x, f, hx⟩ hn) fun hs => hs.2.2⟩
  · have hn := h.valueKey?_eq_none_iff.mp hk
    have hy := h'.valueKey?_eq_some_iff.mp hk'
    simp only [Bool.false_eq_true, false_iff]
    rintro (⟨x, _, f, hx, -⟩ | ⟨-, hn', -⟩)
    · exact hn ⟨x, f, hx⟩
    · exact hn' ⟨y, g, hy⟩
  · have hx := h.valueKey?_eq_some_iff.mp hk
    have hn' := h'.valueKey?_eq_none_iff.mp hk'
    simp only [Bool.false_eq_true, false_iff]
    rintro (⟨_, y, g, -, hy, -⟩ | ⟨hn, -, -⟩)
    · exact hn' ⟨y, g, hy⟩
    · exact hn ⟨x, f, hx⟩
  · have hx := h.valueKey?_eq_some_iff.mp hk
    have hy := h'.valueKey?_eq_some_iff.mp hk'
    simp only [Bool.and_eq_true, beq_iff_eq]
    constructor
    · rintro ⟨heq, rfl⟩
      exact .inl ⟨x, y, f, hx, hy, heq⟩
    · rintro (⟨x', y', f', hx', hy', heq⟩ | ⟨hn, -, -⟩)
      · obtain ⟨rfl, rfl⟩ := hx.unique hx'
        obtain ⟨rfl, rfl⟩ := hy.unique hy'
        exact ⟨heq, rfl⟩
      · exact absurd ⟨x, f, hx⟩ hn

end Cell

end TableRules
