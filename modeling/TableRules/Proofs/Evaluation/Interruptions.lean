import TableRules.Evaluation.Run
import TableRules.Proofs.Evaluation.RuleOutcomes
import TableRules.Proofs.Number.LargeIntegers
import TableRules.Proofs.RulesText.Arguments

/-!
# Where checking breaks off

Reading and checking cells breaks off at integers that are too large, and at nothing else.

* `RawColumn.IsOverlong`: a cell with more digits than an integer may have. Reading a column breaks
  off exactly at such a cell, and only if the cells are read as integers (`Engine.cells_eq_error`,
  `Engine.exists_cells_iff`).
* `Cell.ExceedsDoubles`: a cell that was read as an integer beyond the doubles. Checking a cell
  breaks off at such a cell only, and only if the constraint compares it with numbers
  (`Check.violation?_eq_error`).
-/

namespace TableRules

open Result Lexeme

/-! ### Overlong cells -/

namespace RawColumn

/-- A raw cell is overlong: it is not null, and as a normalized number it is an optional sign and
more than 4300 digits. -/
def IsOverlong (col : RawColumn) (raw : Option String) : Prop :=
  ¬ col.IsNull raw ∧ ∃ sign ds, IsOptionalSign sign ∧ IsDigits ds ∧
    (normalizeNumber (trimmed raw) col.settings).toList = sign ++ ds ∧ 4300 < ds.length

end RawColumn

/-- A number is not read exactly if it is an integer with too many digits. -/
theorem readNumber_eq_error_iff {t : ValueType} {cs : List Char} {fault : NumberFault} :
    readNumber t cs = .error fault ↔ fault = .tooManyDigits ∧ t = .integer ∧
      ∃ negative ds, readInteger? cs = some (negative, ds) ∧ digitLimit < ds.length := by
  cases t with
  | integer =>
    rw [readNumber]
    rcases readInteger? cs with _ | ⟨negative, ds⟩
    · simp
    · by_cases hlimit : digitLimit < ds.length
      · simp [hlimit, eq_comm]
      · simp [hlimit]
  | _ => simp [readNumber]

/-- A text breaks off coercion exactly if reading it as a number does. -/
private theorem coerceText_eq_error_iff {text : String} {t : ValueType} {s : Settings} {c : Catalog}
    {fault : NumberFault} :
    coerceText text t s c = .error fault ↔
      readNumber t (normalizeChars s (Text.trimChars text.toList)) = .error fault := by
  cases t with
  | string => simp [coerceText, readNumber]
  | boolean =>
    rw [coerceText]
    split <;> simp [readNumber]
  | dateTime =>
    rw [coerceText]
    split <;> simp [readNumber]
  | _ => simp only [coerceText, parseNumber, map_eq_error_iff]

/-- **Coercion breaks off** exactly at overlong cells that are read as integers. -/
theorem coerce_eq_error_iff {col : RawColumn} {raw : Option String} {t : ValueType}
    {fault : NumberFault} :
    coerce raw t col.settings col.catalog = .error fault ↔
      fault = .tooManyDigits ∧ t = .integer ∧ col.IsOverlong raw := by
  have hcoerce : coerce raw t col.settings col.catalog = .error fault ↔ ¬ col.IsNull raw ∧
      coerceText (RawColumn.trimmed raw) t col.settings col.catalog = .error fault := by
    rw [coerce, ← RawColumn.isNull_iff]
    split_ifs with hnull
    · simp [hnull]
    · exact (and_iff_right hnull).symm
  -- a trimmed text is not trimmed further
  have htrim : Text.trimChars (RawColumn.trimmed raw).toList = (RawColumn.trimmed raw).toList :=
    Text.trim_eq_self_iff.mp (Text.trim_trim _)
  have hnormalize : normalizeChars col.settings (Text.trimChars (RawColumn.trimmed raw).toList)
      = (normalizeNumber (RawColumn.trimmed raw) col.settings).toList := by
    rw [htrim, normalizeNumber, String.toList_ofList]
  rw [hcoerce, coerceText_eq_error_iff, readNumber_eq_error_iff, hnormalize,
    RawColumn.IsOverlong]
  simp only [readInteger?_eq_some_iff]
  constructor
  · rintro ⟨hn, hfault, ht, negative, ds, ⟨sign, hsign, hds, hcs, -⟩, hlimit⟩
    exact ⟨hfault, ht, hn, sign, ds, hsign, hds, hcs, hlimit⟩
  · rintro ⟨hfault, ht, hn, sign, ds, hsign, hds, hcs, hlimit⟩
    exact ⟨hn, hfault, ht, _, ds, ⟨sign, hsign, hds, hcs, rfl⟩, hlimit⟩

/-- Reading cells breaks off at one of them. -/
theorem Cell.readFrom_eq_error {s : Settings} {c : Catalog} {type : Option ValueType} {first : Nat}
    {raws : List (Option String)} {fault : NumberFault}
    (h : readFrom s c type first raws = .error fault) :
    ∃ t, type = some t ∧ ∃ raw ∈ raws, coerce raw t s c = .error fault := by
  induction raws generalizing first with
  | nil => cases h
  | cons raw raws ih =>
    rcases bind_eq_error_iff.mp h with hread | ⟨cell, -, hrest⟩
    · unfold read at hread
      split at hread
      · simp at hread
      · rename_i t
        exact ⟨t, rfl, raw, List.mem_cons_self, map_eq_error_iff.mp hread⟩
    · rcases bind_eq_error_iff.mp hrest with hrest | ⟨cells, -, hpure⟩
      · obtain ⟨t, ht, raw', hraw', hcoerce⟩ := ih hrest
        exact ⟨t, ht, raw', List.mem_cons_of_mem raw hraw', hcoerce⟩
      · cases hpure

/-- **Reading a column** breaks off only if its cells are read as integers and one is overlong. -/
theorem Engine.cells_eq_error {e : Engine} {table : Table} {column : String}
    {type : Option ValueType} {fault : NumberFault}
    (h : e.cells table column type = .error fault) :
    fault = .tooManyDigits ∧ type = some .integer ∧
      ∃ raw ∈ table.column column, (RawColumn.ofTable e table column type).IsOverlong raw := by
  obtain ⟨t, rfl, raw, hraw, hcoerce⟩ := Cell.readFrom_eq_error h
  obtain ⟨hfault, rfl, hlong⟩ :=
    (@coerce_eq_error_iff (.ofTable e table column (some t)) _ _ _).mp hcoerce
  exact ⟨hfault, rfl, raw, hraw, hlong⟩

/-- **A column can be read** unless its cells are read as integers and one is overlong. -/
theorem Engine.exists_cells_iff {e : Engine} {table : Table} {column : String}
    {type : Option ValueType} :
    (∃ cells, e.cells table column type = .ok cells) ↔
      ¬ (type = some .integer ∧
        ∃ raw ∈ table.column column, (RawColumn.ofTable e table column type).IsOverlong raw) := by
  constructor
  · rintro ⟨cells, hcells⟩ ⟨rfl, raw, hraw, hlong⟩
    obtain ⟨hlen, hread⟩ := Cell.readFrom_eq_ok hcells
    obtain ⟨i, hi, rfl⟩ := List.getElem_of_mem hraw
    obtain ⟨r, hr, -⟩ := map_eq_ok_iff.mp (hread i (hlen ▸ hi) hi)
    have hrefused := coerce_eq_error_iff.mpr ⟨rfl, rfl, hlong⟩
    exact absurd (hr.symm.trans hrefused) (by simp)
  · intro h
    cases hcells : e.cells table column type with
    | ok cells => exact ⟨cells, rfl⟩
    | error fault => exact absurd (Engine.cells_eq_error hcells).2 h

/-! ### Integers beyond the doubles -/

/-- A cell was read as an integer that exceeds the doubles. -/
def Cell.ExceedsDoubles (cell : Cell) : Prop :=
  ∃ v n, cell.typed? = some v ∧ v.type = .integer ∧ v.value = some (.integer n) ∧
    TableRules.ExceedsDoubles n

/-- A constraint compares cells with numbers: it is a comparison, or a set with a number. -/
def Constraint.ComparesNumbers : Constraint → Prop
  | .compare _ _ => True
  | .member _ items => ∃ n, .number n ∈ items
  | _ => False

private theorem Value.toDouble_integer {n : Int} :
    (Value.integer n).toDouble = (Double.ofInt? n).elim (.error .tooLarge) .ok := by
  -- both definitions are opened as functions: once applied, the double would be computed
  obtain ⟨f, hf⟩ : ∃ f, f = toDouble := ⟨_, rfl⟩
  obtain ⟨g, hg⟩ : ∃ g, g = Double.ofInt? := ⟨_, rfl⟩
  rw [← hf, ← hg]
  delta toDouble at hf
  rw [← hg] at hf
  subst hf
  cases h : g n <;> simp [h]

/-- A value has no double only if it is an integer that exceeds the doubles. -/
theorem Value.toDouble_eq_error {x : Value} {fault : NumberFault}
    (h : x.toDouble = .error fault) :
    fault = .tooLarge ∧ ∃ n, x = .integer n ∧ ExceedsDoubles n := by
  cases x with
  | integer n =>
    rw [toDouble_integer] at h
    cases hn : Double.ofInt? n with
    | none =>
      rw [hn] at h
      exact ⟨(Except.error.inj h).symm, n, rfl, Double.ofInt?_eq_none_iff.mp hn⟩
    | some x => simp [hn] at h
  | _ => cases h

/-- Only integers are read as integers. -/
theorem Coerced.type_eq_integer {s : Settings} {c : Catalog} {text : String} {t : ValueType}
    {v : TypedValue} {n : Int} (h : Coerced s c text t v) (hv : v.value = some (.integer n)) :
    v.type = .integer := by
  cases h with
  | number t x hread =>
    obtain rfl := Option.some.inj hv
    cases numberOf_of_readNumber hread
    rfl
  | _ => simp at hv

theorem type_eq_integer_of_coerce {raw : Option String} {s : Settings} {c : Catalog} {t : ValueType}
    {v : TypedValue} {n : Int} (h : coerce raw t s c = .ok (.value v))
    (hv : v.value = some (.integer n)) : v.type = .integer := by
  rcases coerce_eq_value_iff.mp h with ⟨-, rfl⟩ | ⟨-, hc⟩
  · simp [TypedValue.null] at hv
  · exact hc.type_eq_integer hv

namespace Check

variable {col : RawColumn} {raw : Option String} {cell : Cell} {fault : NumberFault}

/-- Where the value of a cell has no double, the cell exceeds the doubles. -/
private theorem exceedsDoubles_of_toDouble (hs : cell.Shows col raw) {v : TypedValue} {x : Value}
    (hv : cell.reading = some (.value v)) (hx : v.value = some x)
    (h : x.toDouble = .error fault) : fault = .tooLarge ∧ cell.ExceedsDoubles := by
  obtain ⟨hfault, n, rfl, hn⟩ := Value.toDouble_eq_error h
  obtain ⟨t, -, hcoerce⟩ := hs.reading_value_iff.mp hv
  exact ⟨hfault, v, n, Cell.typed?_eq_some_iff.mpr hv, type_eq_integer_of_coerce hcoerce hx, hx, hn⟩

/-- A check of a real number breaks off only at a value of the cell. -/
private theorem onReal_eq_error {f : TypedValue → Value → Except NumberFault (Option Violation)}
    (h : onReal cell f = .error fault) :
    ∃ v x, cell.reading = some (.value v) ∧ v.value = some x ∧ f v x = .error fault := by
  obtain ⟨v, hv⟩ | ⟨v, x, hv, hreal, hx⟩ := onReal_cases cell
  · simp [hv] at h
  · exact ⟨v, x, hv, hx, (onReal_of_value hv hreal hx f).symm.trans h⟩

/-- Membership in a set is left open only where the set has a number and the value of the cell has
no double. -/
private theorem isMember_eq_error {texts : List String} {numbers : List Double}
    (h : isMember col.settings texts numbers cell = .error fault) :
    numbers ≠ [] ∧ ∃ v x, cell.reading = some (.value v) ∧ v.value = some x ∧
      x.toDouble = .error fault := by
  unfold isMember at h
  split_ifs at h with htext hempty
  refine ⟨fun hnil => hempty (List.isEmpty_iff.mpr hnil), ?_⟩
  replace h := map_eq_error_iff.mp h
  obtain ⟨v, x, hv, -, hx, hnumber⟩ | ⟨-, hnumber⟩ := setNumber_cases col.settings cell
  · exact ⟨v, x, Cell.typed?_eq_some_iff.mp hv, hx, map_eq_error_iff.mp (hnumber.symm.trans h)⟩
  · simp [hnumber] at h

/-- **Checking a cell** breaks off only if the constraint compares cells with numbers and the cell
exceeds the doubles. A check for a type reads the cell anew, which the cells of a column of that
type allow. -/
theorem violation?_eq_error {cells : List Cell} {c : Constraint} {check : Check}
    (hs : cell.Shows col raw) (hcheck : ofConstraint col.catalog c = .ok check)
    (htype : ∀ t, c = .hasType t → ∃ r, coerce raw t col.settings col.catalog = .ok r)
    (h : check.violation? col.settings col.catalog cells cell = .error fault) :
    fault = .tooLarge ∧ c.ComparesNumbers ∧ cell.ExceedsDoubles := by
  rw [violation?] at h
  split_ifs at h
  cases c with
  | hasType t =>
    obtain rfl := Except.ok.inj hcheck
    obtain ⟨r, hr⟩ := htype t rfl
    rw [valueViolation?, typeViolation?, hs.raw_eq, map_eq_error_iff, hr] at h
    simp at h
  | hasFormat w =>
    rw [ofConstraint] at hcheck
    split at hcheck
    · obtain rfl := Except.ok.inj hcheck
      simp [valueViolation?] at h
    · simp at hcheck
  | member allowed items =>
    obtain ⟨numbers, hnumbers, rfl⟩ := map_eq_ok_iff.mp hcheck
    rw [valueViolation?, map_eq_error_iff] at h
    obtain ⟨hne, v, x, hv, hx, hdouble⟩ := isMember_eq_error h
    obtain ⟨hfault, hexceeds⟩ := exceedsDoubles_of_toDouble hs hv hx hdouble
    -- the numbers of the check are those of the set
    have hitems : itemNumbers items ≠ [] := by
      intro hnil
      rw [hnil, mapM_eq_ok_iff, List.forall₂_nil_left_iff] at hnumbers
      exact hne hnumbers
    obtain ⟨n, hn⟩ := List.exists_mem_of_ne_nil _ hitems
    exact ⟨hfault, ⟨n, mem_itemNumbers_iff.mp hn⟩, hexceeds⟩
  | compare op n =>
    obtain ⟨b, -, rfl⟩ := map_eq_ok_iff.mp hcheck
    obtain ⟨v, x, hv, hx, hdouble⟩ := onReal_eq_error h
    obtain ⟨hfault, hexceeds⟩ := exceedsDoubles_of_toDouble hs hv hx (map_eq_error_iff.mp hdouble)
    exact ⟨hfault, trivial, hexceeds⟩
  | digits kind n =>
    obtain rfl := Except.ok.inj hcheck
    obtain ⟨v, x, -, -, hok⟩ := onReal_eq_error h
    cases hok
  | _ =>
    obtain rfl := Except.ok.inj hcheck
    simp [valueViolation?] at h

end Check

/-! ### Engines -/

namespace Engine

/-- An engine reads a column of a table with a type: for the block of the column, or for a clause of
a conditional rule whose columns are in the table. -/
inductive Reads (e : Engine) (table : Table) : String → Option ValueType → Prop
  | block {b : Block} (hb : b ∈ e.presentBlocks table) : Reads e table b.column b.valueType
  | clause {c : Conditional} {clause : Clause} (hc : c ∈ e.ruleset.conditionals)
      (hpresent : absentColumns table c = []) (hclause : clause ∈ c.clauses) :
      Reads e table clause.column (e.clauseType clause)

/-- An engine tests a cell by a rule: by the rules of a block every cell of its column, by a
condition every cell of its column, and by a consequence the cells of the rows that fulfil the
condition. -/
inductive Tests (e : Engine) (table : Table) : Rule → Cell → Prop
  | block {b : Block} {rule : Rule} {cells : List Cell} {cell : Cell}
      (hb : b ∈ e.presentBlocks table) (hrule : rule ∈ b.rules)
      (hcells : e.cells table b.column b.valueType = .ok cells) (hcell : cell ∈ cells) :
      Tests e table rule cell
  | antecedent {c : Conditional} {cells : List Cell} {cell : Cell}
      (hc : c ∈ e.ruleset.conditionals) (hpresent : absentColumns table c = [])
      (hcells : e.cells table c.antecedent.column (e.clauseType c.antecedent) = .ok cells)
      (hcell : cell ∈ cells) : Tests e table c.antecedent.rule cell
  | consequent {c : Conditional} {cells : List Cell} {cell : Cell} {rows : List Nat}
      (hc : c ∈ e.ruleset.conditionals) (hpresent : absentColumns table c = [])
      (hrows : e.antecedentRows table c.antecedent = .ok rows)
      (hcells : e.cells table c.consequent.column (e.clauseType c.consequent) = .ok cells)
      (hcell : cell ∈ cells) (hrow : cell.row ∈ rows) : Tests e table c.consequent.rule cell

/-- What interrupts an engine: a cell that is read as an integer is overlong, or a cell that a rule
tests by comparing it with numbers exceeds the doubles. -/
inductive Interrupts (e : Engine) (table : Table) : NumberFault → Prop
  | overlong {column : String} {raw : Option String}
      (hreads : e.Reads table column (some .integer)) (hraw : raw ∈ table.column column)
      (hlong : (RawColumn.ofTable e table column (some .integer)).IsOverlong raw) :
      Interrupts e table .tooManyDigits
  | tooLarge {rule : Rule} {cell : Cell} (htests : e.Tests table rule cell)
      (hrule : rule.constraint.ComparesNumbers) (hcell : cell.ExceedsDoubles) :
      Interrupts e table .tooLarge

end Engine

end TableRules
