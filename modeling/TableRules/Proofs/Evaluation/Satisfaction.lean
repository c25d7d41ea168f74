import TableRules.Evaluation.Engine

/-!
# When a cell satisfies a constraint

The rules of a column speak about raw cells: texts that may be absent. `RawColumn` is a column of
raw cells with everything they are read with, and `RawColumn.Satisfies` says when the cell of a row
satisfies a constraint, in terms of the trimmed text of the cell, of what it coerces to, and of the
other cells of the column. Nothing here mentions checks, violations or the order in which a cell is
looked at.

* A comparison and a count of digits need a declared type; without one no cell satisfies them.
* A null cell satisfies the constraints that do not ask for a value (`Constraint.AcceptsNull`).
* Any other cell is judged by `RawColumn.Meets`.
-/

namespace TableRules

/-! ### Conditions on numbers, lengths and parts -/

/-- Two numbers are close when their distance is below the precision. -/
def Close (precision a b : Double) : Prop := (a.distance b).lt precision = true

/-- The relation that a comparison asks for between a number and its bound. Equality holds within
the precision, and a comparison that admits equality admits it in this sense. -/
def Comparison.Holds (precision a bound : Double) : Comparison → Prop
  | .equal => Close precision a bound
  | .notEqual => ¬ Close precision a bound
  | .greater => bound.lt a = true
  | .less => a.lt bound = true
  | .greaterOrEqual => bound.lt a = true ∨ Close precision a bound
  | .lessOrEqual => a.lt bound = true ∨ Close precision a bound

/-- The relation that a bound on a length asks for. -/
def LengthBound.Holds (length limit : Nat) : LengthBound → Prop
  | .exactly => length = limit
  | .atLeast => limit ≤ length
  | .atMost => length ≤ limit

/-- The relation that a condition on a part asks for: the part is a start, an end or a stretch of
the text, or no stretch of it. -/
def PartCondition.Holds (text piece : List Char) : PartCondition → Prop
  | .starts => piece <+: text
  | .ends => piece <:+ text
  | .includes => piece <:+: text
  | .excludes => ¬ piece <:+: text

namespace Constraint

/-- The constraints that compare or count digits, and so need a declared type. -/
def NeedsType : Constraint → Prop
  | .compare _ _ => True
  | .digits _ _ => True
  | _ => False

/-- The constraints that a null cell satisfies. -/
def AcceptsNull : Constraint → Prop
  | .null => True
  | .hasType _ => True
  | .hasFormat _ => True
  | .unique => True
  | _ => False

end Constraint

/-! ### Raw columns -/

/-- The raw cells of a column, row by row, and what they are read with. -/
structure RawColumn where
  settings : Settings
  catalog : Catalog
  type : Option ValueType
  cells : List (Option String)

namespace RawColumn

/-- The raw cells of a column of a table, as an engine reads them with a type. -/
def ofTable (e : Engine) (table : Table) (column : String) (type : Option ValueType) : RawColumn :=
  ⟨e.settings, e.catalog, type, table.column column⟩

/-- The trimmed text of a raw cell; an absent cell has the empty text. -/
def trimmed (raw : Option String) : String := Text.trim (raw.getD "")

variable (col : RawColumn)

/-- A row, counted from one, has a raw cell. -/
def HasCell (row : Nat) (raw : Option String) : Prop := ∃ i, row = i + 1 ∧ col.cells[i]? = some raw

/-- A raw cell is null when it is absent, empty after trimming, or a null value after trimming. -/
def IsNull (raw : Option String) : Prop :=
  raw = none ∨ trimmed raw = "" ∨ trimmed raw ∈ col.settings.nullValues

/-- A raw cell coerces to a type, with a typed value. -/
def CoercesTo (raw : Option String) (t : ValueType) (v : TypedValue) : Prop :=
  coerce raw t col.settings col.catalog = .ok (.value v)

/-- The typed key of a raw cell: its value under the declared type, and the date format that read
it. -/
def HasTypedKey (raw : Option String) (x : Value) (format : Option String) : Prop :=
  ∃ t v, col.type = some t ∧ col.CoercesTo raw t v ∧ v.value = some x ∧ v.format = format

/-- Two raw cells have the same key: equal typed keys, or no typed keys and equal texts. -/
def SameKey (a b : Option String) : Prop :=
  (∃ x y format, col.HasTypedKey a x format ∧ col.HasTypedKey b y format ∧ x.equal y = true) ∨
    (¬ ∃ x format, col.HasTypedKey a x format) ∧ (¬ ∃ y format, col.HasTypedKey b y format) ∧
      trimmed a = trimmed b

/-- A raw cell is read as a real number: it coerces to the declared type, which is a type of real
numbers, with some normalized text and value. -/
def ReadsReal (raw : Option String) (text : String) (x : Value) : Prop :=
  ∃ t v, col.type = some t ∧ t.isReal = true ∧ col.CoercesTo raw t v ∧ v.value = some x ∧
    v.text = text

/-- The number that a raw cell is compared as: its real number as a double. -/
def HasNumber (raw : Option String) (a : Double) : Prop :=
  ∃ text x, col.ReadsReal raw text x ∧ x.toDouble = .ok a

/-- The number that a raw cell stands for among the members of a set: the one it is compared as, or
else its text read as a floating-point number. -/
def HasSetNumber (raw : Option String) (a : Double) : Prop :=
  col.HasNumber raw a ∨
    (¬ ∃ text x, col.ReadsReal raw text x) ∧ parseReal? (trimmed raw) col.settings = some a

/-- A raw cell is a member of a set: its text is one of the texts, or its number is close to one of
the numbers. -/
def InSet (raw : Option String) (items : List SetItem) : Prop :=
  (∃ w, .text w ∈ items ∧ w.value = trimmed raw) ∨
    ∃ n b a, .number n ∈ items ∧ n.toDouble? = some b ∧ col.HasSetNumber raw a ∧
      Close col.settings.precision a b

/-- What a constraint asks of the cell of a row that is not null. -/
def Meets (row : Nat) (raw : Option String) : Constraint → Prop
  | .hasType t => ∃ v, col.CoercesTo raw t v
  | .hasFormat w =>
    ∃ f d, col.catalog.get? w.value = some f ∧ f.parse? (trimmed raw) = some d
  | .required => True
  | .notNull => True
  | .null => False
  | .unique =>
    ∀ row' raw', col.HasCell row' raw' → row' ≠ row → ¬ col.IsNull raw' → ¬ col.SameKey raw raw'
  | .pattern p => p.matchesText (trimmed raw) = true
  | .member allowed items => col.InSet raw items ↔ allowed = true
  | .text equal w => trimmed raw = w.value ↔ equal = true
  | .compare op n =>
    ∃ a b, col.HasNumber raw a ∧ n.toDouble? = some b ∧ op.Holds col.settings.precision a b
  | .length bound limit => bound.Holds (trimmed raw).length limit
  | .part condition w => condition.Holds (trimmed raw).toList w.value.toList
  | .digits kind count =>
    ∃ text x d, col.ReadsReal raw text x ∧ DigitCount.ofText text = .ok d ∧
      Check.digitCount kind d = count

/-- The cell of a row satisfies a constraint. -/
def Satisfies (row : Nat) (raw : Option String) (c : Constraint) : Prop :=
  ¬ (c.NeedsType ∧ col.type = none) ∧
    ((col.IsNull raw ∧ c.AcceptsNull) ∨ (¬ col.IsNull raw ∧ col.Meets row raw c))

end RawColumn

end TableRules
