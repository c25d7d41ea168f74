import TableRules.Proofs.Evaluation.RuleOutcomes
import TableRules.Proofs.Value.MirroredTexts

/-!
# Points and commas mirror each other

A column of numbers may be written with commas between groups of digits, or with its points and
commas exchanged under settings for that (`Settings.mirrored`). Its **numeric rules**
(`Constraint.IsNumeric`) ask for a numeric type, for values, for null cells, for no repetition, and
for numbers: by comparison, by their digits, or as members of a set of numbers. Each of them finds
the same violations in both: what is read of a cell differs at most in the text of a misfit, and the
texts of two cells are equal exactly when the mirrored texts are (`Cell.mirrored`).

* `Engine.evaluateColumn_mirrored`: the outcome of a block of numeric rules is the same for both, up
  to the messages, which quote the texts.
-/

namespace TableRules

open Result

/-! ### Numeric rules -/

/-- A constraint on numbers: it concerns no text of a cell but as a number. -/
def Constraint.IsNumeric : Constraint → Prop
  | .hasType t => t.isNumeric = true
  | .required | .notNull | .null | .unique | .compare _ _ | .digits _ _ => True
  | .member _ items => ∀ item ∈ items, ∃ n, item = .number n
  | _ => False

/-- A check of a constraint on numbers. -/
def Check.IsNumeric : Check → Prop
  | .ofType t => t.isNumeric = true
  | .present | .null | .unique | .compare _ _ | .digits _ _ => True
  | .member _ texts _ => texts = []
  | _ => False

theorem Check.isNumeric_of_ofConstraint {catalog : Catalog} {c : Constraint} {check : Check}
    (hc : c.IsNumeric) (h : ofConstraint catalog c = .ok check) : check.IsNumeric := by
  cases c with
  | hasType t => exact Except.ok.inj h ▸ hc
  | member allowed items =>
    obtain ⟨numbers, -, rfl⟩ := map_eq_ok_iff.mp h
    refine List.filterMap_eq_nil_iff.mpr fun item hitem => ?_
    obtain ⟨n, rfl⟩ := hc item hitem
    rfl
  | compare op n =>
    obtain ⟨x, -, rfl⟩ := map_eq_ok_iff.mp h
    trivial
  | required => exact Except.ok.inj h ▸ trivial
  | notNull => exact Except.ok.inj h ▸ trivial
  | null => exact Except.ok.inj h ▸ trivial
  | unique => exact Except.ok.inj h ▸ trivial
  | digits kind n => exact Except.ok.inj h ▸ trivial
  | _ => exact hc.elim

/-! ### Cells -/

namespace Cell

/-- The cell of the mirrored text. -/
def mirrored (c : Cell) : Cell :=
  { c with
    raw := c.raw.map mirror
    text := mirror c.text
    reading := c.reading.map Reading.mirrored }

variable {s : Settings} {c : Catalog} {t : ValueType}

/-- **Reading a mirrored text** gives the mirrored cell. -/
theorem read_mirrored (hsep : s.separator = some .comma) (ht : t.isNumeric = true) (row : Nat)
    (raw : Option String) :
    read s.mirrored c (some t) row (raw.map mirror) = (read s c (some t) row raw).map mirrored := by
  rw [read, read, coerce_mirror hsep ht, isNull_mirror, trim_getD_mirror]
  cases coerce raw t s c <;> rfl

theorem readFrom_mirrored (hsep : s.separator = some .comma) (ht : t.isNumeric = true) (row : Nat)
    (raws : List (Option String)) :
    readFrom s.mirrored c (some t) row (raws.map (Option.map mirror))
      = (readFrom s c (some t) row raws).map (List.map mirrored) := by
  induction raws generalizing row with
  | nil => rfl
  | cons raw raws ih =>
    rw [List.map_cons, readFrom, readFrom, read_mirrored hsep ht, ih]
    cases read s c (some t) row raw with
    | error e => rfl
    | ok cell => cases readFrom s c (some t) (row + 1) raws <;> rfl

/-- A mirrored cell has the value of the cell. -/
@[simp]
theorem typed?_mirrored (cell : Cell) : cell.mirrored.typed? = cell.typed? := by
  rw [typed?, typed?, mirrored]
  rcases cell.reading with _ | _ | _ <;> rfl

theorem sameKey_mirrored (cell cell' : Cell) :
    cell.mirrored.sameKey cell'.mirrored = cell.sameKey cell' := by
  have htext : (cell.mirrored.text == cell'.mirrored.text) = (cell.text == cell'.text) := by
    rw [Bool.eq_iff_iff, beq_iff_eq, beq_iff_eq]
    exact mirror_inj
  simp only [sameKey, valueKey?, typed?_mirrored, htext]

/-- A mirrored cell occurs as often among mirrored cells. -/
theorem occurrences_mirrored (column : List Cell) (cell : Cell) :
    occurrences (column.map mirrored) cell.mirrored = occurrences column cell := by
  rw [occurrences, occurrences, List.filter_map, List.length_map]
  refine congrArg List.length (List.filter_congr fun other _ => ?_)
  rw [Function.comp_apply, sameKey_mirrored]
  rfl

end Cell

/-! ### Checks -/

namespace Check

variable {s : Settings} {c : Catalog} {check : Check}

/-- A real number is the same in a mirrored cell. -/
private theorem onReal_mirrored (cell : Cell)
    (f : TypedValue → Value → Except NumberFault (Option Violation)) :
    onReal cell.mirrored f = onReal cell f := by
  rw [onReal, onReal, Cell.mirrored]
  rcases cell.reading with _ | _ | _ <;> rfl

private theorem isMember_mirrored (hsep : s.separator = some .comma) (numbers : List Double)
    (cell : Cell) :
    isMember s.mirrored [] numbers cell.mirrored = isMember s [] numbers cell := by
  have hnumber : setNumber s.mirrored cell.mirrored = setNumber s cell := by
    have htext : parseReal? cell.mirrored.text s.mirrored = parseReal? cell.text s :=
      parseReal?_mirror hsep cell.text
    rw [setNumber, setNumber, Cell.typed?_mirrored, htext]
  rw [isMember, isMember, hnumber]
  rfl

/-- **A numeric check** finds the same violation in a mirrored cell. -/
theorem violation?_mirrored (hsep : s.separator = some .comma) (hcheck : check.IsNumeric)
    (column : List Cell) (cell : Cell) :
    check.violation? s.mirrored c (column.map Cell.mirrored) cell.mirrored
      = check.violation? s c column cell := by
  have hnull : check.nullViolation? cell.mirrored = check.nullViolation? cell := by
    cases check with
    | present =>
      rw [nullViolation?, nullViolation?, Cell.mirrored, isEmpty_mirror]
    | _ => rfl
  have hvalue : check.valueViolation? s.mirrored c (column.map Cell.mirrored) cell.mirrored
      = check.valueViolation? s c column cell := by
    cases check with
    | ofType t =>
      rw [valueViolation?, valueViolation?, typeViolation?, typeViolation?, Cell.mirrored,
        coerce_mirror hsep hcheck]
      rcases coerce cell.raw t s c with _ | _ | _ <;> rfl
    | present => rfl
    | null => rfl
    | unique => rw [valueViolation?, valueViolation?, Cell.occurrences_mirrored]
    | member allowed texts numbers =>
      obtain rfl : texts = [] := hcheck
      rw [valueViolation?, valueViolation?, isMember_mirrored hsep]
    | compare op bound =>
      rw [valueViolation?, valueViolation?, onReal_mirrored]
      rfl
    | digits kind n => rw [valueViolation?, valueViolation?, onReal_mirrored]
    | _ => exact hcheck.elim
  rw [violation?, violation?, hnull, hvalue]
  rfl

end Check

/-! ### Tables -/

/-- A row with the texts of a column mirrored. -/
def Row.mirrored (column : String) (row : Row) : Row :=
  row.map fun e => (e.1, if e.1 = column then e.2.map mirror else e.2)

theorem Row.cell_mirrored (column : String) (row : Row) :
    (row.mirrored column).cell column = (row.cell column).map mirror := by
  rw [Row.cell, Row.cell, mirrored, ← List.map_reverse, List.find?_map]
  change (((row.reverse.find? fun e => e.1 == column).map _).map _).join = _
  cases hentry : row.reverse.find? fun e => e.1 == column with
  | none => rfl
  | some entry =>
    have hcolumn : entry.1 = column := by simpa using List.find?_some hentry
    simp [hcolumn]

/-- A table with the texts of a column mirrored. -/
def Table.mirrored (column : String) (table : Table) : Table :=
  { table with rows := table.rows.map (Row.mirrored column) }

theorem Table.column_mirrored (table : Table) (column : String) :
    (table.mirrored column).column column = (table.column column).map (Option.map mirror) := by
  rw [Table.column, Table.column, mirrored, List.map_map, List.map_map]
  exact List.map_congr_left fun row _ => row.cell_mirrored column

/-! ### Outcomes -/

/-- The outcome of a rule without its messages. -/
def RuleOutcome.verdict (o : RuleOutcome) : RuleOutcome := { o with messages := [] }

/-- The outcome of a column without the messages. -/
def ColumnOutcome.verdict (o : ColumnOutcome) : ColumnOutcome :=
  { o with rules := o.rules.map RuleOutcome.verdict }

namespace Engine

/-- The engine for mirrored texts. -/
def mirrored (e : Engine) : Engine :=
  { e with ruleset := { e.ruleset with settings := e.ruleset.settings.mirrored } }

variable {e : Engine} {cells : List Cell} {rule : Rule}

theorem violations_mirrored (hsep : e.settings.separator = some .comma) {check : Check}
    (hcheck : check.IsNumeric) :
    e.mirrored.violations check (cells.map Cell.mirrored) = e.violations check cells := by
  rw [violations, violations, List.mapM_map]
  exact mapM_congr fun cell _ => Check.violation?_mirrored hsep hcheck cells cell

/-- The same violations in mirrored cells have the same verdict. -/
theorem verdict_ruleOutcome_mirrored (phrase : String) (found : List (Option Violation)) :
    (ruleOutcome rule phrase (cells.map Cell.mirrored) found).verdict
      = (ruleOutcome rule phrase cells found).verdict := by
  have hrows : (failures (cells.map Cell.mirrored) found).map (·.1)
      = (failures cells found).map (·.1) := by
    rw [failures, failures, List.zip_map_left, List.filterMap_map, List.map_filterMap,
      List.map_filterMap]
    refine List.filterMap_congr fun p _ => ?_
    obtain ⟨cell, _ | v⟩ := p <;> rfl
  have hlen : (failures (cells.map Cell.mirrored) found).length
      = (failures cells found).length := by
    simpa using congrArg List.length hrows
  rw [RuleOutcome.verdict, RuleOutcome.verdict, ruleOutcome, ruleOutcome]
  simp only [hrows, hlen, List.length_map]

/-- **A numeric rule** has the same verdict on mirrored cells. -/
theorem evaluateRule_mirrored (hsep : e.settings.separator = some .comma)
    (hrule : rule.constraint.IsNumeric) (typed : Bool) :
    (e.mirrored.evaluateRule (cells.map Cell.mirrored) typed rule).map RuleOutcome.verdict
      = (e.evaluateRule cells typed rule).map RuleOutcome.verdict := by
  have hcheck : e.mirrored.check rule = e.check rule := rfl
  rw [evaluateRule, evaluateRule, hcheck]
  cases h : e.check rule with
  | error fault => simp only [bind, Except.bind, Except.map]
  | ok check =>
    simp only [bind, Except.bind]
    cases rule.describe? with
    | none => rfl
    | some phrase =>
      simp only [violations_mirrored hsep (Check.isNumeric_of_ofConstraint hrule h)]
      split_ifs
      · simp [untypedOutcome, Except.map, RuleOutcome.verdict, pure, Except.pure, Cell.mirrored]
      · cases ofNumber (e.violations check cells) with
        | error fault => rfl
        | ok found => exact congrArg Except.ok (verdict_ruleOutcome_mirrored phrase found)

/-- A column whose cells cannot be read has no outcome. -/
theorem evaluateColumn_of_error {table : Table} {b : Block} {fault : NumberFault}
    (h : e.cells table b.column b.valueType = .error fault) :
    e.evaluateColumn table b = .error (.number fault) := by
  rw [evaluateColumn, h]
  rfl

/-- The verdict of a column consists of the verdicts of its rules. -/
theorem verdict_evaluateColumn {table : Table} {b : Block}
    (h : e.cells table b.column b.valueType = .ok cells) :
    (e.evaluateColumn table b).map ColumnOutcome.verdict
      = ((b.rules.mapM (e.evaluateRule cells b.valueType.isSome)).map
          (List.map RuleOutcome.verdict)).map
            fun rules => ⟨b.column, rules, (cells.filter Cell.isNull).length⟩ := by
  rw [evaluateColumn, h]
  change Except.map _ (b.rules.mapM _ >>= _) = _
  cases b.rules.mapM (e.evaluateRule cells b.valueType.isSome) <;> rfl

theorem cells_mirrored {t : ValueType} (hsep : e.settings.separator = some .comma)
    (ht : t.isNumeric = true) (table : Table) (column : String) :
    e.mirrored.cells (table.mirrored column) column (some t)
      = (e.cells table column (some t)).map (List.map Cell.mirrored) := by
  rw [cells, cells, Cell.readColumn, Cell.readColumn, Table.column_mirrored]
  exact Cell.readFrom_mirrored hsep ht 1 _

/-- **Points and commas mirror each other.** Where commas separate groups of digits, a text is read
as a number, with the same normalized text, exactly as the mirrored text is under the mirrored
settings. The evaluation of a block of numeric rules comes to the same fault, or to the same outcome
up to the messages, for a table and for the table with the texts of the column mirrored. -/
theorem evaluateColumn_mirrored (e : Engine) (table : Table) (b : Block) {t : ValueType}
    (hsep : e.settings.separator = some .comma) (htype : b.valueType = some t)
    (ht : t.isNumeric = true) (hrules : ∀ rule ∈ b.rules, rule.constraint.IsNumeric) :
    (∀ text t', parseNumber (mirror text) e.settings.mirrored t'
        = parseNumber text e.settings t') ∧
      (e.mirrored.evaluateColumn (table.mirrored b.column) b).map ColumnOutcome.verdict
        = (e.evaluateColumn table b).map ColumnOutcome.verdict := by
  refine ⟨parseNumber_mirror hsep, ?_⟩
  have hcells := cells_mirrored hsep ht table b.column
  rw [← htype] at hcells
  cases h : e.cells table b.column b.valueType with
  | error fault =>
    rw [h] at hcells
    rw [evaluateColumn_of_error h, evaluateColumn_of_error hcells]
  | ok cells =>
    rw [h] at hcells
    have hnull : ((cells.map Cell.mirrored).filter Cell.isNull).length
        = (cells.filter Cell.isNull).length := by
      rw [List.filter_map, List.length_map]
      rfl
    rw [verdict_evaluateColumn h, verdict_evaluateColumn hcells, hnull,
      map_mapM_congr fun rule hrule => evaluateRule_mirrored hsep (hrules rule hrule) _]

/-! #### Prices with commas

A price with a comma, the same price without it, a word that stands for no value, a price with its
marks in the wrong order, which does not fail to be a number, and a text that does. -/

/-- Rules of each kind for prices. -/
def priceBlock : Block :=
  ⟨"price", [⟨.hasType .floatingPoint, some 2⟩, ⟨.required, some 3⟩, ⟨.unique, some 4⟩,
    ⟨.compare .greater (.integer 100), some 5⟩, ⟨.digits .decimalPlaces 1, some 6⟩,
    ⟨.member true [.number (.real (Double.ofDecimal false 12345 (-1)))], some 7⟩]⟩

/-- An engine with this block. -/
def priceEngine : Engine :=
  ⟨⟨{ Settings.standard with nullValues := ["n.a."], separator := some .comma },
    ⟨["price"], false, false, false⟩, [priceBlock], [], none, by decide,
    List.nodup_nil⟩, .standard, 1⟩

/-- Five rows of prices. -/
def priceTable : Table :=
  ⟨["price"], [[("price", some "1,234.5")], [("price", some "1234.5")], [("price", some "n.a.")],
    [("price", some "1.5,0")], [("price", some "1.234.5")]], none⟩

/-- The rows that fail the rules for prices. -/
def priceVerdict : ColumnOutcome :=
  { column := "price"
    rules := [
      ⟨"has value type floating point", "type_is", some 2, 4, [5], [], none⟩,
      ⟨"is required", "required", some 3, 4, [3], [], none⟩,
      ⟨"is unique", "unique", some 4, 3, [1, 2], [], none⟩,
      ⟨"is > 100", "greater_than", some 5, 2, [3, 4, 5], [], none⟩,
      ⟨"has decimal places 1", "decimal_places", some 6, 2, [3, 4, 5], [], none⟩,
      ⟨"is in [1234.5]", "in_set", some 7, 2, [3, 4, 5], [], none⟩]
    missingValues := 1 }

/-- The prices fail the same rules with their points and commas exchanged. -/
theorem priceTable_mirrored :
    (priceTable.mirrored "price").column "price"
        = [some "1.234,5", some "1234,5", some "n,a,", some "1,5.0", some "1,234,5"] ∧
      priceEngine.settings.separator = some .comma ∧
      priceBlock.valueType = some .floatingPoint ∧
      ValueType.floatingPoint.isNumeric = true ∧
      (∀ rule ∈ priceBlock.rules, rule.constraint.IsNumeric) ∧
      (∀ text t, parseNumber (mirror text) priceEngine.settings.mirrored t
        = parseNumber text priceEngine.settings t) ∧
      (priceEngine.evaluateColumn priceTable priceBlock).map ColumnOutcome.verdict
        = .ok priceVerdict ∧
      (priceEngine.mirrored.evaluateColumn (priceTable.mirrored "price") priceBlock).map
        ColumnOutcome.verdict = .ok priceVerdict := by
  have hrules : ∀ rule ∈ priceBlock.rules, rule.constraint.IsNumeric := by
    simp [priceBlock, Constraint.IsNumeric, ValueType.isNumeric]
  have hrun : (priceEngine.evaluateColumn priceTable priceBlock).map ColumnOutcome.verdict
      = .ok priceVerdict := by
    decide +kernel
  obtain ⟨hparse, hmirrored⟩ :=
    evaluateColumn_mirrored priceEngine priceTable priceBlock rfl rfl rfl hrules
  exact ⟨by decide, rfl, rfl, rfl, hrules, hparse, hrun, hmirrored.trans hrun⟩

end Engine

end TableRules
