import TableRules.Proofs.Evaluation.Reports
import TableRules.Proofs.Text.Trimming

/-!
# Surrounding white space and the spelling of emptiness do not matter

A rule sees a cell in three ways: by its raw text, by its trimmed text and by its reading. The type
check even reads the raw text anew. Still, a raw cell counts only by its trimmed text
(`RawColumn.trimmed`), which an absent cell has as well. So a cell may be exchanged for the one
whose raw text is its trimmed text (`Cell.trimmed`); each function of the evaluation has a lemma
that says so. Tables with the same trimmed texts (`Table.SameTexts`) have the same cells after the
exchange, and so the same report (`Engine.evaluate_sameTexts`).

**Main result** (`Engine.evaluate_trimmed`): trimming all cells of a table, with the empty text for
those that are absent, does not change what its validation comes to, and neither does padding cells
with white space.
-/

namespace TableRules

open Result

/-! ### Reading a trimmed text -/

namespace RawColumn

variable {raw : Option String}

/-- A trimmed text is null exactly when the raw cell is. -/
theorem isNull_trimmed (raw : Option String) (s : Settings) :
    isNull (some (trimmed raw)) s = isNull raw s := by
  cases raw with
  | none => rfl
  | some text =>
    rw [isNull, isNull]
    simp only [trimmed, Option.getD_some, Text.trim_trim]

theorem trimmed_trimmed (raw : Option String) : trimmed (some (trimmed raw)) = trimmed raw :=
  Text.trim_trim _

/-- A trimmed text is read as the raw cell is. -/
theorem coerce_trimmed (raw : Option String) (t : ValueType) (s : Settings) (c : Catalog) :
    coerce (some (trimmed raw)) t s c = coerce raw t s c := by
  rw [coerce, coerce, isNull_trimmed]
  change (if _ then _ else coerceText (trimmed (some (trimmed raw))) t s c) = _
  rw [trimmed_trimmed]
  rfl

end RawColumn

namespace Cell

/-- A cell with its text in place of its raw text. -/
def trimmed (c : Cell) : Cell := { c with raw := some c.text }

variable {s : Settings} {c : Catalog} {type : Option ValueType}

theorem read_trimmed (row : Nat) (raw : Option String) :
    read s c type row (some (RawColumn.trimmed raw)) = (read s c type row raw).map trimmed := by
  cases type with
  | none =>
    refine congrArg Except.ok ?_
    rw [Cell.mk.injEq, RawColumn.isNull_trimmed]
    exact ⟨rfl, rfl, RawColumn.trimmed_trimmed raw, rfl, rfl⟩
  | some t =>
    rw [read, read, RawColumn.coerce_trimmed, RawColumn.isNull_trimmed]
    cases coerce raw t s c with
    | error e => rfl
    | ok r =>
      refine congrArg Except.ok ?_
      rw [Cell.mk.injEq]
      exact ⟨rfl, rfl, RawColumn.trimmed_trimmed raw, rfl, rfl⟩

/-- Reading trimmed texts gives the cells of the raw texts, trimmed. -/
theorem readFrom_trimmed (row : Nat) (raws : List (Option String)) :
    readFrom s c type row (raws.map fun raw => some (RawColumn.trimmed raw))
      = (readFrom s c type row raws).map (List.map trimmed) := by
  induction raws generalizing row with
  | nil => rfl
  | cons raw raws ih =>
    rw [List.map_cons, readFrom, readFrom, read_trimmed, ih]
    cases read s c type row raw with
    | error e => rfl
    | ok cell => cases readFrom s c type (row + 1) raws <;> rfl

/-- A cell with its text in place of its raw text occurs as often. -/
theorem occurrences_trimmed (column : List Cell) (cell : Cell) :
    occurrences (column.map trimmed) cell.trimmed = occurrences column cell := by
  rw [occurrences, occurrences, List.filter_map, List.length_map]
  rfl

end Cell

namespace Check

variable {s : Settings} {c : Catalog} {cell : Cell}

/-- A check finds the same in a cell that has its text in place of its raw text. -/
theorem violation?_trimmed (h : cell.text = RawColumn.trimmed cell.raw) (check : Check)
    (column : List Cell) :
    check.violation? s c (column.map Cell.trimmed) cell.trimmed
      = check.violation? s c column cell := by
  have hnull : check.nullViolation? cell.trimmed = check.nullViolation? cell := by
    cases check <;> rfl
  have hvalue : check.valueViolation? s c (column.map Cell.trimmed) cell.trimmed
      = check.valueViolation? s c column cell := by
    cases check with
    | ofType t =>
      -- the one check that goes back to the raw text
      rw [valueViolation?, valueViolation?, typeViolation?, typeViolation?]
      change (coerce (some cell.text) t s c).map _ = _
      rw [h, RawColumn.coerce_trimmed]
    | unique => rw [valueViolation?, valueViolation?, Cell.occurrences_trimmed]
    | _ => rfl
  rw [violation?, violation?, hnull, hvalue]
  rfl

end Check

/-! ### Tables with the same texts -/

namespace Table

/-- The trimmed texts of a column. -/
def texts (t : Table) (column : String) : List (Option String) :=
  (t.column column).map fun raw => some (RawColumn.trimmed raw)

/-- Two tables differ at most in the white space around their texts and in the spelling of
emptiness. -/
structure SameTexts (table table' : Table) : Prop where
  header : table'.header = table.header
  source : table'.source = table.source
  rows : List.Forall₂ (fun row row' : Row => ∀ column ∈ table.header,
    RawColumn.trimmed (row'.cell column) = RawColumn.trimmed (row.cell column))
    table.rows table'.rows

variable {table table' : Table}

namespace SameTexts

theorem hasColumn_eq (h : table.SameTexts table') (column : String) :
    table'.hasColumn column = table.hasColumn column := by
  rw [hasColumn, hasColumn, h.header]

theorem rowCount_eq (h : table.SameTexts table') : table'.rowCount = table.rowCount :=
  h.rows.length_eq.symm

theorem texts_eq (h : table.SameTexts table') {column : String} (hcolumn : column ∈ table.header) :
    table'.texts column = table.texts column := by
  rw [texts, texts, Table.column, Table.column, List.map_map, List.map_map]
  exact map_eq_of_forall₂ (h.rows.imp fun _ _ hrow => congrArg some (hrow column hcolumn))

end SameTexts

end Table

/-! #### Trimming a table -/

/-- A row with its texts trimmed. An entry without a text gets the empty one, and so does every
column of the header that the row has no entry for. -/
def Row.trimmed (header : List String) (row : Row) : Row :=
  ((header.filter fun column => !row.any fun e => e.1 == column).map fun column =>
    (column, some "")) ++ row.map fun e => (e.1, some (RawColumn.trimmed e.2))

/-- Each cell of a trimmed row has the trimmed text for its raw text. -/
theorem Row.cell_trimmed {header : List String} {row : Row} {column : String}
    (h : column ∈ header) :
    (row.trimmed header).cell column = some (RawColumn.trimmed (row.cell column)) := by
  rw [Row.cell, Row.cell, Row.trimmed, List.reverse_append, List.find?_append, ← List.map_reverse,
    List.find?_map]
  change (((row.reverse.find? fun e => e.1 == column).map _).or _ |>.map _).join = _
  cases hentry : row.reverse.find? fun e => e.1 == column with
  | some entry => rfl
  | none =>
    -- the row has no entry for the column, so one with the empty text was put in front of it
    have hlacks : (!row.any fun e => e.1 == column) = true := by
      simpa using List.find?_eq_none.mp hentry
    have hput : (column, some "") ∈ ((header.filter fun column =>
        !row.any fun e => e.1 == column).map fun column => (column, some "")).reverse :=
      List.mem_reverse.mpr (List.mem_map.mpr ⟨column, List.mem_filter.mpr ⟨h, hlacks⟩, rfl⟩)
    obtain ⟨entry, hfound⟩ := Option.isSome_iff_exists.mp
      (List.find?_isSome (p := fun e => e.1 == column).mpr ⟨_, hput, beq_self_eq_true column⟩)
    obtain ⟨_, -, rfl⟩ := List.mem_map.mp (List.mem_reverse.mp (List.mem_of_find?_eq_some hfound))
    rw [Option.map_none, Option.none_or, hfound]
    rfl

/-- A table with all cells trimmed. -/
def Table.trimmed (t : Table) : Table := { t with rows := t.rows.map (Row.trimmed t.header) }

theorem Table.sameTexts_trimmed (t : Table) : t.SameTexts t.trimmed := by
  refine ⟨rfl, rfl, ?_⟩
  rw [trimmed, List.forall₂_map_right_iff, List.forall₂_same]
  intro row _ column hcolumn
  rw [Row.cell_trimmed hcolumn, RawColumn.trimmed_trimmed]

/-! #### Padding a table -/

/-- A raw cell has the text of another with white space put around it. An absent cell counts as one
with the empty text. -/
def RawColumn.Padded (raw raw' : Option String) : Prop :=
  ∃ before after : List Char, (∀ c ∈ before ++ after, Text.isBlank c = true) ∧
    (raw'.getD "").toList = before ++ (raw.getD "").toList ++ after

theorem RawColumn.Padded.trimmed_eq {raw raw' : Option String} (h : Padded raw raw') :
    trimmed raw' = trimmed raw := by
  obtain ⟨before, after, hblank, htext⟩ := h
  obtain ⟨hbefore, hafter⟩ := List.forall_mem_append.mp hblank
  rw [trimmed, trimmed, Text.trim, Text.trim, htext,
    Text.trimChars_append_append hbefore hafter]

/-- A table whose cells are those of a table, padded. -/
structure Table.Padded (table padded : Table) : Prop where
  header : padded.header = table.header
  source : padded.source = table.source
  rows : List.Forall₂ (fun row row' : Row => ∀ column ∈ table.header,
    RawColumn.Padded (row.cell column) (row'.cell column)) table.rows padded.rows

theorem Table.Padded.sameTexts {table padded : Table} (h : table.Padded padded) :
    table.SameTexts padded :=
  ⟨h.header, h.source, h.rows.imp fun _ _ hrow column hcolumn => (hrow column hcolumn).trimmed_eq⟩

/-! ### Assemblies -/

namespace Assembly

variable {t : Table}

/-- An assembly with another table. -/
def withTable (t : Table) (a : Assembly) : Assembly := { a with table := t }

theorem recordColumn_withTable (a : Assembly) (o : ColumnOutcome) :
    (a.withTable t).recordColumn o = (a.recordColumn o).map (withTable t) := by
  unfold recordColumn
  split <;> rename_i hany <;> simp only [withTable] at hany <;> simp [hany, Except.map, withTable]

theorem recordConditional_withTable (a : Assembly) (o : ConditionalOutcome) :
    (a.withTable t).recordConditional o = (a.recordConditional o).map (withTable t) := by
  unfold recordConditional
  split <;> rename_i hany <;> simp only [withTable] at hany <;> simp [hany, Except.map, withTable]

/-- A report says of its table only what tables with the same texts have in common. -/
theorem build_withTable {t' : Table} (h : t.SameTexts t') (a : Assembly) :
    (a.withTable t').build = (a.withTable t).build := by
  simp only [build, allFindings, summary, withTable, tableLine, Table.columnCount, h.rowCount_eq,
    h.header, h.source]

end Assembly

namespace Engine

variable {e : Engine} {table table' : Table} {cells : List Cell} {rule : Rule}

/-! ### What an evaluation reads of cells -/

section Trimmed

variable (hcells : ∀ cell ∈ cells, cell.text = RawColumn.trimmed cell.raw)
include hcells

theorem violations_trimmed (check : Check) :
    e.violations check (cells.map Cell.trimmed) = e.violations check cells := by
  rw [violations, List.mapM_map]
  exact mapM_congr fun cell hcell => Check.violation?_trimmed (hcells cell hcell) check cells

theorem evaluateRule_trimmed (typed : Bool) (rule : Rule) :
    e.evaluateRule (cells.map Cell.trimmed) typed rule = e.evaluateRule cells typed rule := by
  have huntyped : ∀ phrase, untypedOutcome rule phrase (cells.map Cell.trimmed)
      = untypedOutcome rule phrase cells := fun phrase => by
    rw [untypedOutcome, List.map_map, List.map_map]
    rfl
  have houtcome : ∀ phrase found, ruleOutcome rule phrase (cells.map Cell.trimmed) found
      = ruleOutcome rule phrase cells found := fun phrase found => by
    rw [ruleOutcome, failures, List.zip_map_left, List.filterMap_map, List.length_map]
    rfl
  simp only [evaluateRule, violations_trimmed hcells, huntyped, houtcome]

theorem fulfils_trimmed (check : Check) {cell : Cell} (hcell : cell ∈ cells) :
    e.fulfils rule check (cells.map Cell.trimmed) cell.trimmed
      = e.fulfils rule check cells cell := by
  rw [fulfils, fulfils, Check.violation?_trimmed (hcells cell hcell)]
  rfl

theorem matchedRows_trimmed (check : Check) :
    e.matchedRows rule check (cells.map Cell.trimmed) = e.matchedRows rule check cells := by
  rw [matchedRows, matchedRows, filterM_map fun cell hcell => fulfils_trimmed hcells check hcell]
  cases cells.filterM (e.fulfils rule check cells) with
  | error _ => rfl
  | ok matched => exact congrArg Except.ok List.map_map

theorem failsAt_trimmed (check : Check) (row : Nat) :
    e.failsAt check (cells.map Cell.trimmed) row = e.failsAt check cells row := by
  have hlookup : cellAt? (cells.map Cell.trimmed) row = (cellAt? cells row).map Cell.trimmed := by
    unfold cellAt?
    split_ifs
    · exact List.getLast?_map
    · exact List.getElem?_map
  rw [failsAt, failsAt, hlookup]
  cases hcell : cellAt? cells row with
  | none => rfl
  | some cell =>
    have hviolation := Check.violation?_trimmed (s := e.settings) (c := e.catalog)
      (hcells cell (mem_of_cellAt? hcell)) check cells
    exact congrArg (fun v => ofNumber (Except.map Option.isSome v)) hviolation

end Trimmed

/-- Whatever reads a cell only as the trimmed cell comes to the same on columns with the same
texts. -/
theorem bind_cells_congr {β : Type} {f : List Cell → Except CheckFault β} {column : String}
    {type : Option ValueType} (htexts : table'.texts column = table.texts column)
    (hf : ∀ cells : List Cell, (∀ cell ∈ cells, cell.text = RawColumn.trimmed cell.raw) →
      f (cells.map Cell.trimmed) = f cells) :
    (ofNumber (e.cells table' column type) >>= f)
      = ofNumber (e.cells table column type) >>= f := by
  have hcells : (e.cells table' column type).map (List.map Cell.trimmed)
      = (e.cells table column type).map (List.map Cell.trimmed) := by
    simp only [Table.texts] at htexts
    rw [cells, cells, Cell.readColumn, Cell.readColumn, ← Cell.readFrom_trimmed,
      ← Cell.readFrom_trimmed, htexts]
  have htext : ∀ {table : Table} {cells : List Cell}, e.cells table column type = .ok cells →
      ∀ cell ∈ cells, cell.text = RawColumn.trimmed cell.raw := fun h cell hcell => by
    obtain ⟨raw, -, hs⟩ := (Cell.showsColumn_of_cells h).shows hcell
    rw [hs.text_eq, hs.raw_eq]
  cases h : e.cells table column type with
  | error fault =>
    rw [h] at hcells
    rw [map_eq_error_iff.mp hcells]
  | ok cells =>
    rw [h] at hcells
    obtain ⟨cells', h', heq⟩ := map_eq_ok_iff.mp hcells
    rw [h']
    change f cells' = f cells
    rw [← hf cells' (htext h'), heq, hf cells (htext h)]

/-! ### Blocks and conditional rules -/

section SameTexts

variable (h : table.SameTexts table')
include h

theorem evaluateColumn_sameTexts {b : Block} (hb : b.column ∈ table.header) :
    e.evaluateColumn table' b = e.evaluateColumn table b := by
  refine bind_cells_congr (h.texts_eq hb) fun cells hcells => ?_
  have hnull : ((cells.map Cell.trimmed).filter Cell.isNull).length
      = (cells.filter Cell.isNull).length := by
    rw [List.filter_map, List.length_map]
    rfl
  have hrule : e.evaluateRule (cells.map Cell.trimmed) b.valueType.isSome
      = e.evaluateRule cells b.valueType.isSome := funext (evaluateRule_trimmed hcells _)
  simp only [hnull, hrule]

theorem antecedentRows_sameTexts {clause : Clause} (hclause : clause.column ∈ table.header) :
    e.antecedentRows table' clause = e.antecedentRows table clause := by
  refine bind_cells_congr (h.texts_eq hclause) fun cells hcells => ?_
  simp only [matchedRows_trimmed hcells]

theorem consequentFailures_sameTexts {clause : Clause} (hclause : clause.column ∈ table.header)
    (rows : List Nat) :
    e.consequentFailures table' clause rows = e.consequentFailures table clause rows := by
  refine bind_cells_congr (h.texts_eq hclause) fun cells hcells => ?_
  have hfails : ∀ check, e.failsAt check (cells.map Cell.trimmed) = e.failsAt check cells :=
    fun check => funext (failsAt_trimmed hcells check)
  simp only [hfails]

theorem evaluateConditional_sameTexts (c : Conditional) :
    e.evaluateConditional table' c = e.evaluateConditional table c := by
  have habsent : absentColumns table' c = absentColumns table c := by
    simp only [absentColumns, h.hasColumn_eq]
  unfold evaluateConditional
  rw [habsent]
  cases hcase : absentColumns table c with
  | cons => rfl
  | nil =>
    have hheader : ∀ clause ∈ c.clauses, clause.column ∈ table.header := fun clause hclause => by
      by_contra hmissing
      exact absentColumns_ne_nil_iff.mpr
        ⟨clause, hclause, by simpa [Table.hasColumn] using hmissing⟩ hcase
    have hif := hheader c.antecedent List.mem_cons_self
    have hthen := hheader c.consequent (List.mem_cons_of_mem _ List.mem_cons_self)
    simp only [antecedentRows_sameTexts h hif, consequentFailures_sameTexts h hthen]

/-! ### Reports -/

theorem missingValues_sameTexts : e.missingValues table' = e.missingValues table := by
  rw [missingValues, missingValues, h.header]
  refine List.map_congr_left fun column hcolumn => ?_
  have hcount : ∀ t : Table, ((t.column column).filter fun raw => isNull raw e.settings).length
      = ((t.texts column).filter fun raw => isNull raw e.settings).length := fun t => by
    rw [Table.texts, List.filter_map, List.length_map]
    refine congrArg List.length (List.filter_congr fun raw _ => ?_)
    rw [Function.comp_apply, RawColumn.isNull_trimmed]
  rw [hcount, h.texts_eq (Text.mem_distinct_iff.mp hcolumn), ← hcount]

theorem opening_sameTexts : e.opening table' = (e.opening table).withTable table' := by
  simp only [opening, missingValues_sameTexts h, h.header]
  rfl

theorem assemble_sameTexts (columns : List ColumnOutcome)
    (conditionals : List ConditionalOutcome) :
    e.assemble table' columns conditionals = e.assemble table columns conditionals := by
  have hrun : ∀ t, (do
        let a ← columns.foldlM Assembly.recordColumn ((e.opening table).withTable t)
        let a ← conditionals.foldlM Assembly.recordConditional a
        a.build) = (do
          let a ← columns.foldlM Assembly.recordColumn (e.opening table)
          let a ← conditionals.foldlM Assembly.recordConditional a
          (a.withTable t).build) := fun t => by
    rw [foldlM_map Assembly.recordColumn_withTable]
    cases columns.foldlM Assembly.recordColumn (e.opening table) with
    | error fault => rfl
    | ok a =>
      change (conditionals.foldlM Assembly.recordConditional (a.withTable t) >>= Assembly.build)
        = conditionals.foldlM Assembly.recordConditional a >>= fun a => (a.withTable t).build
      rw [foldlM_map Assembly.recordConditional_withTable]
      cases conditionals.foldlM Assembly.recordConditional a <;> rfl
  rw [assemble, assemble, opening_sameTexts h, hrun]
  refine Eq.trans ?_ (hrun table).symm
  simp only [Assembly.build_withTable h]

/-- **Tables with the same texts** come to the same, be it a report or a fault. -/
theorem evaluate_sameTexts : e.evaluate table' = e.evaluate table := by
  have hpresent : e.presentBlocks table' = e.presentBlocks table := by
    simp only [presentBlocks, h.hasColumn_eq]
  have hcolumns : e.evaluateColumns table' = e.evaluateColumns table := by
    rw [evaluateColumns, evaluateColumns, hpresent]
    refine mapM_congr fun b hb => evaluateColumn_sameTexts h ?_
    simpa [Table.hasColumn] using (List.mem_filter.mp hb).2
  have hconditionals : e.evaluateConditionals table' = e.evaluateConditionals table :=
    mapM_congr fun c _ => evaluateConditional_sameTexts h c
  simp only [evaluate, hcolumns, hconditionals, assemble_sameTexts h]

end SameTexts

/-- **Surrounding white space and the spelling of emptiness do not matter.** Trimming all cells of a
table, with the empty text in place of every absent one, gives a table whose validation comes to the
same report, and so does padding the cells of a table with white space. -/
theorem evaluate_trimmed (e : Engine) (table : Table) :
    e.evaluate table.trimmed = e.evaluate table ∧
      ∀ padded, table.Padded padded → e.evaluate padded = e.evaluate table :=
  ⟨evaluate_sameTexts table.sameTexts_trimmed, fun _ h => evaluate_sameTexts h.sameTexts⟩

/-! #### Counts with white space

The stock counts once more, trimmed and padded. -/

/-- The stock counts with spaces, line ends and no-break spaces around them. -/
def paddedStockTable : Table :=
  ⟨["count"], [[("count", some " 1\n")], [("count", some "\u00a0 01")], [("count", some "\t")],
    [("count", some "x")], [("count", some "\u20033 ")]], none⟩

/-- The stock counts have the same report without and with white space. -/
theorem stockTable_trimmed :
    stockTable.trimmed.column "count" = [some "1", some "01", some "", some "x", some "3"] ∧
      stockTable.Padded paddedStockTable ∧
      ∃ report, stockEngine.evaluate stockTable = .ok report ∧
        stockEngine.evaluate stockTable.trimmed = .ok report ∧
        stockEngine.evaluate paddedStockTable = .ok report ∧ report.columns = [stockOutcome] := by
  have hpadded : stockTable.Padded paddedStockTable := by
    refine ⟨rfl, rfl, .cons ?_ (.cons ?_ (.cons ?_ (.cons ?_ (.cons ?_ .nil))))⟩ <;>
      refine List.forall_mem_singleton.mpr ?_
    · exact ⟨[' '], ['\n'], Text.forall_of_all rfl, by decide⟩
    · exact ⟨['\u00a0'], [], Text.forall_of_all rfl, by decide⟩
    · exact ⟨['\t'], [], Text.forall_of_all rfl, by decide⟩
    · exact ⟨[], [], Text.forall_of_all rfl, by decide⟩
    · exact ⟨['\u2003'], [' '], Text.forall_of_all rfl, by decide⟩
  have hrun : (stockEngine.evaluate stockTable).toOption.any
      (fun r => r.columns == [stockOutcome]) = true := by
    decide +kernel
  obtain ⟨report, hreport, hcolumns⟩ := any_toOption_iff.mp hrun
  obtain ⟨htrimmed, hpadding⟩ := evaluate_trimmed stockEngine stockTable
  exact ⟨by decide, hpadded, report, hreport, htrimmed.trans hreport,
    (hpadding paddedStockTable hpadded).trans hreport, beq_iff_eq.mp hcolumns⟩

end Engine

end TableRules
