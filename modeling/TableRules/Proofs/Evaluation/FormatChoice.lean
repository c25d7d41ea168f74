import TableRules.Proofs.Calendar.Rematching
import TableRules.Proofs.Evaluation.SetMembership

/-!
# The order of a catalog

A catalog is searched in order, and the first format that reads a text is the one that is recorded.
So the order decides what an ambiguous text such as `03/04/2001` stands for, but not whether it
stands for anything: that is a matter of the members of the catalog alone
(`Catalog.exists_match?_iff`).

Two rules depend on this search in different ways. The rule for the type date-time reads the cell
with the catalog, the rule for a format asks that format alone.

* `Engine.dateTime_order`: what the order of the catalog, and formats put behind it, can and cannot
  change, and how the two rules are related.
-/

namespace TableRules

open Result

namespace Catalog

variable {c c' : Catalog} {text : String}

/-- A format is the first of a catalog that reads a text, and reads a date-time in it. -/
def FirstReads (c : Catalog) (text : String) (f : DateFormat) (d : DateTime) : Prop :=
  ∃ before after, c.formats = before ++ f :: after ∧ f.parse? text = some d ∧
    ∀ g ∈ before, g.parse? text = none

/-- Some format of a catalog reads a text. -/
def SomeReads (c : Catalog) (text : String) : Prop := ∃ f ∈ c.formats, ∃ d, f.parse? text = some d

/-- A text is matched exactly if some format reads it, wherever that format stands. -/
theorem exists_match?_iff : (∃ p, c.match? text = some p) ↔ c.SomeReads text := by
  rw [← Option.isSome_iff_exists, match?, List.findSome?_isSome_iff]
  simp only [Option.isSome_map, Option.isSome_iff_exists]
  rfl

/-- The same formats in another order read the same texts. -/
theorem SomeReads.perm (hperm : c'.formats.Perm c.formats) :
    c'.SomeReads text ↔ c.SomeReads text := by
  simp only [SomeReads, hperm.mem_iff]

/-- Formats that are put behind a catalog do not change what it matches. -/
theorem match?_append {extra : List DateFormat} (hextra : c'.formats = c.formats ++ extra)
    {p : DateFormat × DateTime} (h : c.match? text = some p) : c'.match? text = some p := by
  rw [match?] at h
  rw [match?, hextra, List.findSome?_append, h, Option.some_or]

end Catalog

/-! ### Reading date-times -/

section Coercion

variable {s : Settings} {c : Catalog} {raw : Option String}

/-- Reading a date-time never breaks off. -/
theorem exists_coerce_dateTime (raw : Option String) (s : Settings) (c : Catalog) :
    ∃ r, coerce raw .dateTime s c = .ok r := by
  unfold coerce coerceText
  dsimp only
  split
  · exact ⟨_, rfl⟩
  · split <;> exact ⟨_, rfl⟩

/-- A cell that is not null is read as a date-time exactly if the catalog matches its text, and then
as what the first format reads. -/
theorem coerce_dateTime_eq_value_iff (hnull : isNull raw s = false) {v : TypedValue} :
    coerce raw .dateTime s c = .ok (.value v) ↔
      ∃ f d, c.FirstReads (RawColumn.trimmed raw) f d ∧
        v = ⟨some (.dateTime d), .dateTime, RawColumn.trimmed raw, some f.name⟩ := by
  have hmatch : coerce raw .dateTime s c = .ok (.value v) ↔
      ∃ f d, c.match? (RawColumn.trimmed raw) = some (f, d) ∧
        v = ⟨some (.dateTime d), .dateTime, RawColumn.trimmed raw, some f.name⟩ := by
    unfold coerce coerceText RawColumn.trimmed
    rw [hnull]
    rcases c.match? (Text.trim (raw.getD "")) with _ | ⟨f, d⟩
    · simp
    · simp only [Bool.false_eq_true, if_false, Except.ok.injEq, Reading.value.injEq,
        Option.some.injEq, Prod.mk.injEq]
      constructor
      · rintro rfl
        exact ⟨f, d, ⟨rfl, rfl⟩, rfl⟩
      · rintro ⟨_, _, ⟨rfl, rfl⟩, rfl⟩
        rfl
  simp only [hmatch, Catalog.match?_eq_some_iff]
  rfl

/-- A cell that is not null is read as a date-time exactly if some format reads its text. -/
theorem exists_coerce_dateTime_iff (hnull : isNull raw s = false) :
    (∃ v, coerce raw .dateTime s c = .ok (.value v)) ↔ c.SomeReads (RawColumn.trimmed raw) := by
  simp only [coerce_dateTime_eq_value_iff hnull, ← Catalog.exists_match?_iff, Prod.exists,
    Catalog.match?_eq_some_iff]
  constructor
  · rintro ⟨_, f, d, hfirst, -⟩
    exact ⟨f, d, hfirst⟩
  · rintro ⟨f, d, hfirst⟩
    exact ⟨_, f, d, hfirst, rfl⟩

/-- A cell keeps its raw cell, the trimmed text of it, and whether it is null. -/
theorem fields_of_read {type : Option ValueType} {row : Nat} {cell : Cell}
    (h : Cell.read s c type row raw = .ok cell) :
    cell.raw = raw ∧ cell.text = RawColumn.trimmed raw ∧ cell.isNull = isNull raw s := by
  cases type with
  | none =>
    obtain rfl := Except.ok.inj h
    exact ⟨rfl, rfl, rfl⟩
  | some t =>
    obtain ⟨r, -, rfl⟩ := map_eq_ok_iff.mp h
    exact ⟨rfl, rfl, rfl⟩

/-- Whether reading a cell breaks off is not a matter of the catalog. -/
theorem exists_read (c' : Catalog) {type : Option ValueType} {row : Nat} {cell : Cell}
    (h : Cell.read s c type row raw = .ok cell) :
    ∃ cell', Cell.read s c' type row raw = .ok cell' := by
  cases type with
  | none => exact ⟨_, rfl⟩
  | some t =>
    obtain ⟨r, hr, -⟩ := map_eq_ok_iff.mp h
    -- Only date-times are read with the catalog, and reading them never breaks off.
    obtain ⟨r', hr'⟩ : ∃ r', coerce raw t s c' = .ok r' := by
      cases t with
      | dateTime => exact exists_coerce_dateTime raw s c'
      | _ => exact ⟨r, hr⟩
    exact ⟨_, map_eq_ok_iff.mpr ⟨r', hr', rfl⟩⟩

end Coercion

namespace Engine

variable {e : Engine} {column : List Cell} {cell : Cell} {line : Option Int}

/-! ### The two rules -/

/-- A cell that is not null passes the rule for a type exactly if it is read with that type. -/
theorem passes_hasType_iff (hnull : cell.isNull = false) {t : ValueType} :
    e.Passes column ⟨.hasType t, line⟩ cell ↔
      ∃ v, coerce cell.raw t e.settings e.catalog = .ok (.value v) := by
  have hviolation : (Check.ofType t).violation? e.settings e.catalog column cell
      = Check.typeViolation? e.settings e.catalog t cell := by
    rw [Check.violation?, hnull]
    rfl
  constructor
  · rintro ⟨check, hcheck, hv⟩
    obtain rfl := Except.ok.inj hcheck
    exact Check.typeViolation?_eq_none_iff.mp (hviolation ▸ hv)
  · exact fun hv => ⟨_, rfl, hviolation.trans (Check.typeViolation?_eq_none_iff.mpr hv)⟩

/-- A cell that is not null passes the rule for a format exactly if the catalog has the format and
it reads the text of the cell. -/
theorem passes_hasFormat_iff (hnull : cell.isNull = false) {w : Wording} :
    e.Passes column ⟨.hasFormat w, line⟩ cell ↔
      ∃ f d, e.catalog.get? w.value = some f ∧ f.parse? cell.text = some d := by
  have hviolation (f : DateFormat) :
      (Check.inFormat f).violation? e.settings e.catalog column cell = .ok none ↔
        ∃ d, f.parse? cell.text = some d := by
    rw [Check.violation?, hnull]
    exact (Except.ok.injEq ..).to_iff.trans
      (Check.demand_eq_none_iff.trans Option.isSome_iff_exists)
  have hcheck (check : Check) : e.check ⟨.hasFormat w, line⟩ = .ok check ↔
      ∃ f, e.catalog.get? w.value = some f ∧ check = .inFormat f := by
    rw [Engine.check, Check.ofConstraint]
    cases e.catalog.get? w.value <;> simp [eq_comm]
  simp only [Passes, hcheck]
  constructor
  · rintro ⟨_, ⟨f, hget, rfl⟩, hv⟩
    obtain ⟨d, hd⟩ := (hviolation f).mp hv
    exact ⟨f, d, hget, hd⟩
  · rintro ⟨f, d, hget, hd⟩
    exact ⟨_, ⟨f, hget, rfl⟩, (hviolation f).mpr ⟨d, hd⟩⟩

/-- **The order of the catalog decides the format, never the verdict.** A cell that is not null is
always read as a date-time or found not to be one. It is one exactly if some format of the catalog
reads its trimmed text, and then the first such format is recorded with the value that it reads.

Another order of the catalog leaves it open which format that is, but not whether the cell passes
the rule for the type date-time; formats put behind the catalog change nothing about a cell that is
read already. A cell that passes the rule for a format of the catalog passes the rule for the type,
and it always passes the rule for the format that is recorded. -/
theorem dateTime_order {type : Option ValueType} {row : Nat} {raw : Option String}
    (hread : Cell.read e.settings e.catalog type row raw = .ok cell) (hnull : cell.isNull = false)
    (column : List Cell) (line : Option Int) :
    (∃ r, coerce raw .dateTime e.settings e.catalog = .ok r) ∧
      ((∃ v, coerce raw .dateTime e.settings e.catalog = .ok (.value v)) ↔
        e.catalog.SomeReads (RawColumn.trimmed raw)) ∧
      (∀ v, coerce raw .dateTime e.settings e.catalog = .ok (.value v) →
        ∃ f d, e.catalog.FirstReads (RawColumn.trimmed raw) f d ∧
          v = ⟨some (.dateTime d), .dateTime, RawColumn.trimmed raw, some f.name⟩) ∧
      (∀ c : Catalog, c.formats.Perm e.catalog.formats →
        ∃ cell', Cell.read e.settings c type row raw = .ok cell' ∧
          ∀ column', ({ e with catalog := c }.Passes column' ⟨.hasType .dateTime, line⟩ cell' ↔
            e.Passes column ⟨.hasType .dateTime, line⟩ cell)) ∧
      (∀ (c : Catalog) (extra : List DateFormat), c.formats = e.catalog.formats ++ extra →
        ∀ v, coerce raw .dateTime e.settings e.catalog = .ok (.value v) →
          coerce raw .dateTime e.settings c = .ok (.value v)) ∧
      (∀ w : Wording, e.Passes column ⟨.hasFormat w, line⟩ cell →
        e.Passes column ⟨.hasType .dateTime, line⟩ cell) ∧
      ∀ v, coerce raw .dateTime e.settings e.catalog = .ok (.value v) →
        ∃ name, v.format = some name ∧ e.catalog.contains name = true ∧
          e.Passes column ⟨.hasFormat (.text name), line⟩ cell := by
  obtain ⟨rfl, htext, hcell⟩ := fields_of_read hread
  have hraw : isNull cell.raw e.settings = false := hcell.symm.trans hnull
  have hpasses : e.Passes column ⟨.hasType .dateTime, line⟩ cell ↔
      e.catalog.SomeReads (RawColumn.trimmed cell.raw) :=
    (passes_hasType_iff hnull).trans (exists_coerce_dateTime_iff hraw)
  refine ⟨exists_coerce_dateTime _ _ _, exists_coerce_dateTime_iff hraw,
    fun v hv => (coerce_dateTime_eq_value_iff hraw).mp hv, fun c hperm => ?permuted,
    fun c extra hextra v hv => ?appended, fun w hformat => ?narrower, fun v hv => ?recorded⟩
  case permuted =>
    obtain ⟨cell', hread'⟩ := exists_read c hread
    obtain ⟨hraw', -, hcell'⟩ := fields_of_read hread'
    refine ⟨cell', hread', fun column' => ?_⟩
    rw [hpasses, passes_hasType_iff (hcell'.trans hraw), hraw', ← Catalog.SomeReads.perm hperm]
    exact exists_coerce_dateTime_iff hraw
  case appended =>
    obtain ⟨f, d, hfirst, rfl⟩ := (coerce_dateTime_eq_value_iff hraw).mp hv
    have hmatch := Catalog.match?_append hextra (Catalog.match?_eq_some_iff.mpr hfirst)
    exact (coerce_dateTime_eq_value_iff hraw).mpr
      ⟨f, d, Catalog.match?_eq_some_iff.mp hmatch, rfl⟩
  case narrower =>
    obtain ⟨f, d, hget, hd⟩ := (passes_hasFormat_iff hnull).mp hformat
    rw [htext] at hd
    exact hpasses.mpr ⟨f, List.mem_of_find?_eq_some hget, d, hd⟩
  case recorded =>
    obtain ⟨f, d, hfirst, rfl⟩ := (coerce_dateTime_eq_value_iff hraw).mp hv
    have hget := Catalog.get?_of_match? (Catalog.match?_eq_some_iff.mpr hfirst)
    obtain ⟨before, after, hformats, hd, -⟩ := hfirst
    refine ⟨f.name, rfl, List.any_eq_true.mpr ⟨f, ?_, beq_self_eq_true _⟩,
      (passes_hasFormat_iff hnull).mpr ⟨f, d, hget, htext ▸ hd⟩⟩
    rw [hformats]
    exact List.mem_append_right _ List.mem_cons_self

/-! #### A date that two formats read

The third of April if the day comes first, the fourth of March if the month does. -/

/-- A catalog in which the day comes first. -/
def dayFirst : Catalog :=
  ⟨[⟨"DD/MM/YYYY", by decide⟩, ⟨"MM/DD/YYYY", by decide⟩], by simp, by decide⟩

/-- The same formats in the other order. -/
def monthFirst : Catalog :=
  ⟨[⟨"MM/DD/YYYY", by decide⟩, ⟨"DD/MM/YYYY", by decide⟩], by simp, by decide⟩

/-- One format more than in the catalog in which the day comes first. -/
def dayFirstOrYear : Catalog where
  formats := dayFirst.formats ++ Catalog.yearOnly.formats
  nonempty := List.append_ne_nil_of_left_ne_nil dayFirst.nonempty _
  distinct := by decide

/-- An engine without rules that reads cells with a catalog. -/
def tradeEngine (c : Catalog) : Engine :=
  ⟨⟨.standard, ⟨["traded"], false, false, false⟩, [], [], none, List.nodup_nil,
    List.nodup_nil⟩, c, 1⟩

/-- The cell of a date, in a column without a type. -/
def tradeCell : Cell := ⟨1, some " 03/04/2001", "03/04/2001", false, none⟩

/-- What the date is read as if the day comes first. -/
def thirdOfApril : TypedValue :=
  ⟨some (.dateTime ⟨⟨2001, 4, 3, 0, 0, 0, 0⟩, by decide⟩), .dateTime, "03/04/2001",
    some "DD/MM/YYYY"⟩

/-- The order changes the date but not that it is one, one format more does not change the date, and
the cell passes the rule for the format that is recorded. -/
theorem tradeCell_order :
    Cell.read .standard dayFirst none 1 (some " 03/04/2001") = .ok tradeCell ∧
      tradeCell.isNull = false ∧
      coerce (some " 03/04/2001") .dateTime .standard dayFirst = .ok (.value thirdOfApril) ∧
      coerce (some " 03/04/2001") .dateTime .standard monthFirst ≠ .ok (.value thirdOfApril) ∧
      coerce (some " 03/04/2001") .dateTime .standard dayFirstOrYear = .ok (.value thirdOfApril) ∧
      (tradeEngine dayFirst).Passes [tradeCell] ⟨.hasType .dateTime, some 3⟩ tradeCell ∧
      (tradeEngine monthFirst).Passes [tradeCell] ⟨.hasType .dateTime, some 3⟩ tradeCell ∧
      (tradeEngine dayFirst).Passes [tradeCell] ⟨.hasFormat (.text "DD/MM/YYYY"), some 3⟩
        tradeCell := by
  have hread : Cell.read .standard dayFirst none 1 (some " 03/04/2001") = .ok tradeCell := by
    decide +kernel
  have hapril : coerce (some " 03/04/2001") .dateTime .standard dayFirst
      = .ok (.value thirdOfApril) := by decide +kernel
  obtain ⟨-, -, -, hpermuted, happended, hnarrower, hrecorded⟩ :=
    dateTime_order (e := tradeEngine dayFirst) hread rfl [tradeCell] (some 3)
  obtain ⟨name, hname, -, hformat⟩ := hrecorded thirdOfApril hapril
  obtain rfl := Option.some.inj hname
  have hpasses := hnarrower _ hformat
  obtain ⟨cell', hread', hsame⟩ := hpermuted monthFirst (.swap _ _ _)
  obtain rfl : tradeCell = cell' := Except.ok.inj (hread.symm.trans hread')
  exact ⟨hread, rfl, hapril, by decide +kernel, happended dayFirstOrYear _ rfl _ hapril, hpasses,
    (hsame _).mpr hpasses, hformat⟩

end Engine

end TableRules
