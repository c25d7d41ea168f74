import Mathlib.Data.List.Pairwise
import TableRules.Evaluation.Header
import TableRules.Proofs.Text.Distinct

/-!
# The findings about a header

What `ColumnSpec.checkHeader` finds is said by `ColumnSpec.Finds`, in terms of names and their first
places: which declared names a header lacks, which of its names are not declared, and whether two
names stand in one order in the declaration and in the other order in the header (`Reorders`).

The check removes repetitions and drops names on both sides and then compares two lists. They are
equal if and only if no two names are turned around (`found_eq_expected_iff`): both lists
have the same members, and where none are turned around, both are in the order of the declaration.

`checkHeader_exact` is the whole of it, together with the frame property: columns that are not
declared have no influence on the other two kinds of findings.
-/

namespace TableRules.ColumnSpec

open Text

/-! ### The three kinds of findings -/

/-- The error about a declared column that a header lacks. -/
def missingError (column : String) : Finding :=
  .about .error .header ("missing required column '" ++ column ++ "'") (some column)

/-- The error about a column that is not declared. -/
def extraError (column : String) : Finding :=
  .about .error .header ("extra column '" ++ column ++ "' is not allowed") (some column)

/-- The warning about the order of the columns. -/
def orderWarning (expected found : List String) : Finding :=
  .about .warning .header
    ("column order mismatch: expected " ++ quotedList expected ++ ", found " ++ quotedList found)
    none

/-- Two declared names of a header come in one order in the declaration and in the other order in
the header, by their first places. -/
def Reorders (declared header : List String) : Prop :=
  ∃ a b, a ∈ declared ∧ b ∈ declared ∧ a ∈ header ∧ b ∈ header ∧
    declared.idxOf a < declared.idxOf b ∧ header.idxOf b < header.idxOf a

/-- What is to be found in a header: errors about missing columns in declared order, errors about
extra columns in the order of the header, and one warning if names are turned around. -/
structure Finds (spec : ColumnSpec) (header : List String) (missing extra order : List Finding) :
    Prop where
  missing_of_required : spec.allRequired = true →
    ∃ names, ListsOnce spec.names (· ∉ header) names ∧ missing = names.map missingError
  missing_of_optional : spec.allRequired = false → missing = []
  extra_of_forbidden : spec.noExtra = true →
    ∃ names, ListsOnce header (· ∉ spec.names) names ∧ extra = names.map extraError
  extra_of_allowed : spec.noExtra = false → extra = []
  order_of_reorders : spec.checkOrder = true → Reorders spec.names header →
    ∃ expected found, ListsOnce spec.names (· ∈ header) expected ∧
      ListsOnce header (· ∈ spec.names) found ∧ order = [orderWarning expected found]
  order_of_kept : ¬(spec.checkOrder = true ∧ Reorders spec.names header) → order = []

/-- Names that are not declared are inserted into a header. -/
inductive Widens (declared : List String) : List String → List String → Prop
  | nil : Widens declared [] []
  | keep {header wider : List String} (c : String) (h : Widens declared header wider) :
    Widens declared (c :: header) (c :: wider)
  | insert {header wider : List String} {c : String} (hc : c ∉ declared)
    (h : Widens declared header wider) : Widens declared header (c :: wider)

namespace Widens

variable {declared header wider : List String}

/-- A selection of declared names selects the same of both headers. -/
theorem filter_eq (h : Widens declared header wider) {p : String → Bool}
    (hp : ∀ c, p c = true → c ∈ declared) : wider.filter p = header.filter p := by
  induction h with
  | nil => rfl
  | keep c h ih => rw [List.filter_cons, List.filter_cons, ih]
  | insert hc h ih => rw [List.filter_cons_of_neg fun hpc => hc (hp _ hpc), ih]

/-- Both headers have the same declared names. -/
theorem mem_iff (h : Widens declared header wider) {c : String} (hc : c ∈ declared) :
    c ∈ wider ↔ c ∈ header := by
  induction h with
  | nil => rfl
  | keep d h ih => rw [List.mem_cons, List.mem_cons, ih]
  | insert hd h ih =>
    have hne := ne_of_mem_of_not_mem hc hd
    rw [List.mem_cons, ih, or_iff_right hne]

end Widens

/-! ### The order of the columns -/

/-- The common names of a declaration and a header are in the same order in both exactly if no two
of them are turned around. -/
theorem found_eq_expected_iff {declared header expected found : List String}
    (hexpected : ListsOnce declared (· ∈ header) expected)
    (hfound : ListsOnce header (· ∈ declared) found) :
    found = expected ↔ ¬Reorders declared header := by
  constructor
  · rintro rfl ⟨a, b, had, hbd, hah, hbh, hdeclared, hheader⟩
    have hforward : found.Pairwise fun a b =>
        ¬(declared.idxOf a < declared.idxOf b ∧ header.idxOf b < header.idxOf a) :=
      hfound.ordered.imp fun hh ⟨_, h⟩ => Nat.lt_asymm hh h
    have hbackward : found.Pairwise fun a b =>
        ¬(declared.idxOf b < declared.idxOf a ∧ header.idxOf a < header.idxOf b) :=
      hexpected.ordered.imp fun hd ⟨h, _⟩ => Nat.lt_asymm hd h
    exact hforward.forall_of_forall_of_flip (fun _ _ h => Nat.lt_irrefl _ h.1) hbackward
      ((hexpected.mem_iff a).mpr ⟨had, hah⟩) ((hexpected.mem_iff b).mpr ⟨hbd, hbh⟩)
      ⟨hdeclared, hheader⟩
  · intro hkept
    refine ListsOnce.unique ⟨fun a => ?_, ?_⟩ hexpected
    · rw [hfound.mem_iff, and_comm]
    · refine hfound.ordered.imp_of_mem fun {a b} ha hb hab => ?_
      obtain ⟨hah, had⟩ := (hfound.mem_iff a).mp ha
      obtain ⟨hbh, hbd⟩ := (hfound.mem_iff b).mp hb
      refine lt_of_le_of_ne (Nat.not_lt.mp fun hba => ?_) fun heq => ?_
      · exact hkept ⟨b, a, hbd, had, hbh, hah, hba, hab⟩
      · rw [List.idxOf_inj had |>.mp heq] at hab
        exact Nat.lt_irrefl _ hab

/-! ### All findings -/

/-- The findings of the check, in three parts that are as they should be. -/
theorem finds_checkHeader (spec : ColumnSpec) (header : List String) :
    spec.Finds header
      (if spec.allRequired then missingColumns (distinct spec.names) header else [])
      (if spec.noExtra then extraColumns (distinct spec.names) header else [])
      (if spec.checkOrder then orderMismatch (distinct spec.names) header else []) := by
  have hexpected : ListsOnce spec.names (· ∈ header)
      ((distinct spec.names).filter header.contains) :=
    listsOnce_filter_distinct fun _ => List.contains_iff_mem
  have hfound : ListsOnce header (· ∈ spec.names)
      ((distinct header).filter (distinct spec.names).contains) :=
    listsOnce_filter_distinct fun _ => List.contains_iff_mem.trans mem_distinct_iff
  have hsame := found_eq_expected_iff hexpected hfound
  refine ⟨fun h => ⟨_, listsOnce_filter_distinct fun c => ?_, if_pos h⟩, fun h => by simp [h],
    fun h => ⟨_, listsOnce_filter_distinct fun c => ?_, if_pos h⟩, fun h => by simp [h],
    fun hcheck hreorders => ⟨_, _, hexpected, hfound, ?_⟩, fun hnot => ?_⟩
  · simp
  · simp [mem_distinct_iff]
  · rw [if_pos hcheck]
    exact if_neg fun h => hsame.mp h hreorders
  · split_ifs with hcheck
    · exact if_pos (hsame.mpr fun hreorders => hnot ⟨hcheck, hreorders⟩)
    · rfl

/-- Columns that are not declared have no influence on the errors about missing columns. -/
theorem missingColumns_widens {names header wider : List String}
    (hwider : Widens names header wider) :
    missingColumns (distinct names) wider = missingColumns (distinct names) header := by
  have habsent : ∀ c ∈ distinct names, (!wider.contains c) = !header.contains c := fun c hc => by
    simp [hwider.mem_iff (mem_distinct_iff.mp hc)]
  rw [missingColumns, missingColumns, List.filter_congr habsent]

/-- Columns that are not declared have no influence on the warning about the order. -/
theorem orderMismatch_widens {names header wider : List String}
    (hwider : Widens names header wider) :
    orderMismatch (distinct names) wider = orderMismatch (distinct names) header := by
  have hfound : (distinct wider).filter (distinct names).contains =
      (distinct header).filter (distinct names).contains := by
    rw [filter_distinct, filter_distinct, hwider.filter_eq fun c hc =>
      mem_distinct_iff.mp (List.contains_iff_mem.mp hc)]
  have hexpected : (distinct names).filter wider.contains =
      (distinct names).filter header.contains := by
    refine List.filter_congr fun c hc => ?_
    simp [hwider.mem_iff (mem_distinct_iff.mp hc)]
  simp only [orderMismatch, hfound, hexpected]

/-- **The check of a header is exact**: its findings are the errors about missing columns, the
errors about extra columns and the warning about the order, in this order, as `Finds` says, and
nothing else. Columns that are not declared, wherever they are inserted, change neither the first
part nor the last. -/
theorem checkHeader_exact (spec : ColumnSpec) (header : List String) :
    ∃ missing extra order : List Finding,
      spec.checkHeader header = missing ++ extra ++ order ∧
      spec.Finds header missing extra order ∧
      ∀ wider : List String, Widens spec.names header wider →
        ∃ extra' : List Finding, spec.checkHeader wider = missing ++ extra' ++ order ∧
          spec.Finds wider missing extra' order := by
  refine ⟨_, _, _, rfl, spec.finds_checkHeader header, fun wider hwider => ?_⟩
  have hfinds := spec.finds_checkHeader wider
  rw [missingColumns_widens hwider, orderMismatch_widens hwider] at hfinds
  refine ⟨_, ?_, hfinds⟩
  rw [checkHeader, missingColumns_widens hwider, orderMismatch_widens hwider]

/-- A header with repeated names, one of them not declared, that lacks two declared names and turns
two around; further columns change neither the errors about the missing ones nor the warning. -/
theorem checkHeader_exact_of_turned_header :
    let spec : ColumnSpec := ⟨["id", "name", "price", "id", "size"], true, true, true⟩
    let header := ["price", "note", "id", "price", "note"]
    let wider := ["code", "price", "note", "date", "id", "price", "note"]
    Widens spec.names header wider ∧ Reorders spec.names header ∧
      ∃ extra extra' : List Finding,
        spec.checkHeader header =
          [missingError "name", missingError "size"] ++ extra ++
            [orderWarning ["id", "price"] ["price", "id"]] ∧
        spec.checkHeader wider =
          [missingError "name", missingError "size"] ++ extra' ++
            [orderWarning ["id", "price"] ["price", "id"]] := by
  intro spec header wider
  have hwider : Widens spec.names header wider :=
    .insert (by decide) <| .keep _ <| .keep _ <| .insert (by decide) <| .keep _ <| .keep _ <|
      .keep _ .nil
  have hreorders : Reorders spec.names header := ⟨"id", "price", by decide⟩
  obtain ⟨missing, extra, order, hcheck, hfinds, hframe⟩ := spec.checkHeader_exact header
  obtain ⟨extra', hcheck', -⟩ := hframe wider hwider
  obtain ⟨names, hnames, rfl⟩ := hfinds.missing_of_required rfl
  obtain ⟨expected, found, hexpected, hfound, rfl⟩ := hfinds.order_of_reorders rfl hreorders
  have hnames' := hnames.unique (listsOnce_filter_distinct (p := fun c => !header.contains c)
    fun _ => by simp)
  have hexpected' := hexpected.unique (listsOnce_filter_distinct fun _ => List.contains_iff_mem)
  have hfound' := hfound.unique (listsOnce_filter_distinct fun _ => List.contains_iff_mem)
  subst hnames' hexpected' hfound'
  exact ⟨hwider, hreorders, extra, extra', hcheck, hcheck'⟩

end TableRules.ColumnSpec
