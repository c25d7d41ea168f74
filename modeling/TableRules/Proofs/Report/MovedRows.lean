import Mathlib.Data.List.Forall2
import TableRules.Proofs.Report.Recording

/-!
# Reports with moved rows

Outcomes and findings name rows by their numbers. Where the rows of a table are moved, those numbers
change to their images, listed in increasing order again (`RowsMoved`), and nothing else does: this
is what it means for an outcome, a finding or a report to be **moved** by a map of row numbers.

The assembly of a report looks at row numbers only to word findings that name rows. So each of its
steps, taken on moved outcomes, leaves a moved assembly.

* `Assembly.Moved.recordColumn`, `Assembly.Moved.recordConditional`: one outcome is recorded.
* `Assembly.Moved.exists_build`: a moved assembly is finished with a moved report.
-/

namespace TableRules

open Result

variable {f : Nat → Nat}

/-! ### What it means to be moved -/

/-- Row numbers are the images of others, in increasing order. -/
structure RowsMoved (f : Nat → Nat) (rows rows' : List Nat) : Prop where
  increasing : rows'.Pairwise (· < ·)
  perm : rows'.Perm (rows.map f)

/-- The failed rows of a rule with their messages. -/
def RuleOutcome.failures (o : RuleOutcome) : List (Nat × String) := o.failedRows.zip o.messages

/-- The failed rows of a rule are moved, and each keeps its message. -/
structure RuleOutcome.Moved (f : Nat → Nat) (o o' : RuleOutcome) : Prop where
  rule : o'.rule = o.rule
  kind : o'.kind = o.kind
  line : o'.line = o.line
  passedCount : o'.passedCount = o.passedCount
  failedRows : RowsMoved f o.failedRows o'.failedRows
  failures : o'.failures.Perm (o.failures.map (Prod.map f id))
  length_messages : o.messages.length = o.failedRows.length
  length_messages' : o'.messages.length = o'.failedRows.length
  note : o'.note = o.note

/-- The failed rows of all rules of a column are moved. -/
structure ColumnOutcome.Moved (f : Nat → Nat) (o o' : ColumnOutcome) : Prop where
  column : o'.column = o.column
  rules : List.Forall₂ (RuleOutcome.Moved f) o.rules o'.rules
  missingValues : o'.missingValues = o.missingValues

/-- The matched and the failed rows of a conditional rule are moved. -/
structure ConditionalOutcome.Moved (f : Nat → Nat) (o o' : ConditionalOutcome) : Prop where
  name : o'.name = o.name
  status : o'.status = o.status
  matchedRows : RowsMoved f o.matchedRows o'.matchedRows
  failedRows : RowsMoved f o.failedRows o'.failedRows
  note : o'.note = o.note

/-- Whether findings of a category may name rows. -/
def Category.namesRows : Category → Bool
  | .valueRule | .conditional => true
  | .summary | .link | .header => false

/-- The rows of a finding are moved. A finding without rows stays as it is. -/
structure Finding.Moved (f : Nat → Nat) (x x' : Finding) : Prop where
  severity : x'.severity = x.severity
  category : x'.category = x.category
  column : x'.column = x.column
  rule : x'.rule = x.rule
  rows : RowsMoved f x.rows x'.rows
  eq_of_rows : x.rows = [] → x' = x
  eq_of_category : x.category.namesRows = false → x' = x

/-- All rows that a report names are moved. -/
structure Report.Moved (f : Nat → Nat) (r r' : Report) : Prop where
  source : r'.source = r.source
  rowCount : r'.rowCount = r.rowCount
  columnCount : r'.columnCount = r.columnCount
  findings : List.Forall₂ (Finding.Moved f) r.findings r'.findings
  columns : List.Forall₂ (ColumnOutcome.Moved f) r.columns r'.columns
  conditionals : List.Forall₂ (ConditionalOutcome.Moved f) r.conditionals r'.conditionals
  missingValues : r'.missingValues = r.missingValues

namespace RowsMoved

variable {rows rows' : List Nat}

theorem nil : RowsMoved f [] [] := ⟨.nil, .refl _⟩

theorem length_eq (h : RowsMoved f rows rows') : rows'.length = rows.length := by
  rw [h.perm.length_eq, List.length_map]

theorem isEmpty_eq (h : RowsMoved f rows rows') : rows'.isEmpty = rows.isEmpty := by
  rw [Bool.eq_iff_iff, List.isEmpty_iff_length_eq_zero, List.isEmpty_iff_length_eq_zero,
    h.length_eq]

theorem eq_nil (h : RowsMoved f rows rows') (hnil : rows = []) : rows' = [] := by
  rw [← List.isEmpty_iff, h.isEmpty_eq, hnil, List.isEmpty_nil]

/-- Tests that agree on a row and on the moved row, and may break off, keep moved rows. -/
theorem exists_filterM {ε : Type} {p q : Nat → Except ε Bool} {kept : List Nat}
    (h : RowsMoved f rows rows') (hp : ∀ row ∈ rows, q (f row) = p row)
    (hkept : rows.filterM p = .ok kept) :
    ∃ kept', rows'.filterM q = .ok kept' ∧ RowsMoved f kept kept' := by
  obtain ⟨haccepts, rfl⟩ := filterM_eq_ok_iff.mp hkept
  refine ⟨_, filterM_eq_ok_iff.mpr ⟨fun row' hrow' => ?_, rfl⟩,
    h.increasing.sublist List.filter_sublist, ?_⟩
  · obtain ⟨row, hrow, rfl⟩ := List.mem_map.mp (h.perm.mem_iff.mp hrow')
    rw [hp row hrow]
    exact haccepts row hrow
  · have hperm := h.perm.filter fun row => accepts (q row)
    have htests : rows.filter ((fun row => accepts (q row)) ∘ f)
        = rows.filter fun row => accepts (p row) :=
      List.filter_congr fun row hrow => congrArg accepts (hp row hrow)
    rwa [List.filter_map, htests] at hperm

end RowsMoved

/-! ### Outcomes -/

theorem RuleOutcome.Moved.passed_eq {o o' : RuleOutcome} (h : o.Moved f o') :
    o'.passed = o.passed := by
  rw [passed, passed, h.failedRows.isEmpty_eq, h.note]

/-- Outcomes of a rule are moved if their failed rows with the messages are. -/
theorem RuleOutcome.moved_of_failures {o o' : RuleOutcome} (failed failed' : List (Nat × String))
    (hrule : o'.rule = o.rule) (hkind : o'.kind = o.kind) (hline : o'.line = o.line)
    (hpassed : o'.passedCount = o.passedCount) (hnote : o'.note = o.note)
    (hfailed : o.failedRows = failed.map (·.1) ∧ o.messages = failed.map (·.2))
    (hfailed' : o'.failedRows = failed'.map (·.1) ∧ o'.messages = failed'.map (·.2))
    (hincreasing : (failed'.map (·.1)).Pairwise (· < ·))
    (hperm : failed'.Perm (failed.map (Prod.map f id))) : o.Moved f o' := by
  have hzip : ∀ ps : List (Nat × String), (ps.map (·.1)).zip (ps.map (·.2)) = ps := fun ps => by
    rw [List.zip_map', List.map_id']
  have hrows : RowsMoved f o.failedRows o'.failedRows := by
    rw [hfailed.1, hfailed'.1]
    refine ⟨hincreasing, ?_⟩
    have hfirst := hperm.map (·.1)
    rw [List.map_map] at hfirst ⊢
    exact hfirst
  refine ⟨hrule, hkind, hline, hpassed, hrows, ?_, ?_, ?_, hnote⟩
  · rw [failures, failures, hfailed.1, hfailed.2, hfailed'.1, hfailed'.2, hzip, hzip]
    exact hperm
  · rw [hfailed.1, hfailed.2, List.length_map, List.length_map]
  · rw [hfailed'.1, hfailed'.2, List.length_map, List.length_map]

theorem ColumnOutcome.Moved.allPassed_eq {o o' : ColumnOutcome} (h : o.Moved f o') :
    o'.allPassed = o.allPassed := by
  have hpassed : o'.rules.map RuleOutcome.passed = o.rules.map RuleOutcome.passed :=
    map_eq_of_forall₂ (h.rules.imp fun _ _ hrule => hrule.passed_eq)
  calc o'.allPassed = (o'.rules.map RuleOutcome.passed).all id := by rw [List.all_map]; rfl
    _ = (o.rules.map RuleOutcome.passed).all id := by rw [hpassed]
    _ = o.allPassed := by rw [List.all_map]; rfl

/-! ### Findings -/

/-- A finding that names no rows is moved to itself. -/
theorem Finding.Moved.refl {x : Finding} (h : x.rows = []) : x.Moved f x :=
  ⟨rfl, rfl, rfl, rfl, h ▸ .nil, fun _ => rfl, fun _ => rfl⟩

/-- Findings that name no rows are moved to themselves. -/
theorem Finding.forall₂_moved {xs : List Finding} (h : ∀ x ∈ xs, x.rows = []) :
    List.Forall₂ (Finding.Moved f) xs xs :=
  List.forall₂_same.mpr fun x hx => .refl (h x hx)

/-- The findings of a category that names no rows stay as they are. -/
theorem Finding.filter_category {xs xs' : List Finding}
    (h : List.Forall₂ (Finding.Moved f) xs xs') {c : Category} (hc : c.namesRows = false) :
    (xs'.filter fun x => x.category = c) = xs.filter fun x => x.category = c := by
  induction h with
  | nil => rfl
  | @cons x x' xs xs' hx _ ih =>
    by_cases hcategory : x.category = c
    · obtain rfl := hx.eq_of_category (hcategory ▸ hc)
      rw [List.filter_cons, List.filter_cons, ih]
    · rw [List.filter_cons_of_neg (by simpa [hx.category] using hcategory),
        List.filter_cons_of_neg (by simpa using hcategory), ih]

namespace Assembly

variable {a a' b : Assembly}

/-- The finding about a failed rule is moved. -/
theorem exists_moved_ruleFinding {column : String} {o o' : RuleOutcome} (h : o.Moved f o')
    {x : Finding} (hx : ruleFinding column o = .ok x) :
    ∃ x', ruleFinding column o' = .ok x' ∧ x.Moved f x' := by
  unfold ruleFinding at hx ⊢
  dsimp only at hx ⊢
  rw [h.note, h.rule]
  split_ifs at hx ⊢
  · -- the first message may be another one, but then the finding names rows
    split at hx
    · cases hx
    · rename_i m ms hmessages
      obtain rfl := Except.ok.inj hx
      have hne : o.failedRows ≠ [] := fun hnil => by
        have hlen := h.length_messages
        rw [hmessages, hnil] at hlen
        cases hlen
      obtain ⟨m', ms', hmessages'⟩ : ∃ m' ms', o'.messages = m' :: ms' := by
        refine List.exists_cons_of_ne_nil fun hnil => hne (List.eq_nil_of_length_eq_zero ?_)
        rw [← h.failedRows.length_eq, ← h.length_messages', hnil, List.length_nil]
      rw [hmessages']
      exact ⟨_, rfl, rfl, rfl, rfl, rfl, h.failedRows, fun hnil => absurd hnil hne, nofun⟩
  · obtain rfl := Except.ok.inj hx
    refine ⟨_, rfl, rfl, rfl, rfl, rfl, h.failedRows, fun hnil => ?_, nofun⟩
    have hnil : o.failedRows = [] := hnil
    rw [h.failedRows.eq_nil hnil, hnil]

/-- The findings about a block are moved. -/
theorem exists_moved_columnFindings {column : String} {o o' : Option ColumnOutcome}
    (h : Option.Rel (ColumnOutcome.Moved f) o o') {xs : List Finding}
    (hxs : columnFindings column o = .ok xs) :
    ∃ xs', columnFindings column o' = .ok xs' ∧ List.Forall₂ (Finding.Moved f) xs xs' := by
  cases h with
  | none =>
    obtain rfl := Except.ok.inj hxs
    exact ⟨_, rfl, .cons (.refl rfl) .nil⟩
  | @some o o' h =>
    have hempty : o'.rules.isEmpty = o.rules.isEmpty := by
      rw [Bool.eq_iff_iff, List.isEmpty_iff_length_eq_zero, List.isEmpty_iff_length_eq_zero,
        h.rules.length_eq]
    unfold columnFindings at hxs ⊢
    dsimp only at hxs ⊢
    rw [hempty, h.allPassed_eq]
    split_ifs at hxs ⊢
    · obtain rfl := Except.ok.inj hxs
      exact ⟨_, rfl, .nil⟩
    · obtain rfl := Except.ok.inj hxs
      exact ⟨_, rfl, .cons (.refl rfl) .nil⟩
    · have hfailed : List.Forall₂ (RuleOutcome.Moved f) (o.rules.filter fun r => !r.passed)
          (o'.rules.filter fun r => !r.passed) :=
        List.rel_filter (fun r r' hr => by dsimp only; rw [hr.passed_eq]) h.rules
      exact exists_mapM_forall₂ hfailed (fun _ _ hr _ => exists_moved_ruleFinding hr) hxs

/-- The findings about a conditional rule are moved. -/
theorem forall₂_conditionalFindings {name : String} {o o' : Option ConditionalOutcome}
    (h : Option.Rel (ConditionalOutcome.Moved f) o o') :
    List.Forall₂ (Finding.Moved f) (conditionalFindings name o) (conditionalFindings name o') := by
  cases h with
  | none => exact .nil
  | @some o o' h =>
    have hseverity : (conditionalMessage name o').1 = (conditionalMessage name o).1 := by
      unfold conditionalMessage
      rw [h.status]
      cases o.status <;> rfl
    have hmessage : o.failedRows = [] → conditionalMessage name o' = conditionalMessage name o :=
      fun hnil => by
        unfold conditionalMessage
        rw [h.status, h.note, h.matchedRows.length_eq, hnil, h.failedRows.eq_nil hnil]
    have hfinding : ∀ o, conditionalFindings name (some o) = [⟨(conditionalMessage name o).1,
        .conditional, (conditionalMessage name o).2, none, some name, o.failedRows⟩] := fun _ => rfl
    rw [hfinding, hfinding]
    refine .cons ⟨hseverity, rfl, rfl, rfl, h.failedRows, fun hnil => ?_, nofun⟩ .nil
    have hnil : o.failedRows = [] := hnil
    rw [hmessage hnil, hnil, h.failedRows.eq_nil hnil]

/-! ### Assemblies -/

/-- A place of an assembly whose outcome is moved. -/
def PlaceMoved {α : Type} (R : α → α → Prop) (p p' : String × Option α) : Prop :=
  p'.1 = p.1 ∧ Option.Rel R p.2 p'.2

/-- All outcomes and findings of an assembly are moved. -/
structure Moved (f : Nat → Nat) (a a' : Assembly) : Prop where
  source : a'.table.source = a.table.source
  rowCount : a'.table.rowCount = a.table.rowCount
  columnCount : a'.table.columnCount = a.table.columnCount
  ruleset : a'.ruleset = a.ruleset
  findings : List.Forall₂ (Finding.Moved f) a.findings a'.findings
  missingValues : a'.missingValues = a.missingValues
  columns : List.Forall₂ (PlaceMoved (ColumnOutcome.Moved f)) a.columns a'.columns
  conditionals :
    List.Forall₂ (PlaceMoved (ConditionalOutcome.Moved f)) a.conditionals a'.conditionals

/-- Moved places have the same keys. -/
theorem any_key_moved {α : Type} {R : α → α → Prop} {key : String}
    {entries entries' : List (String × Option α)}
    (h : List.Forall₂ (PlaceMoved R) entries entries') :
    (entries'.any fun entry => entry.1 == key) = entries.any fun entry => entry.1 == key := by
  have hkeys : entries'.map (·.1) = entries.map (·.1) :=
    map_eq_of_forall₂ (h.imp fun _ _ hplace => hplace.1)
  rw [Bool.eq_iff_iff, Keyed.any_key_iff, Keyed.any_key_iff, hkeys]

/-- Putting moved values under one key leaves moved places. -/
theorem forall₂_put {α : Type} {R : α → α → Prop} {key : String} {value value' : α}
    {entries entries' : List (String × Option α)} (hvalue : R value value')
    (h : List.Forall₂ (PlaceMoved R) entries entries') :
    List.Forall₂ (PlaceMoved R) (Keyed.put key (some value) entries)
      (Keyed.put key (some value') entries') := by
  unfold Keyed.put
  induction h with
  | nil => exact .cons ⟨rfl, .some hvalue⟩ .nil
  | @cons p p' entries entries' hp hrest ih =>
    rw [Keyed.update, Keyed.update, hp.1]
    split_ifs
    · exact .cons ⟨rfl, .some hvalue⟩ hrest
    · exact .cons ⟨rfl, hp.2⟩ ih

namespace Moved

/-- Recording a moved outcome of a column leaves a moved assembly. -/
theorem recordColumn (h : a.Moved f a') {o o' : ColumnOutcome} (ho : o.Moved f o')
    (hb : a.recordColumn o = .ok b) : ∃ b', a'.recordColumn o' = .ok b' ∧ b.Moved f b' := by
  unfold Assembly.recordColumn at hb ⊢
  rw [ho.column, any_key_moved h.columns]
  split_ifs at hb ⊢
  · obtain rfl := Except.ok.inj hb
    exact ⟨_, rfl, { h with columns := forall₂_put ho h.columns }⟩

/-- Recording a moved outcome of a conditional rule leaves a moved assembly. -/
theorem recordConditional (h : a.Moved f a') {o o' : ConditionalOutcome} (ho : o.Moved f o')
    (hb : a.recordConditional o = .ok b) :
    ∃ b', a'.recordConditional o' = .ok b' ∧ b.Moved f b' := by
  unfold Assembly.recordConditional at hb ⊢
  rw [ho.name, any_key_moved h.conditionals]
  split_ifs at hb ⊢
  · obtain rfl := Except.ok.inj hb
    exact ⟨_, rfl, { h with conditionals := forall₂_put ho h.conditionals }⟩

theorem summary_eq (h : a.Moved f a') : a'.summary = a.summary := by
  rw [summary, summary, tableLine, tableLine, h.ruleset, h.rowCount, h.columnCount,
    h.missingValues]

/-- The findings of a moved assembly are moved. -/
theorem exists_allFindings (h : a.Moved f a') {xs : List Finding} (hxs : a.allFindings = .ok xs) :
    ∃ xs', a'.allFindings = .ok xs' ∧ List.Forall₂ (Finding.Moved f) xs xs' := by
  obtain ⟨perColumn, hperColumn, rfl⟩ := map_eq_ok_iff.mp hxs
  obtain ⟨perColumn', hperColumn', hcolumns⟩ : ∃ perColumn',
      a'.columns.mapM (fun e => columnFindings e.1 e.2) = .ok perColumn' ∧
        List.Forall₂ (List.Forall₂ (Finding.Moved f)) perColumn perColumn' := by
    refine exists_mapM_forall₂ h.columns (fun p p' hp fs hfs => ?_) hperColumn
    rw [hp.1]
    exact exists_moved_columnFindings hp.2 hfs
  have hsummary : ∀ x ∈ a.summary, x.rows = [] := by
    intro x hx
    rw [summary] at hx
    rcases List.mem_cons.mp hx with rfl | hx
    · rfl
    · rcases List.mem_cons.mp hx with rfl | hx
      · rfl
      · obtain ⟨entry, -, rfl⟩ := List.mem_map.mp hx
        rfl
  have hconditionals : List.Forall₂ (Finding.Moved f)
      (a.conditionals.flatMap fun e => conditionalFindings e.1 e.2)
      (a'.conditionals.flatMap fun e => conditionalFindings e.1 e.2) :=
    List.rel_flatMap h.conditionals fun p p' hp => by
      rw [hp.1]
      exact forall₂_conditionalFindings hp.2
  refine ⟨_, map_eq_ok_iff.mpr ⟨perColumn', hperColumn', rfl⟩, ?_⟩
  rw [h.summary_eq]
  exact List.rel_append (List.rel_append (List.rel_append (Finding.forall₂_moved hsummary)
    h.findings) (List.rel_flatten hcolumns)) hconditionals

/-- **A moved assembly** is finished with a moved report. -/
theorem exists_build (h : a.Moved f a') {r : Report} (hr : a.build = .ok r) :
    ∃ r', a'.build = .ok r' ∧ r.Moved f r' := by
  obtain ⟨findings, hfindings, rfl⟩ := map_eq_ok_iff.mp hr
  obtain ⟨findings', hfindings', hmoved⟩ := h.exists_allFindings hfindings
  refine ⟨_, map_eq_ok_iff.mpr ⟨findings', hfindings', rfl⟩, h.source, h.rowCount, h.columnCount,
    hmoved, ?_, ?_, h.missingValues⟩
  · exact List.rel_filterMap (fun _ _ hp => hp.2) h.columns
  · exact List.rel_filterMap (fun _ _ hp => hp.2) h.conditionals

end Moved

end Assembly

end TableRules
