import TableRules.Proofs.RulesText.Separators

/-!
# The units of a rules text

A rules text is a sequence of units (`TextUnit`): a line that declares a setting, a demand on the
header or the column names; the head of a block and its rules; or the head of a conditional rule and
its sections. `IsText` is the grammar of these sequences. Each unit is read with the separator that
is in force where it starts.

A draft has collected the contributions of units (`Draft.Collects`) if each of its fields is what
those contribute, in their order.

**Main result** (`RulesReader.exists_isText`): what has been read outside unfinished conditional
rules is a sequence of units, and the draft has collected their
contributions.
-/

namespace TableRules

open Tokens Result

variable {s s' : Settings} {catalog : Catalog} {line : TokenLine} {lines : List TokenLine}
  {sep : Option Separator}

/-! ### Units -/

/-- Whether a statement stands for itself, with no further lines that belong to it. -/
def Statement.isDeclaration : Statement → Bool
  | .openBlock _ => false
  | .openConditional _ => false
  | _ => true

/-- What a unit of a rules text contributes to the ruleset. -/
inductive Contribution
  | declaration (st : Statement)
  | block (column : String) (rules : List Rule)
  | conditional (c : Conditional)

/-- A unit of a rules text: its lines and what they contribute. -/
structure TextUnit where
  contribution : Contribution
  lines : List TokenLine

/-- A line that is a rule, which is declared on this line. -/
def IsRuleLine (s : Settings) (catalog : Catalog) (rule : Rule) (line : TokenLine) : Prop :=
  IsRule s catalog rule.constraint line.tokens ∧ rule.line = some line.number

/-- Lines that are a unit. -/
inductive IsUnit (s : Settings) (catalog : Catalog) : Contribution → List TokenLine → Prop
  | declaration {st : Statement} {line : TokenLine} (hst : IsStatement s st line.tokens)
      (h : st.isDeclaration = true) : IsUnit s catalog (.declaration st) [line]
  | block {column : String} {rules : List Rule} {head : TokenLine} {lines : List TokenLine}
      (hhead : IsStatement s (.openBlock column) head.tokens)
      (hrules : List.Forall₂ (IsRuleLine s catalog) rules lines) :
      IsUnit s catalog (.block column rules) (head :: lines)
  | conditional {name : String} {a c : ClauseText} {head : TokenLine} {lines : List TokenLine}
      (hhead : IsStatement s (.openConditional name) head.tokens)
      (hlines : IsConditional s catalog a c lines) :
      IsUnit s catalog (.conditional ⟨name, ⟨a.1, a.2⟩, ⟨c.1, c.2⟩, some head.number⟩)
        (head :: lines)

/-- A unit is one under all settings that its lines are read alike under. -/
theorem IsUnit.alike {k : Contribution} (h : IsUnit s catalog k lines)
    (ha : LinesAlike s s' lines) : IsUnit s' catalog k lines := by
  have hrules : ∀ {rules lines}, List.Forall₂ (IsRuleLine s catalog) rules lines →
      LinesAlike s s' lines → List.Forall₂ (IsRuleLine s' catalog) rules lines := by
    intro rules lines h ha
    induction h with
    | nil => exact .nil
    | cons hrule _ ih =>
      exact .cons ⟨hrule.1.alike (ha.tokens (by simp)), hrule.2⟩
        (ih (ha.mono (List.subset_cons_self _ _)))
  have htail : ∀ {head lines}, LinesAlike s s' (head :: lines) → LinesAlike s s' lines :=
    fun ha => ha.mono (List.subset_cons_self _ _)
  cases h with
  | declaration hst h => exact .declaration (hst.alike (ha.tokens (by simp))) h
  | block hhead h => exact .block (hhead.alike (ha.tokens (by simp))) (hrules h (htail ha))
  | conditional hhead h =>
    exact .conditional (hhead.alike (ha.tokens (by simp))) (h.alike (htail ha))

/-! ### Texts -/

/-- The separator in force after a unit. -/
def Contribution.separatorAfter (sep : Option Separator) : Contribution → Option Separator
  | .declaration (.separator text) => Separator.ofText? text
  | _ => sep

/-- The separator in force after units. -/
def separatorAfter (sep : Option Separator) (units : List TextUnit) : Option Separator :=
  units.foldl (fun sep u => u.contribution.separatorAfter sep) sep

/-- Units that are a rules text, where a given separator is in force before the first one. -/
inductive IsText (catalog : Catalog) : Option Separator → List TextUnit → Prop
  | nil {sep : Option Separator} : IsText catalog sep []
  | cons {sep : Option Separator} {s : Settings} {u : TextUnit} {units : List TextUnit}
      (hs : s.separator = sep) (hu : IsUnit s catalog u.contribution u.lines)
      (h : IsText catalog (u.contribution.separatorAfter sep) units) :
      IsText catalog sep (u :: units)

theorem IsText.append {us vs : List TextUnit} (hus : IsText catalog sep us)
    (hvs : IsText catalog (separatorAfter sep us) vs) : IsText catalog sep (us ++ vs) := by
  induction hus with
  | nil => exact hvs
  | cons hs hu _ ih => exact .cons hs hu (ih hvs)

theorem IsText.concat {us : List TextUnit} {u : TextUnit} (hus : IsText catalog sep us)
    (hs : s.separator = separatorAfter sep us) (hu : IsUnit s catalog u.contribution u.lines) :
    IsText catalog sep (us ++ [u]) :=
  hus.append (.cons hs hu .nil)

/-- The units before and after some place of a text are texts. -/
theorem IsText.of_append {us vs : List TextUnit} (h : IsText catalog sep (us ++ vs)) :
    IsText catalog sep us ∧ IsText catalog (separatorAfter sep us) vs := by
  induction us generalizing sep with
  | nil => exact ⟨.nil, h⟩
  | cons u us ih =>
    cases h with
    | cons hs hu h => exact ⟨.cons hs hu (ih h).1, (ih h).2⟩

/-! ### What units contribute -/

namespace Contribution

/-- The column names that are declared. -/
def names? : Contribution → Option (List String)
  | .declaration (.columnNames names) => some names
  | _ => none

/-- The null values that are declared. -/
def nullValues? : Contribution → Option (List String)
  | .declaration (.nullValues values) => some values
  | _ => none

/-- The separator that is declared, as written. -/
def separator? : Contribution → Option String
  | .declaration (.separator text) => some text
  | _ => none

/-- The precision that is declared. -/
def precision? : Contribution → Option Double
  | .declaration (.precision x) => some x
  | _ => none

/-- The block that is opened, and its rules. -/
def block? : Contribution → Option (String × List Rule)
  | .block column rules => some (column, rules)
  | _ => none

/-- The conditional rule that is stated. -/
def conditional? : Contribution → Option Conditional
  | .conditional c => some c
  | _ => none

end Contribution

open Contribution

/-- A draft has collected contributions: each field is what they declare, in their order. What can
be declared once only has been declared at most once. -/
structure Draft.Collects (d : Draft) (ks : List Contribution) : Prop where
  names : d.names.toList = ks.filterMap names?
  nullValues : d.nullValues.toList = ks.filterMap nullValues?
  separator : d.separator.toList = (ks.filterMap separator?).map Separator.ofText?
  precision : d.precision.toList = (ks.filterMap precision?).map Number.real
  allRequired : d.allRequired = true ↔ .declaration .requireAll ∈ ks
  noExtra : d.noExtra = true ↔ .declaration .forbidExtra ∈ ks
  checkOrder : d.checkOrder = true ↔ .declaration .keepOrder ∈ ks
  blocks : d.blocks = ks.filterMap block?
  conditionals : d.conditionals = ks.filterMap conditional?

namespace Draft

variable {d d' : Draft} {ks : List Contribution} {k : Contribution}

theorem collects_empty (formats : Option (List String)) :
    Collects { empty with dateFormats := formats } [] := by
  constructor <;> simp [empty]

private theorem filterMap_concat {α : Type} (f : Contribution → Option α) :
    (ks ++ [k]).filterMap f = ks.filterMap f ++ (f k).toList := by
  rw [List.filterMap_append]
  cases hf : f k <;> simp [hf]

/-- One more contribution is collected by a draft whose fields take what it declares. -/
private theorem Collects.concat (h : d.Collects ks)
    (hfields : d'.names.toList = d.names.toList ++ k.names?.toList ∧
      d'.nullValues.toList = d.nullValues.toList ++ k.nullValues?.toList ∧
      d'.separator.toList = d.separator.toList ++ k.separator?.toList.map Separator.ofText? ∧
      d'.precision.toList = d.precision.toList ++ k.precision?.toList.map Number.real ∧
      (d'.allRequired = true ↔ d.allRequired = true ∨ k = .declaration .requireAll) ∧
      (d'.noExtra = true ↔ d.noExtra = true ∨ k = .declaration .forbidExtra) ∧
      (d'.checkOrder = true ↔ d.checkOrder = true ∨ k = .declaration .keepOrder) ∧
      d'.blocks = d.blocks ++ k.block?.toList ∧
      d'.conditionals = d.conditionals ++ k.conditional?.toList) :
    d'.Collects (ks ++ [k]) := by
  have hmem : ∀ m, m ∈ ks ++ [k] ↔ m ∈ ks ∨ k = m := by
    intro m
    rw [List.mem_append, List.mem_singleton, @eq_comm _ m]
  obtain ⟨h1, h2, h3, h4, h5, h6, h7, h8, h9⟩ := hfields
  refine ⟨?_, ?_, ?_, ?_, ?_, ?_, ?_, ?_, ?_⟩
  · rw [h1, filterMap_concat, h.names]
  · rw [h2, filterMap_concat, h.nullValues]
  · rw [h3, filterMap_concat, h.separator, List.map_append]
  · rw [h4, filterMap_concat, h.precision, List.map_append]
  · rw [h5, hmem, h.allRequired]
  · rw [h6, hmem, h.noExtra]
  · rw [h7, hmem, h.checkOrder]
  · rw [h8, filterMap_concat, h.blocks]
  · rw [h9, filterMap_concat, h.conditionals]

/-- A declaration is collected when it is made. -/
theorem Collects.declaration {st : Statement} (h : d.Collects ks) (hst : st.isDeclaration = true)
    (hd : d.perform st = .ok d') : d'.Collects (ks ++ [.declaration st]) := by
  refine h.concat ?_
  cases st with
  | columnNames names =>
    obtain ⟨hnone, -, rfl⟩ := declareColumns_eq_ok_iff.mp hd
    simp [hnone, names?, nullValues?, separator?, precision?, block?, conditional?]
  | nullValues values =>
    obtain ⟨hnone, rfl⟩ := declareNullValues_eq_ok_iff.mp hd
    simp [hnone, names?, nullValues?, separator?, precision?, block?, conditional?]
  | separator text =>
    obtain ⟨hnone, sep, hsep, rfl⟩ := declareSeparator_some_eq_ok_iff.mp hd
    simp [hnone, hsep, names?, nullValues?, separator?, precision?, block?, conditional?]
  | precision x =>
    obtain ⟨hnone, -, rfl⟩ := declarePrecision_eq_ok_iff.mp hd
    simp [hnone, names?, nullValues?, separator?, precision?, block?, conditional?]
  | requireAll =>
    obtain rfl := Except.ok.inj hd
    simp [requireAll, names?, nullValues?, separator?, precision?, block?, conditional?]
  | forbidExtra =>
    obtain rfl := Except.ok.inj hd
    simp [forbidExtra, names?, nullValues?, separator?, precision?, block?, conditional?]
  | keepOrder =>
    obtain rfl := Except.ok.inj hd
    simp [keepOrder, names?, nullValues?, separator?, precision?, block?, conditional?]
  | openBlock => simp [Statement.isDeclaration] at hst
  | openConditional => simp [Statement.isDeclaration] at hst

/-- A block is collected when its rules stand at the end of the blocks. -/
theorem Collects.block {column : String} {rules : List Rule} (h : d.Collects ks) :
    Collects { d with blocks := d.blocks ++ [(column, rules)] } (ks ++ [.block column rules]) := by
  refine h.concat ?_
  simp [names?, nullValues?, separator?, precision?, block?, conditional?]

/-- Before its last block a draft has collected what came before the block. -/
private theorem Collects.of_block {column : String} {rules rules' : List Rule}
    {init : List (String × List Rule)} (h : d.Collects (ks ++ [.block column rules]))
    (hblocks : d.blocks = init ++ [(column, rules')]) :
    rules' = rules ∧ Collects { d with blocks := init } ks := by
  have hlast := h.blocks
  rw [hblocks, List.filterMap_append] at hlast
  obtain ⟨rfl, hlast⟩ := List.append_inj' hlast rfl
  have hrules : rules' = rules := by simpa [block?] using hlast
  have hother : ∀ {α : Type} (f : Contribution → Option α),
      f (Contribution.block column rules) = none →
        (ks ++ [Contribution.block column rules]).filterMap f = ks.filterMap f := by
    intro α f hf
    rw [filterMap_concat, hf, Option.toList_none, List.append_nil]
  refine ⟨hrules, ?_, ?_, ?_, ?_, ?_, ?_, ?_, rfl, ?_⟩
  · exact h.names.trans (hother names? rfl)
  · exact h.nullValues.trans (hother nullValues? rfl)
  · exact h.separator.trans (congrArg _ (hother separator? rfl))
  · exact h.precision.trans (congrArg _ (hother precision? rfl))
  · simpa using h.allRequired
  · simpa using h.noExtra
  · simpa using h.checkOrder
  · exact h.conditionals.trans (hother conditional? rfl)

/-- A conditional rule is collected when it is added. -/
theorem Collects.conditional {c : Conditional} (h : d.Collects ks) :
    (d.withConditional c).Collects (ks ++ [.conditional c]) := by
  refine h.concat ?_
  simp [withConditional, names?, nullValues?, separator?, precision?, block?, conditional?]

end Draft

/-! ### Reading units -/

/-- The separator in force is the declared one. -/
theorem RulesReader.separator_of_settings {r : RulesReader} (h : r.settings = .ok s) :
    s.separator = r.draft.separator.join :=
  (Draft.settings_eq_ok_iff.mp (RulesReader.settings_eq_ok_iff.mp h)).2.1

theorem separatorAfter_concat {us : List TextUnit} {u : TextUnit} :
    separatorAfter sep (us ++ [u]) = u.contribution.separatorAfter (separatorAfter sep us) := by
  rw [separatorAfter, List.foldl_append]
  rfl

/-- A declaration changes the separator exactly if it declares one. -/
theorem Draft.separator_perform {d d' : Draft} {st : Statement} (h : d.perform st = .ok d') :
    d'.separator.join = (Contribution.declaration st).separatorAfter d.separator.join := by
  cases st with
  | columnNames =>
    obtain ⟨-, -, rfl⟩ := Draft.declareColumns_eq_ok_iff.mp h
    rfl
  | nullValues =>
    obtain ⟨-, rfl⟩ := Draft.declareNullValues_eq_ok_iff.mp h
    rfl
  | separator =>
    obtain ⟨-, sep, hsep, rfl⟩ := Draft.declareSeparator_some_eq_ok_iff.mp h
    exact hsep.symm
  | precision =>
    obtain ⟨-, -, rfl⟩ := Draft.declarePrecision_eq_ok_iff.mp h
    rfl
  | openBlock =>
    obtain ⟨-, rfl⟩ := Draft.beginColumn_eq_ok_iff.mp h
    rfl
  | openConditional =>
    obtain ⟨-, rfl⟩ := Draft.perform_openConditional_eq_ok_iff.mp h
    rfl
  | _ => exact Except.ok.inj h ▸ rfl

/-- What a position says about the units that have been read and the lines after them: an open block
is the last unit, and the lines after the units are those of an unfinished conditional rule. -/
def Position.Holds (catalog : Catalog) (units : List TextUnit) (pending : List TokenLine) :
    Position → Prop
  | .inBlock column => pending = [] ∧
      ∃ init rules lines, units = init ++ [⟨.block column rules, lines⟩]
  | .inConditional p => ∃ s head used, s.separator = separatorAfter none units ∧
      pending = head :: used ∧ IsStatement s (.openConditional p.name) head.tokens ∧
      p.line = head.number ∧ p.stage.Reached s catalog used
  | _ => pending = []

namespace RulesReader

variable {r r' : RulesReader}

/-- A reader has read lines: they are units whose contributions its draft has collected, and then
the lines of an unfinished conditional rule. -/
structure HasRead (catalog : Catalog) (lines : List TokenLine) (r : RulesReader)
    (units : List TextUnit) (pending : List TokenLine) : Prop where
  lines_eq : lines = units.flatMap TextUnit.lines ++ pending
  isText : IsText catalog none units
  collects : r.draft.Collects (units.map TextUnit.contribution)
  separator : r.draft.separator.join = separatorAfter none units
  place : r.place.Holds catalog units pending

theorem hasRead_start (formats : Option Catalog) : HasRead catalog [] (start formats) [] [] :=
  ⟨rfl, .nil, Draft.collects_empty _, rfl, rfl⟩

/-- A statement is a new unit, or the head of an unfinished conditional rule. -/
private theorem HasRead.statement {units : List TextUnit} {st : Statement} {d : Draft}
    (h : HasRead catalog lines r units []) (hs : r.settings = .ok s)
    (hst : IsStatement s st line.tokens) (hd : r.draft.perform st = .ok d) :
    ∃ units' pending', HasRead catalog (lines ++ [line]) ⟨d, st.place line.number⟩ units'
      pending' := by
  have hsep : s.separator = separatorAfter none units :=
    (separator_of_settings hs).trans h.separator
  have hlines := h.lines_eq
  rw [List.append_nil] at hlines
  by_cases hdecl : st.isDeclaration = true
  · refine ⟨units ++ [⟨.declaration st, [line]⟩], [], ?_,
      h.isText.concat hsep (.declaration hst hdecl), ?_, ?_, ?_⟩
    · simp [hlines]
    · rw [List.map_append]
      exact h.collects.declaration hdecl hd
    · rw [separatorAfter_concat, ← h.separator]
      exact Draft.separator_perform hd
    · cases st with
      | openBlock => simp [Statement.isDeclaration] at hdecl
      | openConditional => simp [Statement.isDeclaration] at hdecl
      | _ => rfl
  cases st with
  | openBlock column =>
    obtain ⟨-, rfl⟩ := Draft.beginColumn_eq_ok_iff.mp hd
    refine ⟨units ++ [⟨.block column [], [line]⟩], [], ?_, h.isText.concat hsep (.block hst .nil),
      ?_, ?_, rfl, units, [], [line], rfl⟩
    · simp [hlines]
    · rw [List.map_append]
      exact h.collects.block
    · rw [separatorAfter_concat, ← h.separator]
      rfl
  | openConditional name =>
    obtain ⟨-, rfl⟩ := Draft.perform_openConditional_eq_ok_iff.mp hd
    exact ⟨units, [line], by rw [hlines], h.isText, h.collects, h.separator, s, line, [], hsep, rfl,
      hst, rfl, rfl⟩
  | _ => simp [Statement.isDeclaration] at hdecl

/-- A rule belongs to the last unit, which is the open block. -/
private theorem HasRead.rule {units : List TextUnit} {pending : List TokenLine} {column : String}
    {c : Constraint} (h : HasRead catalog lines r units pending) (hr : r.WellFormed)
    (hplace : r.place = .inBlock column) (hs : r.settings = .ok s)
    (hc : IsRule s catalog c line.tokens) :
    ∃ units', HasRead catalog (lines ++ [line]) (r.withRule column ⟨c, some line.number⟩) units'
      [] := by
  have hsep : s.separator = separatorAfter none units :=
    (separator_of_settings hs).trans h.separator
  have hholds := h.place
  rw [hplace] at hholds
  obtain ⟨rfl, before, rules, ls, rfl⟩ := hholds
  rw [separatorAfter_concat] at hsep
  have hcollects := h.collects
  rw [List.map_append] at hcollects
  -- the draft before the open block has collected the units before it
  obtain ⟨init, rules', hblocks, -, heq⟩ := hr.withRule_eq hplace ⟨c, some line.number⟩
  obtain ⟨rfl, hinit⟩ := hcollects.of_block hblocks
  obtain ⟨hbefore, hlast⟩ := h.isText.of_append
  cases hlast with
  | @cons _ s' _ _ hs' hu _ =>
    cases hu with
    | @block _ _ head tail hhead hrules =>
      -- no separator is declared inside a block, so its head and this line are read alike
      have halike : ReadsAlike s s' line.tokens := .inl (hsep.trans hs'.symm)
      have hunit : IsUnit s' catalog (.block column (rules' ++ [⟨c, some line.number⟩]))
          (head :: (tail ++ [line])) :=
        .block hhead (List.rel_append hrules (.cons ⟨hc.alike halike, rfl⟩ .nil))
      refine ⟨before ++ [⟨.block column (rules' ++ [⟨c, some line.number⟩]),
        head :: (tail ++ [line])⟩], ?_, hbefore.concat hs' hunit, ?_, ?_, ?_⟩
      · rw [h.lines_eq]
        simp
      · rw [List.map_append, heq]
        exact hinit.block
      · rw [separatorAfter_concat, heq]
        have hjoin := h.separator
        rw [separatorAfter_concat] at hjoin
        exact hjoin
      · have hplace' : (r.withRule column ⟨c, some line.number⟩).place = .inBlock column := hplace
        rw [hplace']
        exact ⟨rfl, before, _, _, rfl⟩

/-- A line of an unfinished conditional rule belongs to it, and its last one makes it a unit. -/
private theorem HasRead.section {units : List TextUnit} {pending : List TokenLine} {p : Pending}
    (h : HasRead catalog lines r units pending) (hplace : r.place = .inConditional p)
    (hstep : Step catalog r line r') :
    ∃ units' pending', HasRead catalog (lines ++ [line]) r' units' pending' := by
  have hholds := h.place
  rw [hplace] at hholds
  obtain ⟨s, head, used, hs, rfl, hhead, hn, hreached⟩ := hholds
  have hclauses : ∀ {s' clause ts}, r.settings = .ok s' →
      IsClause s' catalog line.number clause ts → IsClause s catalog line.number clause ts := by
    intro s' clause ts hs' hclause
    -- no separator is declared after the head of the rule
    have hsep := ((separator_of_settings hs').trans h.separator).trans hs.symm
    exact hclause.alike (.inl hsep)
  have hpending : lines ++ [line] = units.flatMap TextUnit.lines ++ head :: (used ++ [line]) := by
    rw [h.lines_eq, List.append_assoc, List.cons_append]
  cases hstep with
  | statement hplace' => exact absurd hplace (hplace' p)
  | rule hplace' => simp [hplace] at hplace'
  | word hplace' hstage ht hline =>
    obtain rfl := Position.inConditional.inj (hplace.symm.trans hplace')
    exact ⟨units, _, hpending, h.isText, h.collects, h.separator, s, head, _, hs, rfl, hhead, hn,
      hreached.enter hstage ⟨_, hline, ht⟩⟩
  | antecedent hplace' hs' hlead hclause hline =>
    obtain rfl := Position.inConditional.inj (hplace.symm.trans hplace')
    exact ⟨units, _, hpending, h.isText, h.collects, h.separator, s, head, _, hs, rfl, hhead, hn,
      hreached.antecedent hlead (hclauses hs' hclause) hline⟩
  | @consequent _ _ _ _ a clause _ hplace' hs' hlead hclause hline hd =>
    obtain rfl := Position.inConditional.inj (hplace.symm.trans hplace')
    obtain ⟨-, -, -, -, rfl⟩ := Draft.addConditional_eq_ok_iff.mp hd
    have hunit := IsUnit.conditional hhead
      (hreached.consequent hlead (hclauses hs' hclause) hline)
    refine ⟨units ++ [⟨.conditional ⟨p.name, ⟨a.1, a.2⟩, ⟨clause.1, clause.2⟩, some p.line⟩,
      head :: (used ++ [line])⟩], [], ?_, h.isText.concat hs (hn ▸ hunit), ?_, ?_, rfl⟩
    · rw [hpending]
      simp
    · rw [List.map_append]
      exact h.collects.conditional
    · rw [separatorAfter_concat, ← h.separator]
      rfl

/-- **Every step keeps to the grammar of units.** -/
theorem HasRead.step {units : List TextUnit} {pending : List TokenLine}
    (h : HasRead catalog lines r units pending) (hr : r.WellFormed)
    (hstep : Step catalog r line r') :
    ∃ units' pending', HasRead catalog (lines ++ [line]) r' units' pending' := by
  cases hplace : r.place with
  | inConditional p => exact h.section hplace hstep
  | inBlock column =>
    cases hstep with
    | statement _ hs hst hd =>
      have hholds := h.place
      rw [hplace] at hholds
      obtain ⟨rfl, -⟩ := hholds
      exact h.statement hs hst hd
    | rule hplace' hs hc =>
      obtain ⟨units', h'⟩ := h.rule hr hplace' hs hc
      exact ⟨units', [], h'⟩
    | word hplace' => simp [hplace] at hplace'
    | antecedent hplace' => simp [hplace] at hplace'
    | consequent hplace' => simp [hplace] at hplace'
  | _ =>
    have hnil : pending = [] := by
      have hholds := h.place
      rwa [hplace] at hholds
    subst hnil
    cases hstep with
    | statement _ hs hst hd => exact h.statement hs hst hd
    | rule hplace' => simp [hplace] at hplace'
    | word hplace' => simp [hplace] at hplace'
    | antecedent hplace' => simp [hplace] at hplace'
    | consequent hplace' => simp [hplace] at hplace'

/-- **What has been read** of a text are units whose contributions the draft has collected, and
then the lines of an unfinished conditional rule. -/
theorem exists_isText {formats : Option Catalog} (hspaces : ∀ line ∈ lines, NoSpaces line.tokens)
    (h : lines.foldlM (readLine catalog) (start formats) = .ok r) :
    r.WellFormed ∧ ∃ units pending, HasRead catalog lines r units pending := by
  refine foldlM_induction (motive := fun lines r => ∃ units pending,
    HasRead catalog lines r units pending) hspaces (wellFormed_start formats) h
    ⟨[], [], hasRead_start formats⟩ ?_
  rintro before line r r' hr ⟨units, pending, hread⟩ hstep
  exact hread.step hr hstep

end RulesReader

end TableRules
