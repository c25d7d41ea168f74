import TableRules.Proofs.RulesText.ParsedRulesets

/-!
# Reading a text unit by unit

To read a unit is to add its contribution to the draft, or to refuse it (`Draft.Takes`,
`IsUnit.foldlM_eq_ok_iff`). Nothing else is carried from one unit to the next, so a text is read
exactly if its contributions are taken one after another (`IsText.foldlM_eq_ok_iff`).
-/

namespace TableRules

open Tokens Result Contribution

variable {s : Settings} {catalog : Catalog} {line : TokenLine} {lines : List TokenLine}
  {r r' : RulesReader} {d d' : Draft} {k : Contribution} {ks : List Contribution}

/-! ### Lines outside conditional rules -/

namespace RulesReader

/-- A statement is read exactly if its declaration is accepted. -/
theorem readLine_statement_iff {st : Statement} (hspaces : NoSpaces line.tokens)
    (hs : r.settings = .ok s) (hplace : ∀ p, r.place ≠ .inConditional p)
    (hst : IsStatement s st line.tokens) :
    readLine catalog r line = .ok r' ↔
      ∃ d, r.draft.perform st = .ok d ∧ r' = ⟨d, st.place line.number⟩ := by
  rw [readLine_eq_ok_iff hspaces hs]
  constructor
  · intro h
    cases h with
    | statement _ hs' hst' hd =>
      obtain rfl := Except.ok.inj (hs.symm.trans hs')
      obtain rfl := hst.unique hst'
      exact ⟨_, hd, rfl⟩
    | rule _ hs' hc =>
      obtain rfl := Except.ok.inj (hs.symm.trans hs')
      have hnone := hc.1.read?_eq_none
      simp [hst.read?_eq_some] at hnone
    | word h => exact absurd h (hplace _)
    | antecedent h => exact absurd h (hplace _)
    | consequent h => exact absurd h (hplace _)
  · rintro ⟨d, hd, rfl⟩
    exact .statement hplace hs hst hd

/-- A rule in a block is read exactly if the block has room for it. -/
theorem readLine_rule_iff {column : String} {c : Constraint} (hspaces : NoSpaces line.tokens)
    (hs : r.settings = .ok s) (hplace : r.place = .inBlock column)
    (hc : IsRule s catalog c line.tokens) :
    readLine catalog r line = .ok r' ↔
      r.HasRoom column c ∧ r' = r.withRule column ⟨c, some line.number⟩ := by
  rw [readLine_eq_ok_iff hspaces hs]
  constructor
  · intro h
    cases h with
    | statement _ hs' hst =>
      obtain rfl := Except.ok.inj (hs.symm.trans hs')
      have hnone := hc.1.read?_eq_none
      simp [hst.read?_eq_some] at hnone
    | rule hplace' hs' hc' hroom =>
      obtain rfl := Except.ok.inj (hs.symm.trans hs')
      obtain rfl := Position.inBlock.inj (hplace.symm.trans hplace')
      obtain rfl := hc.1.unique hc'.1
      exact ⟨hroom, rfl⟩
    | word h => simp [hplace] at h
    | antecedent h => simp [hplace] at h
    | consequent h => simp [hplace] at h
  · rintro ⟨hroom, rfl⟩
    exact .rule hplace hs hc hroom

end RulesReader

/-! ### What a contribution does -/

/-- A draft takes a contribution: a declaration that is accepted, a block of a new column with at
most one value type, or a conditional rule of a new name. -/
def Draft.Takes (d : Draft) : Contribution → Draft → Prop
  | .declaration st, d' => st.isDeclaration = true ∧ d.perform st = .ok d'
  | .block column rules, d' => column ∉ d.blocks.map Prod.fst ∧
      (rules.filter Rule.declaresType).length ≤ 1 ∧
        d' = { d with blocks := d.blocks ++ [(column, rules)] }
  | .conditional c, d' => c.name ∉ d.conditionals.map Conditional.name ∧ c.name ≠ "" ∧
      (∀ clause ∈ c.clauses, clause.column ≠ "") ∧ d' = d.withConditional c

/-- A draft takes contributions one after another. -/
def Draft.TakesAll (d : Draft) : List Contribution → Draft → Prop
  | [], d' => d' = d
  | k :: ks, d' => ∃ middle : Draft, d.Takes k middle ∧ middle.TakesAll ks d'

theorem Draft.takesAll_concat :
    d.TakesAll (ks ++ [k]) d' ↔ ∃ middle : Draft, d.TakesAll ks middle ∧ middle.Takes k d' := by
  induction ks generalizing d with
  | nil =>
    simp only [List.nil_append, TakesAll, exists_eq_left]
    constructor
    · rintro ⟨middle, h, rfl⟩
      exact h
    · exact fun h => ⟨d', h, rfl⟩
  | cons k' ks ih =>
    simp only [List.cons_append, TakesAll, ih]
    constructor
    · rintro ⟨first, hfirst, middle, hmiddle, h⟩
      exact ⟨middle, ⟨first, hfirst, hmiddle⟩, h⟩
    · rintro ⟨middle, ⟨first, hfirst, hmiddle⟩, h⟩
      exact ⟨first, hfirst, middle, hmiddle, h⟩

/-- A draft that has taken contributions has collected them. -/
theorem Draft.TakesAll.collects {formats : Option (List String)}
    (h : TakesAll { empty with dateFormats := formats } ks d) : d.Collects ks := by
  induction ks using List.reverseRecOn generalizing d with
  | nil =>
    obtain rfl : d = _ := h
    exact collects_empty formats
  | append_singleton ks k ih =>
    obtain ⟨middle, hmiddle, h⟩ := takesAll_concat.mp h
    cases k with
    | declaration st => exact (ih hmiddle).declaration h.1 h.2
    | block column rules =>
      obtain ⟨-, -, rfl⟩ := h
      exact (ih hmiddle).block
    | conditional c =>
      obtain ⟨-, -, -, rfl⟩ := h
      exact (ih hmiddle).conditional

/-- Where the lines after a unit stand. -/
def Contribution.place : Contribution → Position
  | .declaration _ => .outside
  | .block column _ => .inBlock column
  | .conditional c => .afterConditional c.name

/-! ### Reading units -/

namespace RulesReader

variable {column : String} {rules more : List Rule} {init : List (String × List Rule)}

/-- A block has room for a rule exactly if it has at most one value type with it. -/
private theorem hasRoom_iff (rule : Rule) (hrules : r.draft.rules? column = some rules)
    (htypes : (rules.filter Rule.declaresType).length ≤ 1) :
    r.HasRoom column rule.constraint ↔
      ((rules ++ [rule]).filter Rule.declaresType).length ≤ 1 := by
  rw [HasRoom, hrules, Option.getD_some, List.filter_append, List.length_append]
  change (rule.declaresType = true → _) ↔ _
  by_cases htype : rule.declaresType = true
  · have hnone : (∀ r ∈ rules, r.declaresType = false) ↔
        (rules.filter Rule.declaresType).length = 0 := by
      rw [List.length_eq_zero_iff, List.filter_eq_nil_iff]
      simp only [Bool.not_eq_true]
    rw [List.filter_cons_of_pos htype, hnone, List.filter_nil, List.length_singleton]
    simp only [htype, true_imp_iff]
    omega
  · simp [htype, htypes]

/-- The rules of a block are read exactly if they declare at most one value type. -/
private theorem foldlM_rules (hspaces : ∀ line ∈ lines, NoSpaces line.tokens)
    (hs : r.settings = .ok s) (hplace : r.place = .inBlock column)
    (hcolumn : column ∉ init.map Prod.fst) (hblocks : r.draft.blocks = init ++ [(column, rules)])
    (htypes : (rules.filter Rule.declaresType).length ≤ 1)
    (hlines : List.Forall₂ (IsRuleLine s catalog) more lines) :
    lines.foldlM (readLine catalog) r = .ok r' ↔
      ((rules ++ more).filter Rule.declaresType).length ≤ 1 ∧
        r' = { r with draft := { r.draft with blocks := init ++ [(column, rules ++ more)] } } := by
  induction hlines generalizing r rules with
  | nil =>
    rw [List.append_nil, ← hblocks]
    simp only [List.foldlM_nil, pure, Except.pure, Except.ok.injEq]
    exact ⟨fun h => ⟨htypes, h.symm⟩, fun h => h.2.symm⟩
  | @cons rule line more lines hrule _ ih =>
    obtain ⟨hspace, hspaces⟩ := List.forall_mem_cons.mp hspaces
    obtain ⟨hc, hnumber⟩ := hrule
    -- with one rule more the block is still the last one
    have hadded : r.withRule column ⟨rule.constraint, some line.number⟩
        = { r with draft := { r.draft with blocks := init ++ [(column, rules ++ [rule])] } } := by
      have hrule : (⟨rule.constraint, some line.number⟩ : Rule) = rule := by rw [← hnumber]
      rw [hrule, withRule, hblocks, Draft.appendRule_concat hcolumn]
    have hroom := hasRoom_iff rule (Draft.rules?_concat hcolumn hblocks) htypes
    have hrest : ((rules ++ [rule]).filter Rule.declaresType).length ≤ 1 →
        (lines.foldlM (readLine catalog) { r with draft :=
          { r.draft with blocks := init ++ [(column, rules ++ [rule])] } } = .ok r' ↔ _) :=
      fun htypes' => ih hspaces hs hplace rfl htypes'
    rw [List.foldlM_cons, bind_eq_ok_iff, List.append_cons rules]
    simp only [readLine_rule_iff hspace hs hplace hc, hadded, hroom]
    constructor
    · rintro ⟨_, ⟨htypes', rfl⟩, hread⟩
      exact (hrest htypes').mp hread
    · rintro ⟨hall, rfl⟩
      have htypes' : ((rules ++ [rule]).filter Rule.declaresType).length ≤ 1 := by
        have hsub := (List.sublist_append_left (rules ++ [rule]) more).filter Rule.declaresType
        exact hsub.length_le.trans hall
      exact ⟨_, ⟨htypes', rfl⟩, (hrest htypes').mpr ⟨hall, rfl⟩⟩

/-- A declaration is read exactly if the draft takes it. -/
private theorem readLine_declaration {st : Statement} {line : TokenLine}
    (hspace : NoSpaces line.tokens) (hs : r.settings = .ok s)
    (hplace : ∀ p, r.place ≠ .inConditional p) (hst : IsStatement s st line.tokens)
    (hdecl : st.isDeclaration = true) :
    [line].foldlM (readLine catalog) r = .ok r' ↔
      ∃ d, r.draft.Takes (.declaration st) d ∧ r' = ⟨d, .outside⟩ := by
  have hout : st.place line.number = .outside := by
    cases st with
    | openBlock => simp [Statement.isDeclaration] at hdecl
    | openConditional => simp [Statement.isDeclaration] at hdecl
    | _ => rfl
  rw [List.foldlM_cons]
  simp only [List.foldlM_nil, bind_pure, readLine_statement_iff hspace hs hplace hst, hout,
    Draft.Takes, hdecl, true_and]

/-- The lines of a block are read exactly if the draft takes the block. -/
private theorem foldlM_block {head : TokenLine}
    (hspaces : ∀ line ∈ head :: lines, NoSpaces line.tokens) (hs : r.settings = .ok s)
    (hplace : ∀ p, r.place ≠ .inConditional p)
    (hhead : IsStatement s (.openBlock column) head.tokens)
    (hrules : List.Forall₂ (IsRuleLine s catalog) rules lines) :
    (head :: lines).foldlM (readLine catalog) r = .ok r' ↔
      ∃ d, r.draft.Takes (.block column rules) d ∧ r' = ⟨d, .inBlock column⟩ := by
  obtain ⟨hspace, hspaces⟩ := List.forall_mem_cons.mp hspaces
  have htypes : (([] : List Rule).filter Rule.declaresType).length ≤ 1 := by simp
  have hrest : column ∉ r.draft.blocks.map Prod.fst →
      (lines.foldlM (readLine catalog)
        ⟨{ r.draft with blocks := r.draft.blocks ++ [(column, [])] }, .inBlock column⟩
          = .ok r' ↔ _) :=
    fun hnew => foldlM_rules hspaces hs rfl hnew rfl htypes hrules
  rw [List.foldlM_cons, bind_eq_ok_iff]
  simp only [readLine_statement_iff hspace hs hplace hhead, Draft.perform,
    Draft.beginColumn_eq_ok_iff, Draft.Takes, Statement.place]
  constructor
  · rintro ⟨_, ⟨_, ⟨hnew, rfl⟩, rfl⟩, hread⟩
    obtain ⟨htypes, rfl⟩ := (hrest hnew).mp hread
    exact ⟨_, ⟨hnew, htypes, rfl⟩, rfl⟩
  · rintro ⟨_, ⟨hnew, htypes, rfl⟩, rfl⟩
    exact ⟨_, ⟨_, ⟨hnew, rfl⟩, rfl⟩, (hrest hnew).mpr ⟨htypes, rfl⟩⟩

/-- The lines of a conditional rule are read exactly if the draft takes the rule. -/
private theorem foldlM_conditional {head : TokenLine} {name : String} {a c : ClauseText}
    (hspaces : ∀ line ∈ head :: lines, NoSpaces line.tokens) (hs : r.settings = .ok s)
    (hplace : ∀ p, r.place ≠ .inConditional p)
    (hhead : IsStatement s (.openConditional name) head.tokens)
    (hlines : IsConditional s catalog a c lines) :
    (head :: lines).foldlM (readLine catalog) r = .ok r' ↔
      ∃ d, r.draft.Takes (.conditional ⟨name, ⟨a.1, a.2⟩, ⟨c.1, c.2⟩, some head.number⟩) d ∧
        r' = ⟨d, .afterConditional name⟩ := by
  obtain ⟨hspace, hspaces⟩ := List.forall_mem_cons.mp hspaces
  have hname : name ≠ "" := IsStatement.name_ne (.inr hhead)
  have hcolumns : ∀ clause ∈ [(⟨a.1, a.2⟩ : Clause), ⟨c.1, c.2⟩], clause.column ≠ "" := by
    obtain ⟨hif, -, hthen⟩ := hlines
    simp [hif.column_ne, hthen.column_ne]
  -- the head leaves the draft as it is, so the last line is what stores the rule
  have hrest : name ∉ r.draft.conditionals.map Conditional.name →
      lines.foldlM (readLine catalog) (r.atStage name head.number .opened) = _ :=
    fun hnew => foldlM_isConditional hs hspaces hlines hnew hname
  rw [List.foldlM_cons, bind_eq_ok_iff]
  simp only [readLine_statement_iff hspace hs hplace hhead,
    Draft.perform_openConditional_eq_ok_iff, Draft.Takes, Statement.place]
  constructor
  · rintro ⟨_, ⟨_, ⟨hnew, rfl⟩, rfl⟩, hread⟩
    obtain rfl := Except.ok.inj ((hrest hnew).symm.trans hread)
    exact ⟨_, ⟨hnew, hname, hcolumns, rfl⟩, rfl⟩
  · rintro ⟨_, ⟨hnew, -, -, rfl⟩, rfl⟩
    exact ⟨_, ⟨_, ⟨hnew, rfl⟩, rfl⟩, hrest hnew⟩

end RulesReader

open RulesReader

/-- **A unit is read** exactly if the draft takes its contribution. -/
theorem IsUnit.foldlM_eq_ok_iff (hspaces : ∀ line ∈ lines, NoSpaces line.tokens)
    (hs : r.settings = .ok s) (hplace : ∀ p, r.place ≠ .inConditional p)
    (h : IsUnit s catalog k lines) :
    lines.foldlM (readLine catalog) r = .ok r' ↔ ∃ d, r.draft.Takes k d ∧ r' = ⟨d, k.place⟩ := by
  cases h with
  | declaration hst hdecl =>
    exact readLine_declaration (hspaces _ List.mem_cons_self) hs hplace hst hdecl
  | block hhead hrules => exact foldlM_block hspaces hs hplace hhead hrules
  | conditional hhead hlines => exact foldlM_conditional hspaces hs hplace hhead hlines

/-! ### Reading texts -/

/-- A contribution changes the separator exactly if it declares one. -/
theorem Draft.Takes.separator_eq (h : d.Takes k d') :
    d'.separator.join = k.separatorAfter d.separator.join := by
  cases k with
  | declaration st => exact separator_perform h.2
  | block =>
    obtain ⟨-, -, rfl⟩ := h
    rfl
  | conditional =>
    obtain ⟨-, -, -, rfl⟩ := h
    rfl

/-- **A text is read** exactly if the draft takes the contributions of its units, one after
another. -/
theorem IsText.foldlM_eq_ok_iff {sep : Option Separator} {units : List TextUnit}
    (hspaces : ∀ line ∈ units.flatMap TextUnit.lines, NoSpaces line.tokens) (hr : r.WellFormed)
    (hsep : r.draft.separator.join = sep) (hplace : ∀ p, r.place ≠ .inConditional p)
    (h : IsText catalog sep units) :
    (∃ place, (units.flatMap TextUnit.lines).foldlM (readLine catalog) r = .ok ⟨d, place⟩ ∧
        ∀ p, place ≠ .inConditional p) ↔
      r.draft.TakesAll (units.map TextUnit.contribution) d := by
  induction h generalizing r with
  | nil =>
    simp only [List.flatMap_nil, List.foldlM_nil, pure, Except.pure, Except.ok.injEq, List.map_nil,
      Draft.TakesAll]
    constructor
    · rintro ⟨place, rfl, -⟩
      rfl
    · rintro rfl
      exact ⟨r.place, rfl, hplace⟩
  | @cons sep s u units hs hu _ ih =>
    rw [List.flatMap_cons, List.forall_mem_append] at hspaces
    obtain ⟨hspace, hspaces⟩ := hspaces
    obtain ⟨s', hs'⟩ := hr.exists_settings
    -- the unit is one under the settings in force, since these have the separator of the text
    have halike : LinesAlike s s' u.lines :=
      .inl (hs.trans (hsep.symm.trans (separator_of_settings hs').symm))
    have hread : ∀ r', u.lines.foldlM (readLine catalog) r = .ok r' ↔
        ∃ d, r.draft.Takes u.contribution d ∧ r' = ⟨d, u.contribution.place⟩ :=
      fun r' => (hu.alike halike).foldlM_eq_ok_iff hspace hs' hplace
    have hrest : ∀ {m}, r.draft.Takes u.contribution m →
        ((∃ place, (units.flatMap TextUnit.lines).foldlM (readLine catalog)
            ⟨m, u.contribution.place⟩ = .ok ⟨d, place⟩ ∧ ∀ p, place ≠ .inConditional p) ↔
          m.TakesAll (units.map TextUnit.contribution) d) := by
      intro m hm
      have hfirst := (hread ⟨m, u.contribution.place⟩).mpr ⟨m, hm, rfl⟩
      have hwell := hr.foldlM hspace hfirst
      refine ih hspaces hwell (hm.separator_eq.trans (by rw [hsep])) fun p => ?_
      cases u.contribution <;> simp [Contribution.place]
    simp only [List.flatMap_cons, List.foldlM_append, List.map_cons, Draft.TakesAll,
      bind_eq_ok_iff, hread]
    constructor
    · rintro ⟨place, ⟨_, ⟨m, hm, rfl⟩, hafter⟩, hout⟩
      exact ⟨m, hm, (hrest hm).mp ⟨place, hafter, hout⟩⟩
    · rintro ⟨m, hm, hall⟩
      obtain ⟨place, hafter, hout⟩ := (hrest hm).mpr hall
      exact ⟨place, ⟨_, ⟨m, hm, rfl⟩, hafter⟩, hout⟩

/-- The draft before the first line of a text. -/
def Draft.blank (catalog : Option Catalog) : Draft :=
  { empty with dateFormats := catalog.map Catalog.names }

/-- **A text of units is parsed** exactly if their contributions are taken one after another and
the columns are named. -/
theorem Ruleset.parse_eq_ok_iff_takesAll {catalog : Option Catalog} {source : String}
    {ruleset : Ruleset} {units : List TextUnit}
    (hlines : tokenLines source = .ok (units.flatMap TextUnit.lines))
    (htext : IsText (catalog.getD .standard) none units) :
    parse catalog source = .ok ruleset ↔
      ∃ d, (Draft.blank catalog).TakesAll (units.map TextUnit.contribution) d ∧
        ∃ s names, d.settings = .ok s ∧ d.names = some names ∧
          d.Finishes s names ruleset := by
  have hspaces := noSpaces_of_tokenLines hlines
  have hread := fun d => htext.foldlM_eq_ok_iff (d := d) hspaces (wellFormed_start catalog) rfl
    (by simp [start])
  rw [parse_eq_ok_iff hlines]
  constructor
  · rintro ⟨r, hr, hplace, hfinished⟩
    exact ⟨r.draft, (hread r.draft).mp ⟨r.place, hr, hplace⟩, hfinished⟩
  · rintro ⟨d, hd, hfinished⟩
    obtain ⟨place, hr, hplace⟩ := (hread d).mpr hd
    exact ⟨⟨d, place⟩, hr, hplace, hfinished⟩

end TableRules
