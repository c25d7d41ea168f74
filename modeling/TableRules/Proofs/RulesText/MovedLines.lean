import TableRules.Proofs.RulesText.ParsedRulesets
import TableRules.Proofs.RulesText.Respelling

/-!
# Moved lines

Line numbers go from the lines of a text into the reader and from there into the ruleset, and
nothing that is read depends on them. So lines that are respelled and stand elsewhere are read into
the same ruleset, with the numbers of the new lines in place of the old ones (`mapLines`).

* A step stays a step when its line and its reader are moved (`RulesReader.Step.mapLines`).
* What a step preserves, a run of steps preserves (`RulesReader.foldlM_readLine_mapLines`).
-/

namespace TableRules

open Tokens Result

variable {s : Settings} {catalog : Catalog} {c : Constraint} {ts ts' before : List Token}
  {f : Int → Int} {d d' : Draft} {r r' : RulesReader} {line line' : TokenLine}
  {lines lines' : List TokenLine} {column : String} {clause : ClauseText} {p : Pending}

/-! ### Changing line numbers -/

/-- A rule with another line number. -/
def Rule.mapLines (f : Int → Int) (rule : Rule) : Rule := { rule with line := rule.line.map f }

/-- A block with other line numbers. -/
def Block.mapLines (f : Int → Int) (b : Block) : Block :=
  { b with rules := b.rules.map (Rule.mapLines f) }

/-- A clause with another line number. -/
def Clause.mapLines (f : Int → Int) (c : Clause) : Clause := { c with rule := c.rule.mapLines f }

/-- A conditional rule with other line numbers. -/
def Conditional.mapLines (f : Int → Int) (c : Conditional) : Conditional :=
  ⟨c.name, c.antecedent.mapLines f, c.consequent.mapLines f, c.line.map f⟩

/-- A ruleset with other line numbers. -/
def Ruleset.mapLines (f : Int → Int) (ruleset : Ruleset) : Ruleset :=
  { ruleset with
    blocks := ruleset.blocks.map (Block.mapLines f)
    conditionals := ruleset.conditionals.map (Conditional.mapLines f)
    blocks_nodup := by
      rw [List.map_map]
      exact ruleset.blocks_nodup
    conditionals_nodup := by
      rw [List.map_map]
      exact ruleset.conditionals_nodup }

/-- A clause as it has been read, with another line number. -/
def ClauseText.mapLines (f : Int → Int) (clause : ClauseText) : ClauseText :=
  (clause.1, clause.2.mapLines f)

/-- A stage of a conditional rule with another line number. -/
def Stage.mapLines (f : Int → Int) : Stage → Stage
  | .opened => .opened
  | .inIf => .inIf
  | .afterIf a => .afterIf (a.mapLines f)
  | .inThen a => .inThen (a.mapLines f)

/-- An unfinished conditional rule with other line numbers. -/
def Pending.mapLines (f : Int → Int) (p : Pending) : Pending :=
  ⟨p.name, f p.line, p.stage.mapLines f⟩

/-- A place in a text with other line numbers. -/
def Position.mapLines (f : Int → Int) : Position → Position
  | .inConditional p => .inConditional (p.mapLines f)
  | place => place

/-- A draft with other line numbers. -/
def Draft.mapLines (f : Int → Int) (d : Draft) : Draft :=
  { d with
    blocks := d.blocks.map fun e => (e.1, e.2.map (Rule.mapLines f))
    conditionals := d.conditionals.map (Conditional.mapLines f) }

/-- A reader with other line numbers. -/
def RulesReader.mapLines (f : Int → Int) (r : RulesReader) : RulesReader :=
  ⟨r.draft.mapLines f, r.place.mapLines f⟩

/-! ### Drafts -/

namespace Draft

theorem columns_mapLines : (d.mapLines f).blocks.map Prod.fst = d.blocks.map Prod.fst := by
  simp [mapLines, Function.comp_def]

theorem names_mapLines :
    (d.mapLines f).conditionals.map Conditional.name = d.conditionals.map Conditional.name := by
  simp [mapLines, Conditional.mapLines, Function.comp_def]

theorem rules?_mapLines :
    (d.mapLines f).rules? column = (d.rules? column).map (List.map (Rule.mapLines f)) := by
  simp only [rules?, mapLines]
  induction d.blocks with
  | nil => rfl
  | cons e blocks ih =>
    rw [List.map_cons, List.lookup_cons, List.lookup_cons, ih]
    split <;> rfl

theorem appendRule_mapLines (rule : Rule) (blocks : List (String × List Rule)) :
    appendRule column (rule.mapLines f) (blocks.map fun e => (e.1, e.2.map (Rule.mapLines f)))
      = (appendRule column rule blocks).map fun e => (e.1, e.2.map (Rule.mapLines f)) := by
  induction blocks with
  | nil => rfl
  | cons e blocks ih =>
    simp only [List.map_cons, appendRule, ih]
    split <;> simp

/-- A statement does to a draft with other line numbers what it does to the draft. -/
theorem perform_mapLines {st : Statement} (h : d.perform st = .ok d') :
    (d.mapLines f).perform st = .ok (d'.mapLines f) := by
  cases st with
  | columnNames =>
    obtain ⟨hnone, hne, rfl⟩ := declareColumns_eq_ok_iff.mp h
    exact declareColumns_eq_ok_iff.mpr ⟨hnone, hne, rfl⟩
  | nullValues =>
    obtain ⟨hnone, rfl⟩ := declareNullValues_eq_ok_iff.mp h
    exact declareNullValues_eq_ok_iff.mpr ⟨hnone, rfl⟩
  | separator =>
    obtain ⟨hnone, sep, hsep, rfl⟩ := declareSeparator_some_eq_ok_iff.mp h
    exact declareSeparator_some_eq_ok_iff.mpr ⟨hnone, sep, hsep, rfl⟩
  | precision =>
    obtain ⟨hnone, hpos, rfl⟩ := declarePrecision_eq_ok_iff.mp h
    exact declarePrecision_eq_ok_iff.mpr ⟨hnone, hpos, rfl⟩
  | openBlock column =>
    obtain ⟨hnew, rfl⟩ := beginColumn_eq_ok_iff.mp h
    rw [← columns_mapLines (f := f)] at hnew
    exact beginColumn_eq_ok_iff.mpr ⟨hnew, by simp [mapLines]⟩
  | openConditional name =>
    obtain ⟨hnew, rfl⟩ := perform_openConditional_eq_ok_iff.mp h
    rw [← names_mapLines (f := f)] at hnew
    exact perform_openConditional_eq_ok_iff.mpr ⟨hnew, rfl⟩
  | _ =>
    obtain rfl := Except.ok.inj h
    rfl

/-- A conditional rule goes into a draft with other line numbers as it goes into the draft. -/
theorem addConditional_mapLines {name : String} {a : ClauseText} {n : Option Int}
    (h : d.addConditional name a clause n = .ok d') :
    (d.mapLines f).addConditional name (a.mapLines f) (clause.mapLines f) (n.map f)
      = .ok (d'.mapLines f) := by
  obtain ⟨hnew, hname, ha, hc, rfl⟩ := addConditional_eq_ok_iff.mp h
  rw [← names_mapLines (f := f)] at hnew
  refine addConditional_eq_ok_iff.mpr ⟨hnew, hname, ha, hc, ?_⟩
  simp [withConditional, mapLines, Conditional.mapLines, Clause.mapLines, ClauseText.mapLines]

theorem Finishes.mapLines {names : List String} {ruleset : Ruleset}
    (h : d.Finishes s names ruleset) : (d.mapLines f).Finishes s names (ruleset.mapLines f) where
  settings := h.settings
  columns := h.columns
  blocks := by
    simp [Ruleset.mapLines, h.blocks, Draft.mapLines, Block.mapLines, Function.comp_def]
  conditionals := congrArg (List.map (Conditional.mapLines f)) h.conditionals
  dateFormats := h.dateFormats

end Draft

/-! ### Steps -/

/-- A line that is respelled and stands elsewhere. -/
structure TokenLine.Moved (f : Int → Int) (line line' : TokenLine) : Prop where
  number : line'.number = f line.number
  tokens : Respelled [] line.tokens line'.tokens

theorem IsClause.mapLines {n : Int} (h : IsClause s catalog n clause ts) :
    IsClause s catalog (f n) (clause.mapLines f) ts := by
  obtain ⟨hws, hcolon, hname, hrule⟩ := h
  exact .mk hws hcolon hname hrule

theorem Stage.Word.mapLines {stage stage' : Stage} {word : String} (h : stage.Word word stage') :
    (stage.mapLines f).Word word (stage'.mapLines f) := by
  cases h with
  | toIf => exact .toIf
  | toThen => exact .toThen
  | again => exact .again

theorem Stage.Leads.mapLines {stage stage' : Stage} (h : stage.Leads ts stage') :
    (stage.mapLines f).Leads ts (stage'.mapLines f) := by
  cases h with
  | word h ht => exact .word h.mapLines ht
  | none => exact .none

/-- A clause, with the word of its section or without it, is one where its line has been moved. -/
private theorem TokenLine.Moved.exists_clause {stage stage' : Stage} {ws : List Token}
    (hline : line.Moved f line') (htokens : line.tokens = ws ++ ts) (hlead : stage.Leads ws stage')
    (hclause : IsClause s catalog line.number clause ts) :
    ∃ ws' ts', line'.tokens = ws' ++ ts' ∧ (stage.mapLines f).Leads ws' (stage'.mapLines f) ∧
      IsClause s catalog line'.number (clause.mapLines f) ts' := by
  obtain ⟨hnumber, hrespelled⟩ := hline
  rw [htokens] at hrespelled
  obtain ⟨ws', ts', hline', hws, hts⟩ := hrespelled.exists_append
  rw [hnumber]
  exact ⟨ws', ts', hline', hlead.mapLines.respells hws, hclause.mapLines.respells hts⟩

namespace RulesReader

theorem place_mapLines (h : r.place = .inConditional p) :
    (r.mapLines f).place = .inConditional (p.mapLines f) :=
  congrArg (Position.mapLines f) h

theorem place_ne_mapLines (h : ∀ p, r.place ≠ .inConditional p) (p : Pending) :
    (r.mapLines f).place ≠ .inConditional p := by
  rw [mapLines]
  cases hplace : r.place with
  | inConditional p => exact absurd hplace (h p)
  | _ => simp [Position.mapLines]

theorem HasRoom.mapLines (h : r.HasRoom column c) : (r.mapLines f).HasRoom column c := by
  intro htype rule hrule
  change rule ∈ ((r.draft.mapLines f).rules? column).getD [] at hrule
  rw [Draft.rules?_mapLines] at hrule
  cases hrules : r.draft.rules? column with
  | none => simp [hrules] at hrule
  | some rules =>
    rw [hrules] at hrule
    obtain ⟨old, hold, rfl⟩ := List.mem_map.mp hrule
    exact h htype old (hrules ▸ hold)

theorem withRule_mapLines (rule : Rule) :
    (r.mapLines f).withRule column (rule.mapLines f) = (r.withRule column rule).mapLines f := by
  simp [withRule, mapLines, Draft.mapLines, Draft.appendRule_mapLines]

/-- **A step stays a step** when its line is moved and respelled and its reader is moved. -/
theorem Step.mapLines (h : Step catalog r line r') (hline : line.Moved f line') :
    Step catalog (r.mapLines f) line' (r'.mapLines f) := by
  cases h with
  | @statement s st d hplace hs hst hd =>
    have hmoved : st.place line'.number = (st.place line.number).mapLines f := by
      cases st <;> simp [Statement.place, Position.mapLines, Pending.mapLines, Stage.mapLines,
        hline.number]
    have hstep : Step catalog (r.mapLines f) line' ⟨d.mapLines f, st.place line'.number⟩ :=
      .statement (place_ne_mapLines hplace) hs (hst.respells hline.tokens)
        (Draft.perform_mapLines hd)
    rwa [hmoved] at hstep
  | @rule s column c hplace hs hc hroom =>
    have hplace' : (r.mapLines f).place = .inBlock column := by
      rw [mapLines, hplace]
      rfl
    have hrule : (⟨c, some line'.number⟩ : Rule) = Rule.mapLines f ⟨c, some line.number⟩ := by
      rw [hline.number]
      rfl
    rw [← withRule_mapLines, ← hrule]
    exact .rule hplace' hs (hc.respells hline.tokens.tokens) hroom.mapLines
  | @word p word t stage hplace hstage ht htokens =>
    obtain ⟨t', htokens', ht'⟩ := exists_of_forall₂_singleton (htokens ▸ hline.tokens.tokens)
    exact .word (place_mapLines hplace) hstage.mapLines (ht.respells ht') htokens'
  | antecedent hplace hs hlead hclause htokens =>
    obtain ⟨ws', ts', htokens', hlead', hclause'⟩ := hline.exists_clause htokens hlead hclause
    exact .antecedent (place_mapLines hplace) hs hlead' hclause' htokens'
  | @consequent p s ws ts a clause d hplace hs hlead hclause htokens hd =>
    obtain ⟨ws', ts', htokens', hlead', hclause'⟩ := hline.exists_clause htokens hlead hclause
    exact .consequent (p := p.mapLines f) (place_mapLines hplace) hs hlead' hclause' htokens'
      (Draft.addConditional_mapLines hd)

/-- **A run of steps** goes through moved lines as it goes through the lines. -/
theorem foldlM_readLine_mapLines (hlines : List.Forall₂ (TokenLine.Moved f) lines lines')
    (hspaces : ∀ line ∈ lines, NoSpaces line.tokens)
    (hspaces' : ∀ line ∈ lines', NoSpaces line.tokens) (hr : r.WellFormed)
    (hread : lines.foldlM (readLine catalog) r = .ok r') :
    lines'.foldlM (readLine catalog) (r.mapLines f) = .ok (r'.mapLines f) := by
  induction hlines generalizing r with
  | nil =>
    obtain rfl := Except.ok.inj hread
    rfl
  | cons hline _ ih =>
    obtain ⟨hone, hspaces⟩ := List.forall_mem_cons.mp hspaces
    obtain ⟨hone', hspaces'⟩ := List.forall_mem_cons.mp hspaces'
    rw [List.foldlM_cons] at hread ⊢
    obtain ⟨middle, hstep, hread⟩ := bind_eq_ok_iff.mp hread
    obtain ⟨s, hs⟩ := hr.exists_settings
    have hstep := (readLine_eq_ok_iff hone hs).mp hstep
    have hs' : (r.mapLines f).settings = .ok s := hs
    have hmoved := (readLine_eq_ok_iff hone' hs').mpr (hstep.mapLines hline)
    exact bind_eq_ok_iff.mpr ⟨_, hmoved, ih hspaces hspaces' (hr.step hstep) hread⟩

end RulesReader

/-- **A text whose lines are moved and respelled** is parsed into the same ruleset with other line
numbers. -/
theorem Ruleset.parse_mapLines {formats : Option Catalog} {source source' : String}
    {ruleset : Ruleset} (hlines : tokenLines source = .ok lines)
    (hlines' : tokenLines source' = .ok lines')
    (hmoved : List.Forall₂ (TokenLine.Moved f) lines lines')
    (hparse : parse formats source = .ok ruleset) :
    parse formats source' = .ok (ruleset.mapLines f) := by
  obtain ⟨r, hread, hplace, s, names, hs, hnames, hfinishes⟩ := (parse_eq_ok_iff hlines).mp hparse
  have hstart : (RulesReader.start formats).mapLines f = .start formats := rfl
  have hread' := RulesReader.foldlM_readLine_mapLines hmoved
    (RulesReader.noSpaces_of_tokenLines hlines) (RulesReader.noSpaces_of_tokenLines hlines')
    (RulesReader.wellFormed_start formats) hread
  rw [hstart] at hread'
  exact (parse_eq_ok_iff hlines').mpr ⟨_, hread', RulesReader.place_ne_mapLines hplace, s, names,
    hs, hnames, hfinishes.mapLines⟩

end TableRules
