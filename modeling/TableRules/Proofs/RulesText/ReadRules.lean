import TableRules.Proofs.RulesText.Readings

/-!
# Where the rules of a ruleset come from

A text is read line by line, and a rule is read from tokens at the end of one line: from all of
them in a block, from those after the head of a clause in a conditional rule.

* A step adds at most the rule that its line states (`RulesReader.Step.readFrom`).
* So all rules of a reader were read from the lines before (`RulesReader.exists_readFrom`).

**Main result** (`Ruleset.exists_read`): every rule of a ruleset states its constraint in tokens of
a line of the text, and no lexeme of that line holds a line break.
-/

namespace TableRules

open Tokens Result

variable {s : Settings} {catalog : Catalog} {c : Constraint} {rule : Rule} {ws ts : List Token}
  {line : TokenLine} {lines : List TokenLine}

/-! ### The rules that have been read -/

/-- The rule of the first clause, once it has been read. -/
def Stage.rules : Stage → List Rule
  | .afterIf antecedent => [antecedent.2]
  | .inThen antecedent => [antecedent.2]
  | _ => []

/-- The rule that waits for a second clause. -/
def Position.rules : Position → List Rule
  | .inConditional p => p.stage.rules
  | _ => []

/-- All rules that have been read. -/
def RulesReader.rules (r : RulesReader) : List Rule := r.draft.allRules ++ r.place.rules

/-- A rule was read from tokens at the end of a line. -/
def ReadFrom (catalog : Catalog) (line : TokenLine) (rule : Rule) : Prop :=
  ∃ s ts, ts <:+ line.tokens ∧ readRule s catalog line.number ts = .ok rule

theorem IsRule.readFrom (h : IsRule s catalog c ts) (hts : ts <:+ line.tokens) :
    ReadFrom catalog line ⟨c, some line.number⟩ :=
  ⟨s, ts, hts, map_eq_ok_iff.mpr ⟨c, h.readConstraint_eq_ok, rfl⟩⟩

/-- The rule of a clause is read from the tokens at its end. -/
theorem IsClause.readFrom {clause : ClauseText} (h : IsClause s catalog line.number clause ts)
    (hline : line.tokens = ws ++ ts) : ReadFrom catalog line clause.2 := by
  cases h with
  | @mk ws' ts' colon t c _ _ _ hrule =>
    refine hrule.readFrom ⟨ws ++ ws' ++ [colon, t], ?_⟩
    rw [hline]
    simp

/-- What is read of a rule from a line without spaces in its words are the number of the line and
tokens that state its constraint. -/
theorem ReadFrom.exists_isRule (h : ReadFrom catalog line rule) (hline : NoSpaces line.tokens) :
    ∃ s ts, ts <:+ line.tokens ∧ rule.line = some line.number ∧
      IsRule s catalog rule.constraint ts := by
  obtain ⟨s, ts, hsuffix, hread⟩ := h
  obtain ⟨c, hc, rfl⟩ := map_eq_ok_iff.mp hread
  have hts : NoSpaces ts := fun t ht => hline t (hsuffix.subset ht)
  exact ⟨s, ts, hsuffix, rfl, (readConstraint_eq_ok_iff hts).mp hc⟩

/-! ### Declarations add no rule -/

namespace Draft

variable {d d' : Draft}

/-- A draft with the blocks and conditional rules of another one. -/
def SameRules (d d' : Draft) : Prop := d'.blocks = d.blocks ∧ d'.conditionals = d.conditionals

theorem SameRules.allRules_eq (h : d.SameRules d') : d'.allRules = d.allRules := by
  rw [allRules, allRules, h.1, h.2]

/-- A declaration that opens no block keeps the blocks and conditional rules. -/
theorem sameRules_perform {st : Statement} (hst : ∀ column, st ≠ .openBlock column)
    (h : d.perform st = .ok d') : d.SameRules d' := by
  cases st with
  | columnNames =>
    obtain ⟨-, -, rfl⟩ := declareColumns_eq_ok_iff.mp h
    exact ⟨rfl, rfl⟩
  | nullValues =>
    obtain ⟨-, rfl⟩ := declareNullValues_eq_ok_iff.mp h
    exact ⟨rfl, rfl⟩
  | separator =>
    obtain ⟨-, -, -, rfl⟩ := declareSeparator_some_eq_ok_iff.mp h
    exact ⟨rfl, rfl⟩
  | precision =>
    obtain ⟨-, -, rfl⟩ := declarePrecision_eq_ok_iff.mp h
    exact ⟨rfl, rfl⟩
  | openBlock column => exact absurd rfl (hst column)
  | openConditional =>
    obtain ⟨-, rfl⟩ := perform_openConditional_eq_ok_iff.mp h
    exact ⟨rfl, rfl⟩
  | _ => exact Except.ok.inj h ▸ ⟨rfl, rfl⟩

/-- A declaration adds no rule: a block that it opens is empty. -/
theorem allRules_perform {st : Statement} (h : d.perform st = .ok d') :
    d'.allRules = d.allRules := by
  cases st with
  | openBlock =>
    obtain ⟨-, rfl⟩ := beginColumn_eq_ok_iff.mp h
    simp [allRules]
  | _ => exact (sameRules_perform (by simp) h).allRules_eq

/-- A conditional rule consists of the rules of its clauses. -/
theorem allRules_addConditional {name : String} {a c : String × Rule} {line : Option Int}
    (h : d.addConditional name a c line = .ok d') :
    d'.allRules = d.allRules ++ [a.2, c.2] := by
  obtain ⟨-, -, -, -, rfl⟩ := addConditional_eq_ok_iff.mp h
  simp [allRules, withConditional, Conditional.clauses]

/-- A rule that is put into a block is the only new one. -/
theorem mem_allRules_appendRule {column : String} {new : Rule} :
    rule ∈ allRules { d with blocks := appendRule column new d.blocks } ↔
      rule = new ∨ rule ∈ d.allRules := by
  simp only [allRules, List.mem_append, (flatMap_appendRule_perm column new _).mem_iff,
    List.mem_cons, or_assoc]

end Draft

/-! ### What a step adds -/

theorem Stage.rules_eq (stage : Stage) :
    stage.rules = (stage.antecedent?.map Prod.snd).toList := by
  cases stage <;> rfl

theorem Stage.Word.rules_eq {stage stage' : Stage} {word : String} (h : Word stage word stage') :
    stage'.rules = stage.rules := by
  rw [stage.rules_eq, stage'.rules_eq, h.antecedent?_eq]

theorem Stage.Leads.rules_eq {stage stage' : Stage} (h : Leads stage ws stage') :
    stage'.rules = stage.rules := by
  rw [stage.rules_eq, stage'.rules_eq, h.antecedent?_eq]

namespace RulesReader

variable {r r' : RulesReader}

/-- **A step adds at most the rule that its line states.** -/
theorem Step.readFrom (h : Step catalog r line r') (hrule : rule ∈ r'.rules) :
    rule ∈ r.rules ∨ ReadFrom catalog line rule := by
  have hdraft : rule ∈ r.draft.allRules → rule ∈ r.rules := List.mem_append_left _
  have hpending : ∀ {p : Pending}, r.place = .inConditional p → rule ∈ p.stage.rules →
      rule ∈ r.rules := fun hplace hrule => by
    rw [rules, hplace]
    exact List.mem_append_right _ hrule
  cases h with
  | @statement s st d _ _ _ hd =>
    have hnone : (st.place line.number).rules = [] := by cases st <;> rfl
    rw [rules, hnone, List.append_nil, Draft.allRules_perform hd] at hrule
    exact .inl (hdraft hrule)
  | @rule s column c hplace _ hc _ =>
    have hnone : r.place.rules = [] := by rw [hplace]; rfl
    rw [rules, withRule, hnone, List.append_nil] at hrule
    rcases Draft.mem_allRules_appendRule.mp hrule with rfl | hrule
    · exact .inr (hc.readFrom List.suffix_rfl)
    · exact .inl (hdraft hrule)
  | word hplace hstage =>
    rcases List.mem_append.mp hrule with hrule | hrule
    · exact .inl (hdraft hrule)
    · rw [Position.rules, hstage.rules_eq] at hrule
      exact .inl (hpending hplace hrule)
  | antecedent _ _ _ hclause hline =>
    rcases List.mem_append.mp hrule with hrule | hrule
    · exact .inl (hdraft hrule)
    · obtain rfl := List.mem_singleton.mp hrule
      exact .inr (hclause.readFrom hline)
  | @consequent p s ws ts a clause d hplace _ hlead hclause hline hd =>
    have hnone : (Position.afterConditional p.name).rules = [] := rfl
    rw [rules, hnone, List.append_nil, Draft.allRules_addConditional hd] at hrule
    rcases List.mem_append.mp hrule with hrule | hrule
    · exact .inl (hdraft hrule)
    -- the first of the two rules has waited for the second
    rcases List.mem_pair.mp hrule with rfl | rfl
    · exact .inl (hpending hplace (hlead.rules_eq ▸ List.mem_singleton_self _))
    · exact .inr (hclause.readFrom hline)

/-- **All rules of a reader** were read from the lines before. -/
theorem exists_readFrom {catalog : Option Catalog} (hspaces : ∀ line ∈ lines, NoSpaces line.tokens)
    (hread : lines.foldlM (readLine (catalog.getD .standard)) (start catalog) = .ok r)
    (hrule : rule ∈ r.rules) : ∃ line ∈ lines, ReadFrom (catalog.getD .standard) line rule := by
  refine (foldlM_induction (motive := fun lines r => ∀ rule ∈ r.rules,
    ∃ line ∈ lines, ReadFrom (catalog.getD .standard) line rule) hspaces
    (wellFormed_start catalog) hread (by simp [rules, start, Draft.allRules, Position.rules,
      Draft.empty]) fun before line r r' _ hbefore hstep rule hrule => ?_).2 rule hrule
  rcases hstep.readFrom hrule with hrule | hline
  · obtain ⟨line', hmem, hread⟩ := hbefore rule hrule
    exact ⟨line', List.mem_append_left _ hmem, hread⟩
  · exact ⟨line, List.mem_append_right _ (List.mem_singleton_self line), hline⟩

/-- A rule that has been read of a text is stated by the tokens of a line. -/
theorem exists_isRule {catalog : Option Catalog} (hspaces : ∀ line ∈ lines, NoSpaces line.tokens)
    (hread : lines.foldlM (readLine (catalog.getD .standard)) (start catalog) = .ok r)
    (hrule : rule ∈ r.rules) :
    ∃ line ∈ lines, ∃ s ts, ts <:+ line.tokens ∧ rule.line = some line.number ∧
      IsRule s (catalog.getD .standard) rule.constraint ts := by
  obtain ⟨line, hline, hfrom⟩ := exists_readFrom hspaces hread hrule
  exact ⟨line, hline, hfrom.exists_isRule (hspaces line hline)⟩

/-- A ruleset has no rules but those that its reader has read. -/
theorem WellFormed.finish_rules {ruleset : Ruleset} (hr : r.WellFormed)
    (h : r.finish = .ok ruleset) :
    ruleset.allRules ⊆ r.rules := by
  have hbuild : r.draft.build = .ok ruleset := by
    rw [finish] at h
    cases hplace : r.place with
    | inConditional p => simp [hplace] at h
    | _ => exact mapError_eq_ok_iff.mp (by simpa only [hplace] using h)
  obtain ⟨s, names, -, -, hfinishes⟩ := hr.draft.finishes_of_build hbuild
  rw [hfinishes.allRules_eq]
  exact List.subset_append_left _ _

end RulesReader

/-! ### The rules of a text -/

namespace Ruleset

variable {catalog : Option Catalog} {source : String} {ruleset : Ruleset}

/-- Every rule of a parsed text is stated by the tokens at the end of one of its lines. -/
theorem exists_isRule (hlines : tokenLines source = .ok lines)
    (h : parse catalog source = .ok ruleset) (hrule : rule ∈ ruleset.allRules) :
    ∃ line ∈ lines, ∃ s ts, ts <:+ line.tokens ∧ rule.line = some line.number ∧
      IsRule s (catalog.getD .standard) rule.constraint ts := by
  obtain ⟨_, hlines', h⟩ := bind_eq_ok_iff.mp h
  obtain rfl := Except.ok.inj (hlines.symm.trans hlines')
  obtain ⟨r, hread, h⟩ := bind_eq_ok_iff.mp h
  have hspaces := RulesReader.noSpaces_of_tokenLines hlines
  have hr := (RulesReader.wellFormed_start catalog).foldlM hspaces hread
  exact RulesReader.exists_isRule hspaces hread (hr.finish_rules h hrule)

/-- **Every rule of a ruleset** was read from tokens of a line of its text, as the constraint that
they state. -/
theorem exists_read (h : parse catalog source = .ok ruleset) (hrule : rule ∈ ruleset.allRules) :
    ∃ s ts, (∀ t ∈ ts, t.IsOfLine) ∧
      readConstraint s (catalog.getD .standard) ts = .ok rule.constraint ∧
      IsPhrase s (catalog.getD .standard) rule.constraint ts := by
  obtain ⟨lines, hlines, -⟩ := bind_eq_ok_iff.mp h
  obtain ⟨line, hline, s, ts, hsuffix, -, hstated⟩ := exists_isRule hlines h hrule
  have hlexemes := (isLineOf_of_tokenLines hlines hline).isOfLine
  exact ⟨s, ts, fun t ht => hlexemes t (hsuffix.subset ht), hstated.readConstraint_eq_ok, hstated.1⟩

end Ruleset

end TableRules
