import TableRules.Proofs.RulesText.Statements

/-!
# What one line does

`Step` lists what a line of a rules text can do to its reader, one case for each kind of line. All
later facts about reading are derived from it by cases on the step and by induction on the lines.

* Outside unfinished conditional rules a line is a statement, or a rule of the open block.
* In an unfinished conditional rule a line is the word of a section, or a clause with or without
  that word in front. Which word may follow depends on the stage (`Stage.Word`).

**Main result** (`RulesReader.readLine_eq_ok_iff`): a line is read exactly if it is such a step.
-/

namespace TableRules

open Tokens Result

variable {s : Settings} {catalog : Catalog} {t : Token} {ts ws rest : List Token}
  {clause : ClauseText}

/-! ### Clauses -/

/-- Tokens that are a clause on a line of a given number: the head of a block and a rule. -/
inductive IsClause (s : Settings) (catalog : Catalog) (n : Int) : ClauseText → List Token → Prop
  | mk {ws ts : List Token} {colon t : Token} {c : Constraint} (hws : Keywords ["column"] ws)
      (hcolon : colon.kind = .colon) (hname : IsName t) (hrule : IsRule s catalog c ts) :
      IsClause s catalog n (t.value, ⟨c, some n⟩) (ws ++ colon :: t :: ts)

namespace RulesReader

theorem readClause_eq_ok_iff {n : Int} (hts : NoSpaces ts) :
    readClause s catalog n ts = .ok clause ↔ IsClause s catalog n clause ts := by
  constructor
  · intro h
    unfold readClause at h
    split at h
    · simp [refuse] at h
    rename_i rest hdrop
    obtain ⟨ws, hws, rfl⟩ := dropWords?_eq_some_iff.mp hdrop
    obtain ⟨⟨value, after⟩, hexpect, hafter⟩ := bind_eq_ok_iff.mp h
    obtain ⟨colon, rfl, hcolon, -⟩ := expect_eq_ok_iff.mp hexpect
    obtain ⟨⟨column, left⟩, hread, hleft⟩ := bind_eq_ok_iff.mp hafter
    obtain ⟨t, rfl, hname, rfl⟩ := readName_eq_ok_iff.mp hread
    dsimp only at hleft
    split_ifs at hleft
    · simp [refuse] at hleft
    obtain ⟨rule, hrule, hclause⟩ := bind_eq_ok_iff.mp hleft
    obtain ⟨c, hc, rfl⟩ := map_eq_ok_iff.mp hrule
    obtain rfl := Except.ok.inj hclause
    have hspaces : NoSpaces left := fun t ht => hts t (by simp [ht])
    exact .mk hws hcolon hname ((readConstraint_eq_ok_iff hspaces).mp hc)
  · rintro ⟨hws, hcolon, hname, hrule⟩
    rename_i ws ts colon t c
    have hnonempty : ts.isEmpty = false := by
      obtain ⟨t', ts', rfl, -⟩ := hrule.1.exists_head
      rfl
    unfold readClause
    rw [dropWords?_eq_some_iff.mpr ⟨ws, hws, rfl⟩]
    refine bind_eq_ok_iff.mpr ⟨_, expect_eq_ok_iff.mpr ⟨colon, rfl, hcolon, rfl⟩, ?_⟩
    refine bind_eq_ok_iff.mpr ⟨_, readName_cons hname, ?_⟩
    dsimp only
    rw [hnonempty, if_neg Bool.false_ne_true]
    exact bind_eq_ok_iff.mpr ⟨_, map_eq_ok_iff.mpr ⟨c, hrule.readConstraint_eq_ok, rfl⟩, rfl⟩

end RulesReader

/-! ### Sections -/

/-- The word that leads from one stage of a conditional rule to another. -/
inductive Stage.Word : Stage → String → Stage → Prop
  | toIf : Word .opened "if" .inIf
  | toThen {a : ClauseText} : Word (.afterIf a) "then" (.inThen a)
  | again {a : ClauseText} : Word (.inThen a) "then" (.inThen a)

/-- Tokens in front of a clause that lead from one stage to another: the word of a section, or
nothing. -/
inductive Stage.Leads : Stage → List Token → Stage → Prop
  | word {stage stage' : Stage} {word : String} {t : Token} (h : Word stage word stage')
      (ht : IsKeyword word t) : Leads stage [t] stage'
  | none {stage : Stage} : Leads stage [] stage

private theorem dropWords?_singleton_eq_some_iff {word : String} :
    dropWords? [word] ts = some rest ↔ ∃ t, IsKeyword word t ∧ ts = t :: rest := by
  rw [dropWords?_eq_some_iff]
  constructor
  · rintro ⟨ws, hws, rfl⟩
    cases hws with
    | cons hword hnil =>
      cases hnil
      exact ⟨_, hword, rfl⟩
  · rintro ⟨t, hword, rfl⟩
    exact ⟨[t], .cons hword .nil, rfl⟩

namespace RulesReader

private theorem dropWords?_singleton_ne {word word' : String} (hword : IsKeyword word t)
    (hne : word' ≠ word) : dropWords? [word'] (t :: ts) = none := by
  rw [Option.eq_none_iff_forall_not_mem]
  intro rest hrest
  obtain ⟨t', hword', heq⟩ := dropWords?_singleton_eq_some_iff.mp hrest
  obtain ⟨rfl, -⟩ := List.cons.inj heq
  exact hne (hword'.2.symm.trans hword.2)

private theorem enterSection_word {p : Pending} {stage : Stage} {word : String}
    (hstage : p.stage.Word word stage) (hword : IsKeyword word t) :
    enterSection p (t :: rest) = .ok (stage, rest) := by
  have hdrop := dropWords?_singleton_eq_some_iff.mpr ⟨t, hword, rfl (a := t :: rest)⟩
  unfold enterSection
  obtain ⟨name, line, stage'⟩ := p
  cases hstage with
  | toIf => rw [hdrop]
  | toThen => rw [dropWords?_singleton_ne hword (by decide), hdrop]
  | again => rw [dropWords?_singleton_ne hword (by decide), hdrop]

private theorem enterSection_head {p : Pending} (hhead : (Statement.columnHead? ts).isSome) :
    enterSection p ts = .ok (p.stage, ts) := by
  obtain ⟨after, hafter⟩ := Option.isSome_iff_exists.mp hhead
  obtain ⟨ws, colon, hws, -, rfl⟩ := Statement.columnHead?_eq_some_iff.mp hafter
  cases hws with
  | @cons _ t _ ws hword hnil =>
    cases hnil
    unfold enterSection
    simp only [List.cons_append, List.nil_append] at hhead ⊢
    rw [dropWords?_singleton_ne hword (by decide), dropWords?_singleton_ne hword (by decide)]
    rw [if_pos hhead]

/-- A line enters a section by its word, or stays where it is at the head of a clause. -/
theorem enterSection_eq_ok_iff {p : Pending} {stage : Stage} :
    enterSection p ts = .ok (stage, rest) ↔
      (∃ word t, p.stage.Word word stage ∧ IsKeyword word t ∧ ts = t :: rest) ∨
      (stage = p.stage ∧ rest = ts ∧ (Statement.columnHead? ts).isSome) := by
  constructor
  · intro h
    unfold enterSection at h
    split at h
    · rename_i hif
      obtain ⟨t, hword, rfl⟩ := dropWords?_singleton_eq_some_iff.mp hif
      split at h
      · rename_i hstage
        obtain ⟨rfl, rfl⟩ := Prod.mk.inj (Except.ok.inj h)
        exact .inl ⟨_, t, hstage ▸ .toIf, hword, rfl⟩
      · simp [refuse] at h
    split at h
    · rename_i hthen
      obtain ⟨t, hword, rfl⟩ := dropWords?_singleton_eq_some_iff.mp hthen
      split at h
      · rename_i hstage
        obtain ⟨rfl, rfl⟩ := Prod.mk.inj (Except.ok.inj h)
        exact .inl ⟨_, t, hstage ▸ .toThen, hword, rfl⟩
      · rename_i hstage
        obtain ⟨rfl, rfl⟩ := Prod.mk.inj (Except.ok.inj h)
        exact .inl ⟨_, t, hstage ▸ .again, hword, rfl⟩
      · simp [refuse] at h
    · split_ifs at h with hhead
      · obtain ⟨rfl, rfl⟩ := Prod.mk.inj (Except.ok.inj h)
        exact .inr ⟨rfl, rfl, hhead⟩
      · simp [refuse] at h
  · rintro (⟨word, t, hstage, hword, rfl⟩ | ⟨rfl, rfl, hhead⟩)
    · exact enterSection_word hstage hword
    · exact enterSection_head hhead

/-- The head of a clause is the head of a block. -/
private theorem columnHead?_isSome {n : Int} (h : IsClause s catalog n clause ts) :
    (Statement.columnHead? ts).isSome := by
  obtain ⟨hws, hcolon, -, -⟩ := h
  rw [Statement.columnHead?_eq_some_iff.mpr ⟨_, _, hws, hcolon, rfl⟩]
  rfl

/-! ### Steps -/

variable {r r' : RulesReader} {line : TokenLine}

/-- What a line can do to a reader. -/
inductive Step (catalog : Catalog) (r : RulesReader) (line : TokenLine) : RulesReader → Prop
  | statement {s : Settings} {st : Statement} {d : Draft}
      (hplace : ∀ p, r.place ≠ .inConditional p) (hs : r.settings = .ok s)
      (hst : IsStatement s st line.tokens) (hd : r.draft.perform st = .ok d) :
      Step catalog r line ⟨d, st.place line.number⟩
  | rule {s : Settings} {column : String} {c : Constraint} (hplace : r.place = .inBlock column)
      (hs : r.settings = .ok s) (hc : IsRule s catalog c line.tokens) (hroom : r.HasRoom column c) :
      Step catalog r line (r.withRule column ⟨c, some line.number⟩)
  | word {p : Pending} {word : String} {t : Token} {stage : Stage}
      (hplace : r.place = .inConditional p) (hstage : p.stage.Word word stage)
      (ht : IsKeyword word t) (hline : line.tokens = [t]) :
      Step catalog r line ⟨r.draft, .inConditional ⟨p.name, p.line, stage⟩⟩
  | antecedent {p : Pending} {s : Settings} {ws ts : List Token} {clause : ClauseText}
      (hplace : r.place = .inConditional p) (hs : r.settings = .ok s)
      (hlead : p.stage.Leads ws .inIf) (hclause : IsClause s catalog line.number clause ts)
      (hline : line.tokens = ws ++ ts) :
      Step catalog r line ⟨r.draft, .inConditional ⟨p.name, p.line, .afterIf clause⟩⟩
  | consequent {p : Pending} {s : Settings} {ws ts : List Token} {a clause : ClauseText} {d : Draft}
      (hplace : r.place = .inConditional p) (hs : r.settings = .ok s)
      (hlead : p.stage.Leads ws (.inThen a)) (hclause : IsClause s catalog line.number clause ts)
      (hline : line.tokens = ws ++ ts)
      (hd : r.draft.addConditional p.name a clause (some p.line) = .ok d) :
      Step catalog r line ⟨d, .afterConditional p.name⟩

/-- A line of an unfinished conditional rule enters a section and may go on with a clause. -/
private theorem readSection_eq_ok_iff {p : Pending} :
    r.readSection catalog p line = .ok r' ↔
      (∃ stage, enterSection p line.tokens = .ok (stage, []) ∧
        r' = ⟨r.draft, .inConditional ⟨p.name, p.line, stage⟩⟩) ∨
      ∃ stage rest s clause, enterSection p line.tokens = .ok (stage, rest) ∧ rest ≠ [] ∧
        r.settings = .ok s ∧ readClause s catalog line.number rest = .ok clause ∧
        ((stage = .inIf ∧ r' = ⟨r.draft, .inConditional ⟨p.name, p.line, .afterIf clause⟩⟩) ∨
          ∃ a d, stage = .inThen a ∧
            r.draft.addConditional p.name a clause (some p.line) = .ok d ∧
            r' = ⟨d, .afterConditional p.name⟩) := by
  constructor
  · intro h
    obtain ⟨⟨stage, rest⟩, henter, h⟩ := bind_eq_ok_iff.mp h
    dsimp only at h
    split_ifs at h with hrest
    · rw [List.isEmpty_iff] at hrest
      subst hrest
      exact .inl ⟨stage, henter, (Except.ok.inj h).symm⟩
    · rw [List.isEmpty_iff] at hrest
      cases stage with
      | opened => simp [refuse] at h
      | afterIf => simp [refuse] at h
      | inIf =>
        obtain ⟨s, hs, h⟩ := bind_eq_ok_iff.mp h
        obtain ⟨clause, hclause, h⟩ := bind_eq_ok_iff.mp h
        exact .inr ⟨_, rest, s, clause, henter, hrest, hs, hclause,
          .inl ⟨rfl, (Except.ok.inj h).symm⟩⟩
      | inThen a =>
        obtain ⟨s, hs, h⟩ := bind_eq_ok_iff.mp h
        obtain ⟨clause, hclause, h⟩ := bind_eq_ok_iff.mp h
        obtain ⟨d, hd, h⟩ := bind_eq_ok_iff.mp h
        exact .inr ⟨_, rest, s, clause, henter, hrest, hs, hclause,
          .inr ⟨a, d, rfl, declare_eq_ok_iff.mp hd, (Except.ok.inj h).symm⟩⟩
  · rintro (⟨stage, henter, rfl⟩ | ⟨stage, rest, s, clause, henter, hrest, hs, hclause,
      ⟨rfl, rfl⟩ | ⟨a, d, rfl, hd, rfl⟩⟩)
    · exact bind_eq_ok_iff.mpr ⟨_, henter, rfl⟩
    · refine bind_eq_ok_iff.mpr ⟨_, henter, ?_⟩
      dsimp only
      rw [if_neg (by rwa [List.isEmpty_iff])]
      exact bind_eq_ok_iff.mpr ⟨s, hs, bind_eq_ok_iff.mpr ⟨clause, hclause, rfl⟩⟩
    · refine bind_eq_ok_iff.mpr ⟨_, henter, ?_⟩
      dsimp only
      rw [if_neg (by rwa [List.isEmpty_iff])]
      exact bind_eq_ok_iff.mpr ⟨s, hs, bind_eq_ok_iff.mpr ⟨clause, hclause,
        bind_eq_ok_iff.mpr ⟨d, declare_eq_ok_iff.mpr hd, rfl⟩⟩⟩

/-- What stands in front of a clause enters a section exactly if it leads there. -/
private theorem enterSection_clause {p : Pending} {n : Int} {stage : Stage}
    (hclause : IsClause s catalog n clause rest) :
    enterSection p ts = .ok (stage, rest) ↔ ∃ ws, p.stage.Leads ws stage ∧ ts = ws ++ rest := by
  rw [enterSection_eq_ok_iff]
  constructor
  · rintro (⟨word, t, hstage, ht, rfl⟩ | ⟨rfl, rfl, -⟩)
    · exact ⟨[t], .word hstage ht, rfl⟩
    · exact ⟨[], .none, rfl⟩
  · rintro ⟨ws, hlead, rfl⟩
    cases hlead with
    | word hstage ht => exact .inl ⟨_, _, hstage, ht, rfl⟩
    | none => exact .inr ⟨rfl, rfl, columnHead?_isSome hclause⟩

/-- A line of an unfinished conditional rule is read exactly if it is such a step. -/
private theorem readSection_eq_ok_iff_step {p : Pending} (hts : NoSpaces line.tokens)
    (hplace : r.place = .inConditional p) :
    r.readSection catalog p line = .ok r' ↔ Step catalog r line r' := by
  rw [readSection_eq_ok_iff]
  constructor
  · rintro (⟨stage, henter, rfl⟩ | ⟨stage, rest, s, clause, henter, -, hs, hread, hstage⟩)
    · rcases enterSection_eq_ok_iff.mp henter with ⟨word, t, hstage, ht, hline⟩ |
        ⟨-, hnil, hhead⟩
      · exact .word hplace hstage ht hline
      · rw [← hnil] at hhead
        exact absurd hhead (by decide)
    · have hspaces : NoSpaces rest := by
        rcases enterSection_eq_ok_iff.mp henter with ⟨-, t, -, -, hline⟩ | ⟨-, rfl, -⟩
        · exact fun t' ht' => hts t' (hline ▸ List.mem_cons_of_mem t ht')
        · exact hts
      have hclause := (readClause_eq_ok_iff hspaces).mp hread
      obtain ⟨ws, hlead, hline⟩ := (enterSection_clause hclause).mp henter
      -- a clause completes the section that the line has entered
      rcases hstage with ⟨rfl, rfl⟩ | ⟨a, d, rfl, hd, rfl⟩
      · exact .antecedent hplace hs hlead hclause hline
      · exact .consequent hplace hs hlead hclause hline hd
  · have hne : ∀ {s ts clause}, IsClause s catalog line.number clause ts → ts ≠ [] := by
      rintro s ts clause ⟨-, -, -, -⟩
      simp
    have hspaces : ∀ {ws ts}, line.tokens = ws ++ ts → NoSpaces ts := fun hline t ht =>
      hts t (hline ▸ List.mem_append_right _ ht)
    intro h
    cases h with
    | statement hplace' => exact absurd hplace (hplace' p)
    | rule hplace' => simp [hplace] at hplace'
    | word hplace' hstage ht hline =>
      obtain rfl := Position.inConditional.inj (hplace.symm.trans hplace')
      exact .inl ⟨_, enterSection_eq_ok_iff.mpr (.inl ⟨_, _, hstage, ht, hline⟩), rfl⟩
    | antecedent hplace' hs hlead hclause hline =>
      obtain rfl := Position.inConditional.inj (hplace.symm.trans hplace')
      exact .inr ⟨_, _, _, _, (enterSection_clause hclause).mpr ⟨_, hlead, hline⟩, hne hclause, hs,
        (readClause_eq_ok_iff (hspaces hline)).mpr hclause, .inl ⟨rfl, rfl⟩⟩
    | consequent hplace' hs hlead hclause hline hd =>
      obtain rfl := Position.inConditional.inj (hplace.symm.trans hplace')
      exact .inr ⟨_, _, _, _, (enterSection_clause hclause).mpr ⟨_, hlead, hline⟩, hne hclause, hs,
        (readClause_eq_ok_iff (hspaces hline)).mpr hclause, .inr ⟨_, _, rfl, hd, rfl⟩⟩

/-- A line outside unfinished conditional rules is read exactly if it is such a step. -/
private theorem readPlainLine_eq_ok_iff_step (hts : NoSpaces line.tokens) (hs : r.settings = .ok s)
    (hplace : ∀ p, r.place ≠ .inConditional p) :
    r.readPlainLine catalog line = .ok r' ↔ Step catalog r line r' := by
  rw [readPlainLine_eq_ok_iff hts hs]
  constructor
  · rintro (⟨st, d, hst, hd, rfl⟩ | ⟨column, c, hblock, hc, hroom, rfl⟩)
    · exact .statement hplace hs hst hd
    · exact .rule hblock hs hc hroom
  · intro h
    cases h with
    | statement _ hs' hst hd =>
      obtain rfl := Except.ok.inj (hs.symm.trans hs')
      exact .inl ⟨_, _, hst, hd, rfl⟩
    | rule hblock hs' hc hroom =>
      obtain rfl := Except.ok.inj (hs.symm.trans hs')
      exact .inr ⟨_, _, hblock, hc, hroom, rfl⟩
    | word h => exact absurd h (hplace _)
    | antecedent h => exact absurd h (hplace _)
    | consequent h => exact absurd h (hplace _)

/-- **A line is read exactly if it is a step.** -/
theorem readLine_eq_ok_iff (hts : NoSpaces line.tokens) (hs : r.settings = .ok s) :
    readLine catalog r line = .ok r' ↔ Step catalog r line r' := by
  rw [readLine, mapError_eq_ok_iff]
  split
  · rename_i p hplace
    exact readSection_eq_ok_iff_step hts hplace
  · rename_i hplace
    exact readPlainLine_eq_ok_iff_step hts hs hplace

end RulesReader

end TableRules
