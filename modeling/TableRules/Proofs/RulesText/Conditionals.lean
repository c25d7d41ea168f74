import TableRules.Proofs.RulesText.Faults

/-!
# The lines of a conditional rule

`IsConditional` is the grammar of the lines after the head of a conditional rule: an `if` section
and a `then` section, each a word and a clause on one line or on two. The reader takes further lines
that hold only the word `then` between the sections, and so does the grammar.

* What has been read at a stage is known from the stage (`Stage.Reached`), and every step keeps to
  that (`Stage.Reached.enter`, `Stage.Reached.antecedent`, `Stage.Reached.consequent`).
* So a conditional rule is completed only by lines of the grammar
  (`RulesReader.exists_isConditional`), and all such lines complete it
  (`RulesReader.foldlM_isConditional`).
-/

namespace TableRules

open Tokens Result

variable {s : Settings} {catalog : Catalog} {line head : TokenLine} {lines used : List TokenLine}
  {clause a c : ClauseText} {word : String} {ws ts : List Token} {stage stage' : Stage}

/-! ### The grammar -/

/-- A line that holds a given word and nothing else. -/
def IsBare (word : String) (line : TokenLine) : Prop :=
  ∃ t, line.tokens = [t] ∧ IsKeyword word t

/-- Lines that are a section: its word and a clause, on one line or on two. -/
inductive IsSection (s : Settings) (catalog : Catalog) (word : String) :
    ClauseText → List TokenLine → Prop
  | inline {clause : ClauseText} {line : TokenLine} {t : Token} {ts : List Token}
      (hline : line.tokens = t :: ts) (ht : IsKeyword word t)
      (hclause : IsClause s catalog line.number clause ts) : IsSection s catalog word clause [line]
  | split {clause : ClauseText} {head line : TokenLine} (hhead : IsBare word head)
      (hclause : IsClause s catalog line.number clause line.tokens) :
      IsSection s catalog word clause [head, line]

theorem IsSection.column_ne (h : IsSection s catalog word clause lines) : clause.1 ≠ "" := by
  cases h with
  | inline _ _ hclause => exact hclause.column_ne
  | split _ hclause => exact hclause.column_ne

/-- Lines that complete a conditional rule with given clauses. -/
inductive IsConditional (s : Settings) (catalog : Catalog) (a c : ClauseText) :
    List TokenLine → Prop
  | mk {ifs repeats thens : List TokenLine} (hif : IsSection s catalog "if" a ifs)
      (hrepeats : ∀ line ∈ repeats, IsBare "then" line)
      (hthen : IsSection s catalog "then" c thens) :
      IsConditional s catalog a c (ifs ++ (repeats ++ thens))

/-! ### What has been read at a stage -/

/-- The lines that lead to a stage of a conditional rule. -/
def Stage.Reached (s : Settings) (catalog : Catalog) : Stage → List TokenLine → Prop
  | .opened, lines => lines = []
  | .inIf, lines => ∃ line, lines = [line] ∧ IsBare "if" line
  | .afterIf a, lines => IsSection s catalog "if" a lines
  | .inThen a, lines => ∃ ifs thens, lines = ifs ++ thens ∧ IsSection s catalog "if" a ifs ∧
      thens ≠ [] ∧ ∀ line ∈ thens, IsBare "then" line

namespace Stage

/-- A line with the word of a section leads to the next stage. -/
theorem Reached.enter (h : stage.Reached s catalog lines) (hstage : stage.Word word stage')
    (hline : IsBare word line) : stage'.Reached s catalog (lines ++ [line]) := by
  cases hstage with
  | toIf =>
    obtain rfl : lines = [] := h
    exact ⟨line, rfl, hline⟩
  | toThen => exact ⟨lines, [line], rfl, h, by simp, by simpa using hline⟩
  | again =>
    obtain ⟨ifs, thens, rfl, hif, -, hthens⟩ := h
    refine ⟨ifs, thens ++ [line], List.append_assoc _ _ _, hif, by simp, fun l hl => ?_⟩
    rcases List.mem_append.mp hl with hl | hl
    · exact hthens l hl
    · exact List.mem_singleton.mp hl ▸ hline

/-- A clause after `if` completes the first section. -/
theorem Reached.antecedent (h : stage.Reached s catalog lines) (hlead : stage.Leads ws .inIf)
    (hclause : IsClause s catalog line.number clause ts) (hline : line.tokens = ws ++ ts) :
    (afterIf clause).Reached s catalog (lines ++ [line]) := by
  cases hlead with
  | word hstage ht =>
    cases hstage with
    | toIf =>
      obtain rfl : lines = [] := h
      exact .inline hline ht hclause
  | none =>
    obtain ⟨head, rfl, hhead⟩ := h
    have htokens : line.tokens = ts := hline
    exact .split hhead (htokens ▸ hclause)

/-- A clause after `then` completes the conditional rule. -/
theorem Reached.consequent (h : stage.Reached s catalog lines) (hlead : stage.Leads ws (.inThen a))
    (hclause : IsClause s catalog line.number clause ts) (hline : line.tokens = ws ++ ts) :
    IsConditional s catalog a clause (lines ++ [line]) := by
  cases hlead with
  | word hstage ht =>
    cases hstage with
    | toThen =>
      have hnone : ∀ l ∈ ([] : List TokenLine), IsBare "then" l := by simp
      exact .mk h hnone (.inline hline ht hclause)
    | again =>
      obtain ⟨ifs, thens, rfl, hif, -, hthens⟩ := h
      rw [List.append_assoc]
      exact .mk hif hthens (.inline hline ht hclause)
  | none =>
    -- the last of the lines with `then` belongs to the clause
    obtain ⟨ifs, thens, rfl, hif, hne, hthens⟩ := h
    have htokens : line.tokens = ts := hline
    obtain ⟨repeats, head, rfl⟩ := (List.eq_nil_or_concat' thens).resolve_left hne
    have hhead := hthens head (by simp)
    have hsplit : ifs ++ (repeats ++ [head]) ++ [line] = ifs ++ (repeats ++ [head, line]) := by simp
    rw [hsplit]
    exact .mk hif (fun l hl => hthens l (List.mem_append_left _ hl))
      (.split hhead (htokens ▸ hclause))

end Stage

/-! ### Lines that complete a conditional rule -/

namespace RulesReader

variable {r r' : RulesReader} {name : String} {n : Int}

/-- The reader at a stage of a conditional rule. -/
def atStage (r : RulesReader) (name : String) (n : Int) (stage : Stage) : RulesReader :=
  ⟨r.draft, .inConditional ⟨name, n, stage⟩⟩

/-- The word of a section is read. -/
private theorem readLine_bare (hs : r.settings = .ok s) (hstage : stage.Word word stage')
    (hspaces : NoSpaces line.tokens) (hline : IsBare word line) :
    readLine catalog (r.atStage name n stage) line = .ok (r.atStage name n stage') := by
  obtain ⟨t, hline, ht⟩ := hline
  have hs' : (r.atStage name n stage).settings = .ok s := hs
  have hstep : Step catalog (r.atStage name n stage) line (r.atStage name n stage') :=
    .word (p := ⟨name, n, stage⟩) rfl hstage ht hline
  exact (readLine_eq_ok_iff hspaces hs').mpr hstep

/-- A line that goes on with the clause of the first section is read. -/
private theorem readLine_antecedent (hs : r.settings = .ok s) (hlead : stage.Leads ws .inIf)
    (hspaces : NoSpaces line.tokens) (hclause : IsClause s catalog line.number a ts)
    (hline : line.tokens = ws ++ ts) :
    readLine catalog (r.atStage name n stage) line = .ok (r.atStage name n (.afterIf a)) := by
  have hs' : (r.atStage name n stage).settings = .ok s := hs
  have hstep : Step catalog (r.atStage name n stage) line (r.atStage name n (.afterIf a)) :=
    .antecedent (p := ⟨name, n, stage⟩) rfl hs' hlead hclause hline
  exact (readLine_eq_ok_iff hspaces hs').mpr hstep

/-- A line that goes on with the clause of the second section is read. -/
private theorem readLine_consequent {d : Draft} (hs : r.settings = .ok s)
    (hlead : stage.Leads ws (.inThen a)) (hspaces : NoSpaces line.tokens)
    (hclause : IsClause s catalog line.number c ts) (hline : line.tokens = ws ++ ts)
    (hd : r.draft.addConditional name a c (some n) = .ok d) :
    readLine catalog (r.atStage name n stage) line = .ok ⟨d, .afterConditional name⟩ := by
  have hs' : (r.atStage name n stage).settings = .ok s := hs
  have hstep : Step catalog (r.atStage name n stage) line ⟨d, .afterConditional name⟩ :=
    .consequent (p := ⟨name, n, stage⟩) rfl hs' hlead hclause hline hd
  exact (readLine_eq_ok_iff hspaces hs').mpr hstep

private theorem foldlM_if (hs : r.settings = .ok s) (hspaces : ∀ line ∈ lines, NoSpaces line.tokens)
    (h : IsSection s catalog "if" a lines) :
    lines.foldlM (readLine catalog) (r.atStage name n .opened)
      = .ok (r.atStage name n (.afterIf a)) := by
  cases h with
  | inline hline ht hclause =>
    have hread : readLine catalog (r.atStage name n .opened) _ = _ :=
      readLine_antecedent hs (.word .toIf ht) (hspaces _ (by simp)) hclause hline
    rw [List.foldlM_cons, hread]
    rfl
  | split hhead hclause =>
    have hfirst : readLine catalog (r.atStage name n .opened) _ = _ :=
      readLine_bare hs .toIf (hspaces _ (by simp)) hhead
    have hread : readLine catalog (r.atStage name n .inIf) _ = _ :=
      readLine_antecedent hs .none (hspaces _ (by simp)) hclause rfl
    rw [List.foldlM_cons, hfirst]
    change [_].foldlM (readLine catalog) (r.atStage name n .inIf) = _
    rw [List.foldlM_cons, hread]
    rfl

/-- Lines that hold only the word `then` stay where that word may follow. -/
private theorem foldlM_repeats (hs : r.settings = .ok s)
    (hspaces : ∀ line ∈ lines, NoSpaces line.tokens)
    (hlines : ∀ line ∈ lines, IsBare "then" line) (hstage : stage.Word "then" (.inThen a)) :
    ∃ stage', stage'.Word "then" (.inThen a) ∧
      lines.foldlM (readLine catalog) (r.atStage name n stage) = .ok (r.atStage name n stage') := by
  induction lines generalizing stage with
  | nil => exact ⟨stage, hstage, rfl⟩
  | cons line lines ih =>
    obtain ⟨hspace, hspaces⟩ := List.forall_mem_cons.mp hspaces
    obtain ⟨hline, hlines⟩ := List.forall_mem_cons.mp hlines
    obtain ⟨stage', hstage', hread⟩ := ih hspaces hlines .again
    refine ⟨stage', hstage', ?_⟩
    rw [List.foldlM_cons, readLine_bare hs hstage hspace hline]
    exact hread

private theorem foldlM_then {d : Draft} (hs : r.settings = .ok s)
    (hspaces : ∀ line ∈ lines, NoSpaces line.tokens) (h : IsSection s catalog "then" c lines)
    (hstage : stage.Word "then" (.inThen a))
    (hd : r.draft.addConditional name a c (some n) = .ok d) :
    lines.foldlM (readLine catalog) (r.atStage name n stage)
      = .ok ⟨d, .afterConditional name⟩ := by
  cases h with
  | inline hline ht hclause =>
    have hread : readLine catalog (r.atStage name n stage) _ = _ :=
      readLine_consequent hs (.word hstage ht) (hspaces _ (by simp)) hclause hline hd
    rw [List.foldlM_cons, hread]
    rfl
  | split hhead hclause =>
    have hfirst : readLine catalog (r.atStage name n stage) _ = _ :=
      readLine_bare hs hstage (hspaces _ (by simp)) hhead
    have hread : readLine catalog (r.atStage name n (.inThen a)) _ = _ :=
      readLine_consequent hs .none (hspaces _ (by simp)) hclause rfl hd
    rw [List.foldlM_cons, hfirst]
    change [_].foldlM (readLine catalog) (r.atStage name n (.inThen a)) = _
    rw [List.foldlM_cons, hread]
    rfl

/-- **Lines of the grammar complete a conditional rule** of a new name, with their clauses. -/
theorem foldlM_isConditional (hs : r.settings = .ok s)
    (hspaces : ∀ line ∈ lines, NoSpaces line.tokens) (h : IsConditional s catalog a c lines)
    (hnew : name ∉ r.draft.conditionals.map Conditional.name) (hname : name ≠ "") :
    lines.foldlM (readLine catalog) (r.atStage name n .opened)
      = .ok ⟨r.draft.withConditional ⟨name, ⟨a.1, a.2⟩, ⟨c.1, c.2⟩, some n⟩,
          .afterConditional name⟩ := by
  obtain ⟨hif, hrepeats, hthen⟩ := h
  rename_i ifs repeats thens
  have hadd := Draft.addConditional_eq_ok_iff.mpr
    ⟨hnew, hname, hif.column_ne, hthen.column_ne, rfl (a := r.draft.withConditional
      ⟨name, ⟨a.1, a.2⟩, ⟨c.1, c.2⟩, some n⟩)⟩
  simp only [List.forall_mem_append] at hspaces
  obtain ⟨stage, hstage, hbetween⟩ : ∃ stage, stage.Word "then" (.inThen a) ∧
      repeats.foldlM (readLine catalog) (r.atStage name n (.afterIf a))
        = .ok (r.atStage name n stage) :=
    foldlM_repeats hs hspaces.2.1 hrepeats .toThen
  rw [List.foldlM_append, foldlM_if hs hspaces.1 hif]
  change (repeats ++ thens).foldlM (readLine catalog) (r.atStage name n (.afterIf a)) = _
  rw [List.foldlM_append, hbetween]
  exact foldlM_then hs hspaces.2.2 hthen hstage hadd

/-- What has been read after the head of a conditional rule: the rule is at the stage that the lines
lead to, or lines of the grammar came first. -/
private def Since (s : Settings) (catalog : Catalog) (r : RulesReader) (name : String) (n : Int)
    (lines : List TokenLine) (r' : RulesReader) : Prop :=
  (∃ stage, r' = r.atStage name n stage ∧ stage.Reached s catalog lines) ∨
    ∃ used a c, used <+: lines ∧ IsConditional s catalog a c used

private theorem Since.step {before : List TokenLine} {m m' : RulesReader} (hs : r.settings = .ok s)
    (h : Since s catalog r name n before m) (hstep : Step catalog m line m') :
    Since s catalog r name n (before ++ [line]) m' := by
  rcases h with ⟨stage, rfl, hreached⟩ | ⟨used, a, c, hused, hc⟩
  · cases hstep with
    | statement hplace => exact absurd rfl (hplace _)
    | rule hplace => simp [atStage] at hplace
    | word hplace hstage ht hline =>
      obtain rfl := Position.inConditional.inj hplace
      exact .inl ⟨_, rfl, hreached.enter hstage ⟨_, hline, ht⟩⟩
    | antecedent hplace hs' hlead hclause hline =>
      obtain rfl := Position.inConditional.inj hplace
      obtain rfl := Except.ok.inj (hs.symm.trans hs')
      exact .inl ⟨_, rfl, hreached.antecedent hlead hclause hline⟩
    | consequent hplace hs' hlead hclause hline =>
      obtain rfl := Position.inConditional.inj hplace
      obtain rfl := Except.ok.inj (hs.symm.trans hs')
      exact .inr ⟨_, _, _, List.prefix_rfl, hreached.consequent hlead hclause hline⟩
  -- further lines leave those of the finished rule where they are
  · exact .inr ⟨used, a, c, hused.trans (List.prefix_append _ _), hc⟩

/-- **Only lines of the grammar complete a conditional rule**: whatever is read after its head, the
rule is still at some stage, or such lines came first. -/
theorem exists_isConditional (hr : (r.atStage name n .opened).WellFormed) (hs : r.settings = .ok s)
    (hspaces : ∀ line ∈ lines, NoSpaces line.tokens)
    (hread : lines.foldlM (readLine catalog) (r.atStage name n .opened) = .ok r') :
    (∃ stage, r' = r.atStage name n stage ∧ stage.Reached s catalog lines) ∨
      ∃ used a c, used <+: lines ∧ IsConditional s catalog a c used := by
  have hstart : Since s catalog r name n [] (r.atStage name n .opened) :=
    .inl ⟨.opened, rfl, rfl⟩
  exact (foldlM_induction hspaces hr hread hstart fun _ _ _ _ _ h => h.step hs).2

/-! ### After the head of a conditional rule -/

/-- A text whose lines have a fault is refused with it. -/
theorem parse_eq_error {catalog : Option Catalog} {source : String} {f : RulesFault}
    (hlines : tokenLines source = .ok lines)
    (h : lines.foldlM (readLine (catalog.getD .standard)) (start catalog) = .error f) :
    Ruleset.parse catalog source = .error f :=
  bind_eq_error_iff.mpr (.inr ⟨lines, hlines, bind_eq_error_iff.mpr (.inl h)⟩)

/-- A text that ends in an unfinished conditional rule is refused. -/
theorem parse_eq_incomplete {catalog : Option Catalog} {source : String} {p : Pending}
    (hlines : tokenLines source = .ok lines)
    (hread : lines.foldlM (readLine (catalog.getD .standard)) (start catalog) = .ok r)
    (hplace : r.place = .inConditional p) :
    Ruleset.parse catalog source
      = .error (.malformed (.incomplete p.name p.stage.missing) (some p.line) none) := by
  refine bind_eq_error_iff.mpr (.inr ⟨lines, hlines, bind_eq_error_iff.mpr (.inr ⟨r, hread, ?_⟩)⟩)
  rw [finish, hplace]

/-- A reader has just read the head of a conditional rule of a given name and line. -/
structure IsAtHead (name : String) (n : Int) (r : RulesReader) : Prop where
  wellFormed : r.WellFormed
  place : r.place = .inConditional ⟨name, n, .opened⟩

namespace IsAtHead

theorem eq_atStage (h : r.IsAtHead name n) : r = r.atStage name n .opened := by
  rw [atStage, ← h.place]

/-- The name of the rule is new. -/
theorem isNew (h : r.IsAtHead name n) :
    name ∉ r.draft.conditionals.map Conditional.name ∧ name ≠ "" := by
  have hfits := h.wellFormed.place
  rw [h.place] at hfits
  exact ⟨hfits.1, hfits.2.1⟩

/-- Lines of the grammar complete the rule. -/
theorem complete (h : r.IsAtHead name n) (hs : r.settings = .ok s)
    (hspaces : ∀ line ∈ lines, NoSpaces line.tokens) (hc : IsConditional s catalog a c lines) :
    lines.foldlM (readLine catalog) r
      = .ok ⟨r.draft.withConditional ⟨name, ⟨a.1, a.2⟩, ⟨c.1, c.2⟩, some n⟩,
          .afterConditional name⟩ := by
  rw [h.eq_atStage]
  exact foldlM_isConditional hs hspaces hc h.isNew.1 h.isNew.2

/-- Lines that are read leave the rule at some stage, where it is not stored yet, or start with
lines of the grammar. -/
theorem stage_or_isConditional (h : r.IsAtHead name n) (hs : r.settings = .ok s)
    (hspaces : ∀ line ∈ lines, NoSpaces line.tokens)
    (hread : lines.foldlM (readLine catalog) r = .ok r') :
    (∃ stage, r' = r.atStage name n stage) ∨
      ∃ used a c, used <+: lines ∧ IsConditional s catalog a c used := by
  rw [h.eq_atStage] at hread
  refine (exists_isConditional (h.eq_atStage ▸ h.wellFormed) hs hspaces hread).imp_left ?_
  rintro ⟨stage, hr', -⟩
  exact ⟨stage, hr'⟩

/-- The rule is stored exactly if lines of the grammar come first. -/
theorem stored_iff (h : r.IsAtHead name n) (hs : r.settings = .ok s)
    (hspaces : ∀ line ∈ lines, NoSpaces line.tokens) :
    (∃ used r', used <+: lines ∧ used.foldlM (readLine catalog) r = .ok r' ∧
        r'.draft.hasConditional name = true) ↔
      ∃ used a c, used <+: lines ∧ IsConditional s catalog a c used := by
  have hbefore : ∀ used, used <+: lines → ∀ line ∈ used, NoSpaces line.tokens :=
    fun used hused line hline => hspaces line (hused.subset hline)
  constructor
  · rintro ⟨used, r', hused, hread, hstored⟩
    rcases h.stage_or_isConditional hs (hbefore used hused) hread with
      ⟨stage, rfl⟩ | ⟨first, a, c, hfirst, hc⟩
    · have hnot : r.draft.hasConditional name = false :=
        Draft.hasConditional_eq_false_iff.mpr h.isNew.1
      exact absurd (hnot.symm.trans hstored) Bool.false_ne_true
    · exact ⟨first, a, c, hfirst.trans hused, hc⟩
  · rintro ⟨used, a, c, hused, hc⟩
    refine ⟨used, _, hused, h.complete hs (hbefore used hused) hc, ?_⟩
    simp [Draft.withConditional, Draft.hasConditional]

end IsAtHead

/-- The first lines of a text that lead to the head of a conditional rule. -/
private theorem isAtHead_of_foldlM {catalog : Option Catalog}
    (hspaces : ∀ line ∈ lines, NoSpaces line.tokens)
    (hread : lines.foldlM (readLine (catalog.getD .standard)) (start catalog) = .ok r)
    (hplace : r.place = .inConditional ⟨name, n, .opened⟩) : r.IsAtHead name n where
  wellFormed := (wellFormed_start catalog).foldlM hspaces hread
  place := hplace

/-- Where no lines of the grammar follow the head of a conditional rule, the text is refused. -/
private theorem refused_of_not_isConditional {catalog : Option Catalog} {source : String}
    {before : List TokenLine} (h : r.IsAtHead name n) (hs : r.settings = .ok s)
    (hlines : tokenLines source = .ok (before ++ lines))
    (hread : before.foldlM (readLine (catalog.getD .standard)) (start catalog) = .ok r)
    (hspaces : ∀ line ∈ lines, NoSpaces line.tokens)
    (hnone : ¬ ∃ used a c, used <+: lines ∧
      IsConditional s (catalog.getD .standard) a c used) :
    ∃ f, Ruleset.parse catalog source = .error f ∧ f.CausedBy lines := by
  have hall : (before ++ lines).foldlM (readLine (catalog.getD .standard)) (start catalog)
      = lines.foldlM (readLine (catalog.getD .standard)) r := by
    rw [List.foldlM_append, hread]
    rfl
  cases hrest : lines.foldlM (readLine (catalog.getD .standard)) r with
  | error f => exact ⟨f, parse_eq_error hlines (hall.trans hrest), causedBy_of_foldlM hrest⟩
  | ok r' =>
    -- all lines are read, and the text ends in the unfinished rule
    obtain ⟨stage, rfl⟩ := (h.stage_or_isConditional hs hspaces hrest).resolve_right hnone
    exact ⟨_, parse_eq_incomplete hlines (hall.trans hrest) rfl, trivial⟩

/-- **After the head of a conditional rule** the lines complete the rule exactly if they start with
lines of the grammar, and what is stored are the two clauses of those lines. A text whose lines do
not start so is refused: as malformed, or for a count or a pattern of those lines that breaks a
limit. -/
theorem parse_conditional (catalog : Option Catalog) (source : String)
    (before lines : List TokenLine) (head : TokenLine) (name : String) (r : RulesReader)
    (hlines : tokenLines source = .ok (before ++ head :: lines))
    (hread : (before ++ [head]).foldlM (readLine (catalog.getD .standard)) (start catalog) = .ok r)
    (hplace : r.place = .inConditional ⟨name, head.number, .opened⟩) :
    ∃ s, r.settings = .ok s ∧
      ((∃ used r', used <+: lines ∧ used.foldlM (readLine (catalog.getD .standard)) r = .ok r' ∧
          r'.draft.hasConditional name = true) ↔
        ∃ used a c, used <+: lines ∧ IsConditional s (catalog.getD .standard) a c used) ∧
      (∀ used a c, used <+: lines → IsConditional s (catalog.getD .standard) a c used →
        used.foldlM (readLine (catalog.getD .standard)) r
          = .ok ⟨r.draft.withConditional ⟨name, ⟨a.1, a.2⟩, ⟨c.1, c.2⟩, some head.number⟩,
              .afterConditional name⟩) ∧
      ((¬ ∃ used a c, used <+: lines ∧ IsConditional s (catalog.getD .standard) a c used) →
        ∃ f, Ruleset.parse catalog source = .error f ∧ f.CausedBy lines) := by
  rw [List.append_cons] at hlines
  have hspaces := List.forall_mem_append.mp (noSpaces_of_tokenLines hlines)
  have hhead : r.IsAtHead name head.number := isAtHead_of_foldlM hspaces.1 hread hplace
  obtain ⟨s, hs⟩ := hhead.wellFormed.exists_settings
  refine ⟨s, hs, hhead.stored_iff hs hspaces.2, fun used a c hused hc => ?_, fun hnone => ?_⟩
  · exact hhead.complete hs (fun line hline => hspaces.2 line (hused.subset hline)) hc
  · exact refused_of_not_isConditional hhead hs hlines hread hspaces.2 hnone

end RulesReader

/-! ### The word `then` on two lines -/

/-- A text with a conditional rule, in which the word `then` stands on two lines. -/
def thenTwiceText : String :=
  "column names in ['country', 'postcode']\n" ++
  "conditional rule: 'postcode'\n" ++
  "if column: country is 'DE'\n" ++
  "then\n" ++
  "then\n" ++
  "column: postcode has length 5\n"

/-- Its line with the column names. -/
def namesLine : TokenLine :=
  ⟨1, "column names in ['country', 'postcode']",
    [⟨.word, "column", 1, 1⟩, ⟨.word, "names", 1, 8⟩, ⟨.word, "in", 1, 14⟩,
     ⟨.openBracket, "[", 1, 17⟩, ⟨.string, "country", 1, 18⟩, ⟨.comma, ",", 1, 27⟩,
     ⟨.string, "postcode", 1, 29⟩, ⟨.closeBracket, "]", 1, 39⟩]⟩

/-- The head of its conditional rule. -/
def postcodeHead : TokenLine :=
  ⟨2, "conditional rule: 'postcode'",
    [⟨.word, "conditional", 2, 1⟩, ⟨.word, "rule", 2, 13⟩, ⟨.colon, ":", 2, 17⟩,
     ⟨.string, "postcode", 2, 19⟩]⟩

/-- The line with its first section. -/
def countryLine : TokenLine :=
  ⟨3, "if column: country is 'DE'",
    [⟨.word, "if", 3, 1⟩, ⟨.word, "column", 3, 4⟩, ⟨.colon, ":", 3, 10⟩, ⟨.word, "country", 3, 12⟩,
     ⟨.word, "is", 3, 20⟩, ⟨.string, "DE", 3, 23⟩]⟩

/-- A line with the word `then`. -/
def thenLine (n : Int) : TokenLine := ⟨n, "then", [⟨.word, "then", n, 1⟩]⟩

/-- The line with the clause of its second section. -/
def postcodeLine : TokenLine :=
  ⟨6, "column: postcode has length 5",
    [⟨.word, "column", 6, 1⟩, ⟨.colon, ":", 6, 7⟩, ⟨.word, "postcode", 6, 9⟩, ⟨.word, "has", 6, 18⟩,
     ⟨.word, "length", 6, 22⟩, ⟨.number, "5", 6, 29⟩]⟩

/-- The lines after the head. -/
def thenTwiceLines : List TokenLine := [countryLine, thenLine 4, thenLine 5, postcodeLine]

private theorem tokenLines_thenTwiceText :
    tokenLines thenTwiceText = .ok (namesLine :: postcodeHead :: thenTwiceLines) := by
  decide +kernel

/-- Whether a position is right after the head of a conditional rule. -/
private def Position.isOpened (name : String) (n : Int) : Position → Bool
  | .inConditional ⟨name', n', .opened⟩ => name' == name && n' == n
  | _ => false

private theorem Position.eq_of_isOpened {name : String} {n : Int} {place : Position}
    (h : place.isOpened name n = true) : place = .inConditional ⟨name, n, .opened⟩ := by
  unfold isOpened at h
  split at h
  · simp only [Bool.and_eq_true, beq_iff_eq] at h
    rw [h.1, h.2]
  · simp at h

theorem thenTwiceText_conditional :
    tokenLines thenTwiceText = .ok ([namesLine] ++ postcodeHead :: thenTwiceLines) ∧
      ∃ r s, ([namesLine] ++ [postcodeHead]).foldlM (RulesReader.readLine .standard)
          (RulesReader.start none) = .ok r ∧
        r.place = .inConditional ⟨"postcode", 2, .opened⟩ ∧ r.settings = .ok s ∧
        ∃ used a c, used <+: thenTwiceLines ∧ IsConditional s .standard a c used := by
  have hopened : (([namesLine] ++ [postcodeHead]).foldlM (RulesReader.readLine .standard)
      (RulesReader.start none)).toOption.any (fun r => r.place.isOpened "postcode" 2) = true := by
    decide +kernel
  have hstored : (([namesLine] ++ [postcodeHead] ++ thenTwiceLines).foldlM
      (RulesReader.readLine .standard) (RulesReader.start none)).toOption.any
        (fun r => r.draft.hasConditional "postcode") = true := by
    decide +kernel
  obtain ⟨r, hread, hopened⟩ := any_toOption_iff.mp hopened
  have hplace := Position.eq_of_isOpened hopened
  obtain ⟨r', hread', hhas⟩ := any_toOption_iff.mp hstored
  rw [List.foldlM_append] at hread'
  obtain ⟨r'', hfirst, hrest⟩ := bind_eq_ok_iff.mp hread'
  obtain rfl := Except.ok.inj (hread.symm.trans hfirst)
  obtain ⟨s, hs, hiff, -, -⟩ := RulesReader.parse_conditional none thenTwiceText [namesLine]
    thenTwiceLines postcodeHead "postcode" r tokenLines_thenTwiceText hread hplace
  exact ⟨tokenLines_thenTwiceText, r, s, hread, hplace, hs,
    hiff.mp ⟨_, r', List.prefix_rfl, hrest, hhas⟩⟩

/-- A clause starts with the word `column`. -/
private theorem IsClause.exists_head {n : Int} (h : IsClause s catalog n clause ts) :
    ∃ t rest, ts = t :: rest ∧ IsKeyword "column" t := by
  obtain ⟨hws, -, -, -⟩ := h
  cases hws with
  | cons hword => exact ⟨_, _, rfl, hword⟩

/-- **Lines with `then` twice are taken** for a conditional rule, although they do not start with
an `if` section and a `then` section. -/
theorem thenTwiceText_accepted :
    (∃ ruleset, Ruleset.parse none thenTwiceText = .ok ruleset ∧
        ruleset.conditionals.map Conditional.name = ["postcode"]) ∧
      tokenLines thenTwiceText = .ok (namesLine :: postcodeHead :: thenTwiceLines) ∧
      ¬ ∃ s a c ifs thens, ifs ++ thens <+: thenTwiceLines ∧
        IsSection s .standard "if" a ifs ∧ IsSection s .standard "then" c thens := by
  refine ⟨?_, tokenLines_thenTwiceText, ?_⟩
  · have hnames : (Ruleset.parse none thenTwiceText).toOption.any
        (fun r => r.conditionals.map Conditional.name == ["postcode"]) = true := by
      decide +kernel
    obtain ⟨ruleset, hparse, hnames⟩ := any_toOption_iff.mp hnames
    exact ⟨ruleset, hparse, beq_iff_eq.mp hnames⟩
  · rintro ⟨s, a, c, ifs, thens, hprefix, hif, hthen⟩
    -- no clause starts with the word `then`
    have hclause : ∀ {n line clause rest}, ¬ IsClause s .standard n clause
        (⟨.word, "then", line, 1⟩ :: rest) := by
      intro n line clause rest h
      obtain ⟨t, rest', heq, hword⟩ := h.exists_head
      obtain ⟨rfl, -⟩ := List.cons.inj heq
      exact (by decide : Text.lowerAscii "then" ≠ "column") hword.2
    have hnil : ∀ {n clause}, ¬ IsClause s .standard n clause [] := by
      intro n clause h
      obtain ⟨t, rest', heq, -⟩ := h.exists_head
      simp at heq
    obtain ⟨rest, hrest⟩ := hprefix
    cases hif with
    | inline hline ht hclause' =>
      obtain ⟨rfl, hthens⟩ := List.cons.inj hrest
      cases hthen with
      | inline hline' ht' hclause'' =>
        obtain ⟨rfl, -⟩ := List.cons.inj hthens
        obtain ⟨-, rfl⟩ := List.cons.inj hline'
        exact hnil hclause''
      | split hhead hclause'' =>
        obtain ⟨-, hsecond⟩ := List.cons.inj hthens
        obtain ⟨rfl, -⟩ := List.cons.inj hsecond
        exact hclause hclause''
    | split hhead hclause' =>
      obtain ⟨-, hsecond⟩ := List.cons.inj hrest
      obtain ⟨rfl, -⟩ := List.cons.inj hsecond
      exact hclause hclause'

end TableRules
