import TableRules.Proofs.RulesText.Readings

/-!
# The faults of a rules text

Nearly every fault of a line is a malformed line, which is reported with the line. There are two
exceptions: a count of more than 4300 digits, and a pattern that breaks a limit rather than the form
of patterns. `BreaksLimit` says which tokens of a rule have such a fault, and
`RulesReader.AwaitsRule` which tokens of a line are to be a rule.

**Main results**
* `RulesReader.readLine_eq_error`: a line that is not read is malformed, or its rule breaks a limit.
* `RulesReader.causedBy_of_foldlM`: lines that are not all read have a fault with its cause in a
  token of one of them (`LineFault.CausedBy`).
-/

namespace TableRules

open Lexeme Tokens Result

variable {s : Settings} {catalog : Catalog} {t : Token} {ts ts' : List Token} {e : LineFault}
  {what : String}

/-! ### Causes -/

/-- A fault that is reported with the line. -/
def LineFault.IsMalformed (e : LineFault) : Prop := ∃ cause, e = .malformed cause

/-- A number of more than 4300 digits. -/
def Token.IsLongNumber (t : Token) : Prop :=
  t.kind = .number ∧ digitLimit < (t.value.toList.filter Text.isDigit).length

/-- A pattern that breaks a limit of patterns. -/
def Token.IsExcessivePattern (f : PatternFault) (t : Token) : Prop :=
  t.kind = .pattern ∧ Pattern.compile t.value = .error f ∧ ∀ cause pos, f ≠ .invalid cause pos

/-- The tokens of a rule break a limit: after the words of a count stands a number of too many
digits, or after the words of a pattern a pattern that breaks a limit of patterns. -/
inductive BreaksLimit (s : Settings) : LineFault → List Token → Prop
  | count {words : List String} {make : Nat → Constraint} {ws rest : List Token} {t : Token}
      (hform : (words, make) ∈ countForms) (hws : Keywords words ws) (ht : t.IsExcessiveCount s) :
      BreaksLimit s .tooManyDigits (ws ++ t :: rest)
  | pattern {words : List String} {ws rest : List Token} {t : Token} {f : PatternFault}
      (hform : words ∈ patternForms) (hws : Keywords words ws) (ht : t.IsExcessivePattern f) :
      BreaksLimit s (.pattern f) (ws ++ t :: rest)

/-- A fault has its cause in tokens: it is a malformed line, or one of the tokens breaks a limit. -/
def LineFault.CausedBy (ts : List Token) : LineFault → Prop
  | .malformed _ => True
  | .tooManyDigits => ∃ t ∈ ts, t.IsLongNumber
  | .pattern f => ∃ t ∈ ts, t.IsExcessivePattern f

/-- A fault of a text has its cause in given lines: it is a malformed text, or a token of one of the
lines breaks a limit. -/
def RulesFault.CausedBy (lines : List TokenLine) : RulesFault → Prop
  | .malformed _ _ _ => True
  | .tooManyDigits => ∃ line ∈ lines, ∃ t ∈ line.tokens, t.IsLongNumber
  | .pattern f => ∃ line ∈ lines, ∃ t ∈ line.tokens, t.IsExcessivePattern f

namespace LineFault

theorem isMalformed_of_refuse {α : Type} {cause : RulesCause}
    (h : (refuse cause : Except LineFault α) = .error e) : e.IsMalformed :=
  ⟨cause, (Except.error.inj h).symm⟩

theorem IsMalformed.causedBy (h : e.IsMalformed) : e.CausedBy ts := by
  obtain ⟨cause, rfl⟩ := h
  trivial

theorem CausedBy.mono (h : e.CausedBy ts) (hts : ts ⊆ ts') : e.CausedBy ts' := by
  cases e with
  | malformed => trivial
  | tooManyDigits =>
    obtain ⟨t, ht, hlong⟩ := h
    exact ⟨t, hts ht, hlong⟩
  | pattern f =>
    obtain ⟨t, ht, hpattern⟩ := h
    exact ⟨t, hts ht, hpattern⟩

theorem CausedBy.onLine {line : TokenLine} {lines : List TokenLine} (h : e.CausedBy line.tokens)
    (hline : line ∈ lines) : (e.onLine line).CausedBy lines := by
  cases e with
  | malformed => trivial
  | tooManyDigits => exact ⟨line, hline, h⟩
  | pattern f => exact ⟨line, hline, h⟩

end LineFault

/-- A count of too many digits is written with that many digits. -/
private theorem Token.IsExcessiveCount.isLongNumber (h : t.IsExcessiveCount s) :
    t.IsLongNumber := by
  obtain ⟨hkind, sign, ds, -, hds, htext, hlimit⟩ := h
  refine ⟨hkind, hlimit.trans_le ?_⟩
  have hsub : ds.Sublist t.value.toList := by
    have htrim : (Text.trimChars t.value.toList).Sublist t.value.toList := by
      have hdrop : ∀ cs, (Text.dropBlanks cs).Sublist cs := fun cs => List.dropWhile_sublist _
      have hreverse := ((hdrop (Text.dropBlanks t.value.toList).reverse).reverse)
      rw [List.reverse_reverse] at hreverse
      exact hreverse.trans (hdrop _)
    have hfilter : (ungrouped s t.value).Sublist (Text.trimChars t.value.toList) :=
      List.filter_sublist
    exact ((List.sublist_append_right sign ds).trans (htext ▸ hfilter)).trans htrim
  have hdigits : ds.filter Text.isDigit = ds := List.filter_eq_self.mpr hds.2
  rw [← hdigits]
  exact (hsub.filter Text.isDigit).length_le

theorem BreaksLimit.causedBy (h : BreaksLimit s e ts) : e.CausedBy ts := by
  cases h with
  | count _ _ ht => exact ⟨_, by simp, ht.isLongNumber⟩
  | pattern _ _ ht => exact ⟨_, by simp, ht⟩

/-! ### Faults of arguments -/

namespace Tokens

theorem isMalformed_of_expect {kind : TokenKind} (h : expect kind what ts = .error e) :
    e.IsMalformed := by
  unfold expect at h
  split at h
  · simp at h
  · exact LineFault.isMalformed_of_refuse h

theorem isMalformed_of_expectEnd (h : expectEnd ts = .error e) : e.IsMalformed := by
  cases ts with
  | nil => simp [expectEnd] at h
  | cons => exact LineFault.isMalformed_of_refuse h

theorem isMalformed_of_readName (h : readName what ts = .error e) : e.IsMalformed := by
  unfold readName at h
  split at h
  · exact LineFault.isMalformed_of_refuse h
  · split_ifs at h
    exact LineFault.isMalformed_of_refuse h

theorem isMalformed_of_readWords (h : readWords ts = .error e) : e.IsMalformed := by
  induction ts with
  | nil => simp [readWords] at h
  | cons t ts ih =>
    rw [readWords] at h
    split_ifs at h
    · exact ih (map_eq_error_iff.mp h)
    · exact LineFault.isMalformed_of_refuse h

theorem isMalformed_of_readReal (h : readReal s ts = .error e) : e.IsMalformed := by
  unfold readReal at h
  split at h
  · rename_i hexpect
    exact isMalformed_of_expect (Except.error.inj h ▸ hexpect)
  · split at h
    · exact LineFault.isMalformed_of_refuse h
    · simp at h

private theorem isMalformed_of_readItems {fuel : Nat} (h : readItems s fuel ts = .error e) :
    e.IsMalformed := by
  induction fuel generalizing ts with
  | zero => exact LineFault.isMalformed_of_refuse h
  | succ fuel ih =>
    rw [readItems] at h
    split at h
    · rename_i hitem
      rw [Except.error.inj h, readItem] at hitem
      split at hitem
      · simp at hitem
      · exact isMalformed_of_readReal (map_eq_error_iff.mp hitem)
    · split at h
      · simp at h
      · split at h
        · rename_i hcomma
          exact isMalformed_of_expect (Except.error.inj h ▸ hcomma)
        · exact ih (map_eq_error_iff.mp h)

theorem isMalformed_of_readList (h : readList s ts = .error e) : e.IsMalformed := by
  unfold readList at h
  split at h
  · rename_i hexpect
    exact isMalformed_of_expect (Except.error.inj h ▸ hexpect)
  · split at h
    · simp at h
    · exact isMalformed_of_readItems h

theorem isMalformed_of_readTexts (h : readTexts what s ts = .error e) : e.IsMalformed := by
  unfold readTexts at h
  split at h
  · rename_i hlist
    exact isMalformed_of_readList (Except.error.inj h ▸ hlist)
  · dsimp only at h
    split at h
    · simp at h
    · exact LineFault.isMalformed_of_refuse h

end Tokens

/-! ### Faults of phrases -/

/-- A line with the words of a statement that is not one is malformed. -/
theorem isMalformed_of_read? (h : Statement.read? s ts = some (.error e)) : e.IsMalformed := by
  unfold Statement.read? at h
  split at h
  · exact isMalformed_of_readName (map_eq_error_iff.mp (Option.some.inj h))
  obtain ⟨p, hp, ws, rest, -, rfl, hread⟩ := Phrase.exists_of_readFirst? h
  cases Statement.mem_phrases_iff.mp hp with
  | columnNames => exact isMalformed_of_readTexts (map_eq_error_iff.mp hread.symm)
  | nullValues => exact isMalformed_of_readTexts (map_eq_error_iff.mp hread.symm)
  | separator => exact isMalformed_of_expect (map_eq_error_iff.mp hread.symm)
  | precision => exact isMalformed_of_readReal (map_eq_error_iff.mp hread.symm)
  | flag => simp [Phrase.bare] at hread
  | openConditional =>
    rcases bind_eq_error_iff.mp hread.symm with hcolon | ⟨⟨value, rest⟩, -, hname⟩
    · exact isMalformed_of_expect hcolon
    · exact isMalformed_of_readName (map_eq_error_iff.mp hname)

private theorem isMalformed_of_readIs (h : readIs s ts = .error e) : e.IsMalformed := by
  unfold readIs at h
  split at h
  · split at h
    · exact isMalformed_of_readReal (map_eq_error_iff.mp h)
    · exact LineFault.isMalformed_of_refuse h
  · exact isMalformed_of_expect (map_eq_error_iff.mp h)

private theorem readPattern_eq_error (h : readPattern ts = .error e) :
    e.IsMalformed ∨ ∃ words ms t left f, words ∈ optionalWords ∧ Keywords words ms ∧
      ts = ms ++ t :: left ∧ t.IsExcessivePattern f ∧ e = .pattern f := by
  rcases bind_eq_error_iff.mp h with hexpect | ⟨⟨text, rest⟩, hexpect, hcompile⟩
  · exact .inl (isMalformed_of_expect hexpect)
  · obtain ⟨t, htext, hkind, rfl⟩ := expect_eq_ok_iff.mp hexpect
    dsimp only at hcompile
    split at hcompile
    · simp at hcompile
    · exact .inl (LineFault.isMalformed_of_refuse hcompile)
    · rename_i f hne hf
      obtain ⟨words, ms, hwords, hms, rfl, -⟩ := dropOptional_iff.mp ⟨htext, hkind⟩
      exact .inr ⟨words, ms, t, rest, f, hwords, hms, rfl, ⟨hkind, hf, hne⟩,
        (Except.error.inj hcompile).symm⟩

/-- A rule that is not read is malformed or breaks a limit. -/
theorem readConstraint_eq_error (h : readConstraint s catalog ts = .error e) :
    e.IsMalformed ∨ BreaksLimit s e ts := by
  unfold readConstraint at h
  split at h
  · exact .inl (LineFault.isMalformed_of_refuse h)
  · rename_i e' hread
    obtain rfl := Except.error.inj h
    obtain ⟨p, hp, ws, rest, hws, rfl, hread⟩ := Phrase.exists_of_readFirst? hread
    cases mem_rulePhrases_iff.mp hp with
    | type =>
      rcases bind_eq_error_iff.mp hread.symm with hwords | ⟨words, -, hname⟩
      · exact .inl (isMalformed_of_readWords hwords)
      · dsimp only at hname
        split at hname
        · simp at hname
        · exact .inl (LineFault.isMalformed_of_refuse hname)
    | format =>
      rcases bind_eq_error_iff.mp hread.symm with hexpect | ⟨⟨name, left⟩, -, hname⟩
      · exact .inl (isMalformed_of_expect hexpect)
      · dsimp only at hname
        split_ifs at hname
        exact .inl (LineFault.isMalformed_of_refuse hname)
    | count hform =>
      rcases readCount_eq_error (map_eq_error_iff.mp hread.symm) with
        hmalformed | ⟨rfl, t, left, rfl, ht⟩
      · exact .inl hmalformed
      · exact .inr (.count hform hws ht)
    | bare => simp [Phrase.bare] at hread
    | set => exact .inl (isMalformed_of_readList (map_eq_error_iff.mp hread.symm))
    | text => exact .inl (isMalformed_of_expect (map_eq_error_iff.mp hread.symm))
    | is => exact .inl (isMalformed_of_readIs hread.symm)
    | pattern =>
      rcases readPattern_eq_error hread.symm with
        hmalformed | ⟨words, ms, t, left, f, hwords, hms, rfl, ht, rfl⟩
      · exact .inl hmalformed
      · rw [← List.append_assoc]
        exact .inr (.pattern (List.mem_map_of_mem hwords) (List.rel_append hws hms) ht)
  · exact .inl (isMalformed_of_expectEnd (map_eq_error_iff.mp h))

/-! ### Faults of lines -/

/-- The tokens of a clause whose rule is given tokens: the head of a block stands before them. -/
inductive IsClauseOf (rule : List Token) : List Token → Prop
  | mk {ws : List Token} {colon t : Token} (hws : Keywords ["column"] ws)
      (hcolon : colon.kind = .colon) (hname : IsName t) : IsClauseOf rule (ws ++ colon :: t :: rule)

/-- Whether a clause may stand at a stage of a conditional rule. -/
def Stage.TakesClause : Stage → Prop
  | .inIf => True
  | .inThen _ => True
  | _ => False

namespace RulesReader

variable {r r' : RulesReader} {line : TokenLine} {p : Pending}

/-- The tokens of a line that are to be a rule: all of them in a block, and those of a clause in an
unfinished conditional rule. -/
inductive AwaitsRule (r : RulesReader) (line : TokenLine) : List Token → Prop
  | block {column : String} (hplace : r.place = .inBlock column) : AwaitsRule r line line.tokens
  | clause {p : Pending} {stage : Stage} {ws ts rule : List Token}
      (hplace : r.place = .inConditional p) (hlead : p.stage.Leads ws stage)
      (hstage : stage.TakesClause) (hline : line.tokens = ws ++ ts) (hrule : IsClauseOf rule ts) :
      AwaitsRule r line rule

theorem AwaitsRule.subset {rule : List Token} (h : r.AwaitsRule line rule) :
    rule ⊆ line.tokens := by
  cases h with
  | block => exact List.Subset.refl _
  | clause _ _ _ hline hrule =>
    cases hrule with
    | mk =>
      rw [hline]
      exact fun t ht => by simp [ht]

private theorem isMalformed_of_declare {d : Except DraftFault Draft} (h : declare d = .error e) :
    e.IsMalformed := by
  cases d with
  | ok => simp [declare] at h
  | error => exact LineFault.isMalformed_of_refuse h

private theorem isMalformed_of_settings (h : r.settings = .error e) : e.IsMalformed := by
  unfold settings at h
  split at h
  · simp at h
  · exact LineFault.isMalformed_of_refuse h

private theorem isMalformed_of_enterSection (h : enterSection p ts = .error e) :
    e.IsMalformed := by
  unfold enterSection at h
  split at h
  · split at h
    · simp at h
    · exact LineFault.isMalformed_of_refuse h
  split at h
  · split at h
    · simp at h
    · simp at h
    · exact LineFault.isMalformed_of_refuse h
  · split_ifs at h
    exact LineFault.isMalformed_of_refuse h

/-- A clause that is not read is malformed, or its rule breaks a limit. -/
private theorem readClause_eq_error {n : Int} (h : readClause s catalog n ts = .error e) :
    e.IsMalformed ∨ ∃ rule, IsClauseOf rule ts ∧ BreaksLimit s e rule := by
  unfold readClause at h
  split at h
  · exact .inl (LineFault.isMalformed_of_refuse h)
  rename_i rest hdrop
  obtain ⟨ws, hws, rfl⟩ := dropWords?_eq_some_iff.mp hdrop
  rcases bind_eq_error_iff.mp h with hcolon | ⟨⟨value, after⟩, hcolon, hafter⟩
  · exact .inl (isMalformed_of_expect hcolon)
  obtain ⟨colon, rfl, hkind, -⟩ := expect_eq_ok_iff.mp hcolon
  rcases bind_eq_error_iff.mp hafter with hname | ⟨⟨column, left⟩, hname, hleft⟩
  · exact .inl (isMalformed_of_readName hname)
  obtain ⟨t, rfl, ht, -⟩ := readName_eq_ok_iff.mp hname
  dsimp only at hleft
  split_ifs at hleft
  · exact .inl (LineFault.isMalformed_of_refuse hleft)
  · rcases bind_eq_error_iff.mp hleft with hrule | ⟨rule, -, hclause⟩
    · refine (readConstraint_eq_error (map_eq_error_iff.mp hrule)).imp_right fun hbreaks => ?_
      exact ⟨left, .mk hws hkind ht, hbreaks⟩
    · simp [pure, Except.pure] at hclause

/-- A section that goes on with a clause has a malformed line, or the rule of the clause breaks a
limit. -/
private theorem readClause_bind_eq_error {stage : Stage} {ws : List Token}
    {next : ClauseText → Except LineFault RulesReader} (hplace : r.place = .inConditional p)
    (hlead : p.stage.Leads ws stage) (hstage : stage.TakesClause) (hline : line.tokens = ws ++ ts)
    (hnext : ∀ clause, next clause = .error e → e.IsMalformed)
    (h : (r.settings >>= fun s => readClause s catalog line.number ts >>= next) = .error e) :
    e.IsMalformed ∨
      ∃ s rule, r.settings = .ok s ∧ r.AwaitsRule line rule ∧ BreaksLimit s e rule := by
  rcases bind_eq_error_iff.mp h with hs | ⟨s, hs, h⟩
  · exact .inl (isMalformed_of_settings hs)
  rcases bind_eq_error_iff.mp h with hclause | ⟨clause, -, h⟩
  · refine (readClause_eq_error hclause).imp_right ?_
    rintro ⟨rule, hrule, hbreaks⟩
    exact ⟨s, rule, hs, .clause hplace hlead hstage hline hrule, hbreaks⟩
  · exact .inl (hnext clause h)

private theorem readSection_eq_error (hplace : r.place = .inConditional p)
    (h : r.readSection catalog p line = .error e) :
    e.IsMalformed ∨
      ∃ s rule, r.settings = .ok s ∧ r.AwaitsRule line rule ∧ BreaksLimit s e rule := by
  rcases bind_eq_error_iff.mp h with henter | ⟨⟨stage, rest⟩, henter, h⟩
  · exact .inl (isMalformed_of_enterSection henter)
  obtain ⟨ws, hlead, hline⟩ : ∃ ws, p.stage.Leads ws stage ∧ line.tokens = ws ++ rest := by
    rcases enterSection_eq_ok_iff.mp henter with ⟨word, t, hword, ht, hline⟩ | ⟨rfl, rfl, -⟩
    · exact ⟨[t], .word hword ht, hline⟩
    · exact ⟨[], .none, rfl⟩
  dsimp only at h
  split_ifs at h
  · simp [pure, Except.pure] at h
  cases stage with
  | opened => exact .inl (LineFault.isMalformed_of_refuse h)
  | afterIf => exact .inl (LineFault.isMalformed_of_refuse h)
  | inIf =>
    refine readClause_bind_eq_error hplace hlead trivial hline (fun clause h => ?_) h
    simp [pure, Except.pure] at h
  | inThen a =>
    refine readClause_bind_eq_error hplace hlead trivial hline (fun clause h => ?_) h
    rcases bind_eq_error_iff.mp h with hd | ⟨d, -, h⟩
    · exact isMalformed_of_declare hd
    · simp [pure, Except.pure] at h

private theorem isMalformed_of_declareAll (r : RulesReader)
    {declared : Except DraftFault Draft} {rest : List Token}
    (h : r.declareAll declared rest = .error e) : e.IsMalformed := by
  rcases bind_eq_error_iff.mp h with hd | ⟨d, -, h⟩
  · exact isMalformed_of_declare hd
  rcases bind_eq_error_iff.mp h with hend | ⟨u, -, h⟩
  · exact isMalformed_of_expectEnd hend
  · simp [pure, Except.pure] at h

private theorem isMalformed_of_perform {n : Int} {st : Statement} {rest : List Token}
    (h : r.perform n st rest = .error e) : e.IsMalformed := by
  cases st with
  | openBlock column =>
    rw [perform, openBlock] at h
    split_ifs at h
    · rcases bind_eq_error_iff.mp h with hd | ⟨d, -, h⟩
      · exact isMalformed_of_declare hd
      · simp [pure, Except.pure] at h
    · split at h
      · exact LineFault.isMalformed_of_refuse h
      · exact LineFault.isMalformed_of_refuse h
  | openConditional name =>
    rcases bind_eq_error_iff.mp h with hend | ⟨u, -, h⟩
    · exact isMalformed_of_expectEnd hend
    · split_ifs at h
      · exact LineFault.isMalformed_of_refuse h
      · simp [pure, Except.pure] at h
  | _ => exact isMalformed_of_declareAll r h

private theorem readPlainLine_eq_error (h : r.readPlainLine catalog line = .error e) :
    e.IsMalformed ∨
      ∃ s rule, r.settings = .ok s ∧ r.AwaitsRule line rule ∧ BreaksLimit s e rule := by
  rcases bind_eq_error_iff.mp h with hs | ⟨s, hs, h⟩
  · exact .inl (isMalformed_of_settings hs)
  split at h
  · rename_i e' hread
    exact .inl (isMalformed_of_read? (Except.error.inj h ▸ hread))
  · exact .inl (isMalformed_of_perform h)
  · unfold readBlockRule at h
    split at h
    · rename_i column hplace
      rcases bind_eq_error_iff.mp h with hrule | ⟨rule, -, h⟩
      · refine (readConstraint_eq_error (map_eq_error_iff.mp hrule)).imp_right fun hbreaks => ?_
        exact ⟨s, line.tokens, hs, .block hplace, hbreaks⟩
      rcases bind_eq_error_iff.mp h with hd | ⟨d, -, h⟩
      · exact .inl (isMalformed_of_declare hd)
      · simp [pure, Except.pure] at h
    · exact .inl (LineFault.isMalformed_of_refuse h)

/-- **A line that is not read** is malformed, or its rule breaks a limit. -/
theorem readLine_eq_error {f : RulesFault} (h : readLine catalog r line = .error f) :
    ∃ e : LineFault, f = e.onLine line ∧
      (e.IsMalformed ∨
        ∃ s rule, r.settings = .ok s ∧ r.AwaitsRule line rule ∧ BreaksLimit s e rule) := by
  obtain ⟨e, he, rfl⟩ := mapError_eq_error_iff.mp h
  refine ⟨e, rfl, ?_⟩
  split at he
  · rename_i p hplace
    exact readSection_eq_error hplace he
  · exact readPlainLine_eq_error he

/-- A line that is not read has a fault with its cause in the line. -/
private theorem causedBy_of_readLine {f : RulesFault} (h : readLine catalog r line = .error f) :
    ∃ e : LineFault, f = e.onLine line ∧ e.CausedBy line.tokens := by
  obtain ⟨e, rfl, hmalformed | ⟨s, rule, -, hrule, hbreaks⟩⟩ := readLine_eq_error h
  · exact ⟨e, rfl, hmalformed.causedBy⟩
  · exact ⟨e, rfl, hbreaks.causedBy.mono hrule.subset⟩

/-- **Lines that are not all read** have a fault with its cause in one of them. -/
theorem causedBy_of_foldlM {lines : List TokenLine} {f : RulesFault}
    (h : lines.foldlM (readLine catalog) r = .error f) : f.CausedBy lines := by
  obtain ⟨before, line, after, middle, rfl, -, hline⟩ := exists_of_foldlM_eq_error h
  obtain ⟨e, rfl, hcause⟩ := causedBy_of_readLine hline
  exact hcause.onLine (by simp)

end RulesReader

end TableRules
