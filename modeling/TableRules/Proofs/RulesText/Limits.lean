import TableRules.Proofs.RulesText.FirstFaults

/-!
# Faults that are not reported with a line

A text is a ruleset or malformed, unless a rule breaks a limit. `BreaksLimit` and
`RulesReader.AwaitsRule` say where that happens, and here they are shown to be exact: such a rule is
never read (`BreaksLimit.readConstraint_eq`), nor is a line with it
(`RulesReader.readLine_limit_iff`).

**Main result** (`Ruleset.parse_limit_iff`): a text has a fault without a line exactly if all its
lines can be cut into tokens and the first one that is not read holds a rule that breaks a limit.
-/

namespace TableRules

open Tokens Result

variable {s : Settings} {catalog : Catalog} {t : Token} {ts ws rest rule : List Token}
  {e : LineFault}

/-- A fault that is reported as a malformed text. -/
def RulesFault.IsMalformed (f : RulesFault) : Prop :=
  ∃ cause line text, f = .malformed cause line text

theorem LineFault.isMalformed_onLine {line : TokenLine} :
    (e.onLine line).IsMalformed ↔ e.IsMalformed := by
  cases e with
  | malformed cause => exact ⟨fun _ => ⟨cause, rfl⟩, fun _ => ⟨cause, _, _, rfl⟩⟩
  | _ => simp [onLine, RulesFault.IsMalformed, IsMalformed]

/-! ### Rules -/

private theorem readPattern_eq_limit {words : List String} {f : PatternFault}
    (hwords : words ∈ optionalWords) (hws : Keywords words ws) (ht : t.IsExcessivePattern f) :
    readPattern (ws ++ t :: rest) = .error (.pattern f) := by
  obtain ⟨hkind, hcompile, hne⟩ := ht
  have hdrop : (dropWords? ["pattern"] (ws ++ t :: rest)).getD (ws ++ t :: rest) = t :: rest :=
    (dropOptional_iff.mpr ⟨words, ws, hwords, hws, rfl, hkind⟩).1
  refine bind_eq_error_iff.mpr
    (.inr ⟨(t.value, rest), expect_eq_ok_iff.mpr ⟨t, hdrop, hkind, rfl⟩, ?_⟩)
  dsimp only
  rw [hcompile]
  cases f with
  | invalid cause pos => exact absurd rfl (hne cause pos)
  | _ => rfl

/-- **A rule that breaks a limit** is not read. -/
theorem BreaksLimit.readConstraint_eq (h : BreaksLimit s e ts) :
    readConstraint s catalog ts = .error e := by
  cases h with
  | @count words make ws rest t hform hws ht =>
    have hp : countPhrase s words make ∈ rulePhrases s catalog :=
      mem_rulePhrases_iff.mpr (.count hform)
    have hrest : ∀ t' ∈ (t :: rest).head?, t'.kind ≠ .word := by simp [ht.1]
    have happend := readConstraint_append hp hws (by decide) (.nil : Keywords [] []) hrest
    rw [List.nil_append] at happend
    rw [happend, countPhrase]
    dsimp only
    rw [readCount_of_isExcessiveCount ht]
    rfl
  | @pattern words ws rest t f hform hws ht =>
    obtain ⟨first, more, ms, hfirst, hmore, hms, rfl, rfl⟩ := exists_optionalWords hform hws
    have hrest : ∀ t' ∈ (t :: rest).head?, t'.kind ≠ .word := by simp [ht.1]
    rw [List.append_assoc,
      readConstraint_append (mem_rulePhrases_iff.mpr .pattern) hfirst hmore hms hrest]
    dsimp only
    rw [readPattern_eq_limit hmore hms ht]
    rfl

/-- A rule that breaks a limit starts like a rule. -/
private theorem BreaksLimit.exists_head (h : BreaksLimit s e ts) :
    ∃ t rest, ts = t :: rest ∧ ∃ w ∈ ruleHeads, IsKeyword w t := by
  have hcounts : ∀ form ∈ countForms, ∃ w ∈ ruleHeads, form.1.head? = some w := by decide
  have hpatterns : ∀ words ∈ patternForms, ∃ w ∈ ruleHeads, words.head? = some w := by decide
  obtain ⟨words, ws, rest, rfl, hws, w, hw, hhead⟩ : ∃ words ws rest, ts = ws ++ rest ∧
      Keywords words ws ∧ ∃ w ∈ ruleHeads, words.head? = some w := by
    cases h with
    | count hform hws => exact ⟨_, _, _, rfl, hws, hcounts _ hform⟩
    | pattern hform hws => exact ⟨_, _, _, rfl, hws, hpatterns _ hform⟩
  obtain ⟨words, rfl⟩ := List.head?_eq_some_iff.mp hhead
  obtain ⟨t, ws, rfl, hword⟩ := hws.exists_head
  exact ⟨t, ws ++ rest, rfl, w, hw, hword⟩

theorem BreaksLimit.not_isMalformed (h : BreaksLimit s e ts) : ¬ e.IsMalformed := by
  rintro ⟨cause, rfl⟩
  cases h

/-! ### Lines -/

namespace RulesReader

variable {r : RulesReader} {line : TokenLine}

private theorem readClause_eq_limit {n : Int} (hclause : IsClauseOf rule ts)
    (h : BreaksLimit s e rule) : readClause s catalog n ts = .error e := by
  cases hclause with
  | @mk ws colon t hws hcolon hname =>
    have hnonempty : rule.isEmpty = false := by
      obtain ⟨t', rest, rfl, -⟩ := h.exists_head
      rfl
    unfold readClause
    rw [dropWords?_eq_some_iff.mpr ⟨ws, hws, rfl⟩]
    refine bind_eq_error_iff.mpr
      (.inr ⟨_, expect_eq_ok_iff.mpr ⟨colon, rfl, hcolon, rfl⟩, ?_⟩)
    refine bind_eq_error_iff.mpr (.inr ⟨_, readName_cons hname, ?_⟩)
    dsimp only
    rw [hnonempty, if_neg Bool.false_ne_true]
    exact bind_eq_error_iff.mpr (.inl (map_eq_error_iff.mpr h.readConstraint_eq))

private theorem readSection_eq_limit {p : Pending} {stage : Stage}
    (hlead : p.stage.Leads ws stage) (hstage : stage.TakesClause) (hline : line.tokens = ws ++ ts)
    (hclause : IsClauseOf rule ts) (hs : r.settings = .ok s) (h : BreaksLimit s e rule) :
    r.readSection catalog p line = .error e := by
  have hhead : (Statement.columnHead? ts).isSome ∧ ts.isEmpty = false := by
    cases hclause with
    | @mk ws colon t hws hcolon hname =>
      rw [Statement.columnHead?_eq_some_iff.mpr ⟨ws, colon, hws, hcolon, rfl⟩]
      simp
  have henter : enterSection p line.tokens = .ok (stage, ts) := by
    rw [hline]
    cases hlead with
    | @word _ word t hword ht =>
      exact enterSection_eq_ok_iff.mpr (.inl ⟨word, t, hword, ht, rfl⟩)
    | none => exact enterSection_eq_ok_iff.mpr (.inr ⟨rfl, rfl, hhead.1⟩)
  refine bind_eq_error_iff.mpr (.inr ⟨_, henter, ?_⟩)
  dsimp only
  rw [hhead.2, if_neg Bool.false_ne_true]
  cases stage with
  | opened | afterIf => exact absurd hstage id
  | inIf | inThen =>
    refine bind_eq_error_iff.mpr (.inr ⟨s, hs, ?_⟩)
    exact bind_eq_error_iff.mpr (.inl (readClause_eq_limit hclause h))

private theorem readPlainLine_eq_limit {column : String} (hplace : r.place = .inBlock column)
    (hs : r.settings = .ok s) (h : BreaksLimit s e line.tokens) :
    r.readPlainLine catalog line = .error e := by
  have hread : Statement.read? s line.tokens = none := by
    obtain ⟨t, rest, htokens, w, hw, hword⟩ := h.exists_head
    rw [htokens]
    exact read?_eq_none_of_head hw hword
  refine bind_eq_error_iff.mpr (.inr ⟨s, hs, ?_⟩)
  rw [hread, readBlockRule, hplace]
  exact bind_eq_error_iff.mpr (.inl (map_eq_error_iff.mpr h.readConstraint_eq))

/-- **A line has a fault without a line number** exactly if its rule breaks a limit. -/
theorem readLine_limit_iff {f : RulesFault} :
    (readLine catalog r line = .error f ∧ ¬ f.IsMalformed) ↔
      ∃ s rule e, r.settings = .ok s ∧ r.AwaitsRule line rule ∧ BreaksLimit s e rule ∧
        f = e.onLine line := by
  constructor
  · rintro ⟨h, hf⟩
    obtain ⟨e, rfl, he⟩ := readLine_eq_error h
    rw [LineFault.isMalformed_onLine] at hf
    obtain ⟨s, rule, hs, hrule, hbreaks⟩ := he.resolve_left hf
    exact ⟨s, rule, e, hs, hrule, hbreaks, rfl⟩
  · rintro ⟨s, rule, e, hs, hrule, hbreaks, rfl⟩
    refine ⟨mapError_eq_error_iff.mpr ⟨e, ?_, rfl⟩, ?_⟩
    · cases hrule with
      | block hplace =>
        rw [hplace]
        exact readPlainLine_eq_limit hplace hs hbreaks
      | clause hplace hlead hstage hline hclause =>
        rw [hplace]
        exact readSection_eq_limit hlead hstage hline hclause hs hbreaks
    · rw [LineFault.isMalformed_onLine]
      exact hbreaks.not_isMalformed

end RulesReader

/-! ### Texts -/

open RulesReader

/-- **A text has a fault that is not reported as malformed** exactly if all its lines can be cut
into tokens, some of them are read, and the rule of the next one breaks a limit: it has a count of
more than 4300 digits or a pattern that breaks a limit of patterns. Every other text is a ruleset or
malformed. -/
theorem Ruleset.parse_limit_iff (catalog : Option Catalog) (source : String) (f : RulesFault) :
    (Ruleset.parse catalog source = .error f ∧ ¬ f.IsMalformed) ↔
      ∃ before line after r s rule e,
        tokenLines source = .ok (before ++ line :: after) ∧
        before.foldlM (readLine (catalog.getD .standard)) (start catalog) = .ok r ∧
        r.settings = .ok s ∧ r.AwaitsRule line rule ∧ BreaksLimit s e rule ∧
        f = e.onLine line := by
  constructor
  · rintro ⟨h, hf⟩
    rcases bind_eq_error_iff.mp h with hlines | ⟨lines, hlines, h⟩
    · obtain ⟨before, text, fault, -, rfl⟩ := exists_isFirstUncut hlines
      exact absurd ⟨_, _, _, rfl⟩ hf
    rcases bind_eq_error_iff.mp h with hfold | ⟨r, -, hfinish⟩
    · obtain ⟨before, line, after, r, rfl, hread, hline⟩ := exists_of_foldlM_eq_error hfold
      obtain ⟨s, rule, e, hbreaks⟩ := readLine_limit_iff.mp ⟨hline, hf⟩
      exact ⟨before, line, after, r, s, rule, e, hlines, hread, hbreaks⟩
    · obtain ⟨cause, line, rfl⟩ := finish_eq_error hfinish
      exact absurd ⟨cause, line, none, rfl⟩ hf
  · rintro ⟨before, line, after, r, s, rule, e, hlines, hread, hbreaks⟩
    obtain ⟨hline, hf⟩ := readLine_limit_iff.mpr ⟨s, rule, e, hbreaks⟩
    refine ⟨bind_eq_error_iff.mpr (.inr ⟨_, hlines, bind_eq_error_iff.mpr (.inl ?_)⟩), hf⟩
    rw [List.foldlM_append, hread]
    refine bind_eq_error_iff.mpr (.inr ⟨r, rfl, ?_⟩)
    rw [List.foldlM_cons]
    exact bind_eq_error_iff.mpr (.inl hline)

/-- A rules text with a pattern that repeats a letter too often. -/
def repeatedText : String :=
  "column names in ['id']\n" ++
  "column: 'id'\n" ++
  "matches /a\x7b99999999999\x7d/\n"

/-- **A text that is neither a ruleset nor malformed.** -/
theorem repeatedText_escapes :
    Ruleset.parse none repeatedText = .error (.pattern .repetitionTooLarge) := by
  have hfault : (Ruleset.parse none repeatedText).map (fun _ => ())
      = .error (.pattern .repetitionTooLarge) := by
    decide +kernel
  exact map_eq_error_iff.mp hfault

end TableRules
