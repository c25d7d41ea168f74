import TableRules.Proofs.RulesText.Faults

/-!
# The line that is reported

`RulesReader.readFromTop` reads the lines of a source from the top and looks at no line before those
above it have been read. `Ruleset.parse` cuts all lines into tokens first. The two agree where every
line can be cut (`Ruleset.parse_eq_readFromTop`). Elsewhere the first line that cannot be cut is
reported although reading from the top may end before it.

**Main result** (`Ruleset.parse_reported_line`): a line that is reported is the first one that is
refused from the top, or it cannot be cut into tokens and a line above it is refused. The second
case occurs (`quoteBelowText_hidden`).
-/

namespace TableRules

open Result

variable {source text text' : String} {before before' texts : List String} {n : Nat}

/-! ### Lines that can be cut -/

/-- A line holds no tokens, or it can be cut into tokens, whatever its number is. -/
def IsCuttable (text : String) : Prop :=
  isSkipped text = true ∨ ∀ line, ∃ ts, scanTokens line text = .ok ts

/-- The first of some lines that cannot be cut into tokens, with its fault; the lines `before` it
can be. Neither depends on the numbers of the lines. -/
structure IsFirstUncut (texts before : List String) (text : String) (fault : LexFault) : Prop where
  isPrefix : before ++ [text] <+: texts
  before : ∀ t ∈ before, IsCuttable t
  isSkipped : isSkipped text = false
  scan (line : Int) : scanTokens line text = .error fault

private theorem IsFirstUncut.cons {fault : LexFault} (h : IsFirstUncut texts before text fault)
    (htext : IsCuttable text') : IsFirstUncut (text' :: texts) (text' :: before) text fault where
  isPrefix := List.cons_prefix_cons.mpr ⟨rfl, h.isPrefix⟩
  before := List.forall_mem_cons.mpr ⟨htext, h.before⟩
  isSkipped := h.isSkipped
  scan := h.scan

/-- Lines that are not all cut have a first one that cannot be, and are refused for it. -/
theorem exists_isFirstUncut {f : RulesFault} (h : tokenLinesFrom n texts = .error f) :
    ∃ before text fault, IsFirstUncut texts before text fault ∧
      f = .malformed (.lexical fault) (some ((n + before.length : Nat) : Int)) (some text) := by
  induction texts generalizing n with
  | nil => simp [tokenLinesFrom] at h
  | cons text texts ih =>
    -- a line that can be cut is one more line before the first that cannot be
    have hlater (htext : IsCuttable text) (hrest : tokenLinesFrom (n + 1) texts = .error f) :
        ∃ before text' fault, IsFirstUncut (text :: texts) before text' fault ∧
          f = .malformed (.lexical fault) (some ((n + before.length : Nat) : Int))
            (some text') := by
      obtain ⟨before, text', fault, hfirst, rfl⟩ := ih hrest
      refine ⟨text :: before, text', fault, hfirst.cons htext, ?_⟩
      rw [List.length_cons, Nat.add_right_comm, Nat.add_assoc]
    rw [tokenLinesFrom] at h
    split_ifs at h with hskip
    · exact hlater (.inl hskip) h
    · split at h
      · rename_i fault hscan
        refine ⟨[], text, fault, ⟨List.prefix_append [text] texts, by simp, ?_,
          scanTokens_eq_error_onLine hscan⟩, ?_⟩
        · simpa using hskip
        · exact (Except.error.inj h).symm
      · rename_i ts hscan
        exact hlater (.inr fun line => ⟨_, scanTokens_eq_ok_onLine hscan line⟩)
          (map_eq_error_iff.mp h)

/-! ### Reading from the top -/

namespace RulesReader

variable {catalog : Catalog} {r r' : RulesReader} {f : RulesFault}

/-- Reads a line of a source as it stands: a line without tokens is skipped, any other one is cut
into tokens and read. -/
def readUncut (catalog : Catalog) (r : RulesReader) (n : Nat) (text : String) :
    Except RulesFault RulesReader :=
  if isSkipped text then .ok r
  else
    match scanTokens n text with
    | .error f => .error (.malformed (.lexical f) (some n) (some text))
    | .ok ts => readLine catalog r ⟨n, text, ts⟩

/-- Reads the lines of a source from the top, numbered from `n` on. -/
def readFromTop (catalog : Catalog) (r : RulesReader) (n : Nat) :
    List String → Except RulesFault RulesReader
  | [] => .ok r
  | text :: texts => do
    let r ← r.readUncut catalog n text
    r.readFromTop catalog (n + 1) texts

/-- Reading from the top is reading the lines that are cut from the same texts. -/
theorem readFromTop_eq_foldlM {lines : List TokenLine} (h : tokenLinesFrom n texts = .ok lines) :
    r.readFromTop catalog n texts = lines.foldlM (readLine catalog) r := by
  induction texts generalizing r n lines with
  | nil =>
    obtain rfl := Except.ok.inj h
    rfl
  | cons text texts ih =>
    rw [tokenLinesFrom] at h
    rw [readFromTop, readUncut]
    split_ifs at h ⊢
    · exact ih h
    · cases hscan : scanTokens n text with
      | error fault => simp [hscan] at h
      | ok ts =>
        simp only [hscan] at h
        obtain ⟨lines, hlines, rfl⟩ := map_eq_ok_iff.mp h
        rw [List.foldlM_cons]
        exact bind_congr fun middle => ih hlines

theorem readFromTop_append :
    r.readFromTop catalog n (texts ++ before)
      = r.readFromTop catalog n texts >>= fun r' =>
          r'.readFromTop catalog (n + texts.length) before := by
  induction texts generalizing r n with
  | nil => rfl
  | cons text texts ih =>
    have hlength : n + (text :: texts).length = n + 1 + texts.length := by
      rw [List.length_cons]
      omega
    rw [List.cons_append, readFromTop, readFromTop, hlength]
    simp only [ih, bind_assoc]

theorem readFromTop_singleton : r.readFromTop catalog n [text] = r.readUncut catalog n text := by
  rw [readFromTop]
  exact bind_pure _

/-- Lines that are not all read have a first one that is refused. -/
theorem exists_of_readFromTop_eq_error (h : r.readFromTop catalog n texts = .error f) :
    ∃ before text r', before ++ [text] <+: texts ∧ r.readFromTop catalog n before = .ok r' ∧
      r'.readUncut catalog (n + before.length) text = .error f := by
  induction texts generalizing r n with
  | nil => simp [readFromTop] at h
  | cons text texts ih =>
    rcases bind_eq_error_iff.mp h with htext | ⟨middle, htext, hrest⟩
    · exact ⟨[], text, r, List.prefix_append [text] texts, rfl, htext⟩
    · obtain ⟨before, text', r', hpre, hbefore, htext'⟩ := ih hrest
      refine ⟨text :: before, text', r', List.cons_prefix_cons.mpr ⟨rfl, hpre⟩,
        bind_eq_ok_iff.mpr ⟨middle, htext, hbefore⟩, ?_⟩
      rw [List.length_cons, ← Nat.add_assoc, Nat.add_right_comm]
      exact htext'

/-- A refused line is not skipped, and a malformed line is reported with its number and text. -/
theorem readUncut_eq_error (h : r.readUncut catalog n text = .error f) :
    isSkipped text = false ∧
      ∀ cause m t, f = .malformed cause (some m) (some t) → m = n ∧ t = text := by
  rw [readUncut] at h
  split_ifs at h with hskip
  refine ⟨by simpa using hskip, ?_⟩
  rintro cause m t rfl
  split at h
  · obtain ⟨-, hm, ht⟩ := RulesFault.malformed.inj (Except.error.inj h)
    exact ⟨(Option.some.inj hm).symm, (Option.some.inj ht).symm⟩
  · obtain ⟨e, he, -⟩ := readLine_eq_error h
    cases e with
    | malformed =>
      obtain ⟨-, hm, ht⟩ := RulesFault.malformed.inj he
      exact ⟨Option.some.inj hm, Option.some.inj ht⟩
    | tooManyDigits => simp [LineFault.onLine] at he
    | pattern => simp [LineFault.onLine] at he

/-- The end of a text is reported without the text of a line. -/
theorem finish_eq_error (h : r.finish = .error f) :
    ∃ cause line, f = .malformed cause line none := by
  unfold finish at h
  split at h
  · exact ⟨_, _, (Except.error.inj h).symm⟩
  · obtain ⟨fault, -, rfl⟩ := mapError_eq_error_iff.mp h
    exact ⟨_, _, rfl⟩

end RulesReader

open RulesReader

/-- The first line of a source that is refused from the top, with its fault: the lines `before` it
are all read, and it is not. -/
structure IsFirstRefused (catalog : Option Catalog) (source : String) (before : List String)
    (text : String) (f : RulesFault) : Prop where
  isPrefix : before ++ [text] <+: Text.splitLines source
  refused : ∃ r, (start catalog).readFromTop (catalog.getD .standard) 1 before = .ok r ∧
    r.readUncut (catalog.getD .standard) (before.length + 1) text = .error f

section

variable {catalog : Option Catalog} {f f' : RulesFault}

/-- Reading from the top ends at the first line that is refused. -/
theorem IsFirstRefused.readFromTop_eq_error (h : IsFirstRefused catalog source before text f)
    (hpre : before ++ [text] <+: texts) :
    (start catalog).readFromTop (catalog.getD .standard) 1 texts = .error f := by
  obtain ⟨r, hbefore, htext⟩ := h.refused
  obtain ⟨after, rfl⟩ := hpre
  have htext' : r.readFromTop (catalog.getD .standard) (1 + before.length) [text] = .error f := by
    rw [readFromTop_singleton, Nat.add_comm, htext]
  rw [readFromTop_append]
  refine bind_eq_error_iff.mpr (.inl ?_)
  rw [readFromTop_append]
  exact bind_eq_error_iff.mpr (.inr ⟨r, hbefore, htext'⟩)

/-- **The first line that is refused** is one line with one fault. -/
theorem IsFirstRefused.unique (h : IsFirstRefused catalog source before text f)
    (h' : IsFirstRefused catalog source before' text' f') :
    before' = before ∧ text' = text ∧ f' = f := by
  -- a line that is refused cannot stand among lines that are read
  have hnot : ∀ {before before' text text' f f'}, IsFirstRefused catalog source before text f →
      IsFirstRefused catalog source before' text' f' → ¬ before ++ [text] <+: before' := by
    intro before before' text text' f f' h h' hpre
    obtain ⟨r, hread, -⟩ := h'.refused
    exact absurd (hread.symm.trans (h.readFromTop_eq_error hpre)) (by simp)
  have hsame : before' ++ [text'] = before ++ [text] := by
    rcases List.prefix_or_prefix_of_prefix h'.isPrefix h.isPrefix with hpre | hpre
    · exact (List.prefix_concat_iff.mp hpre).resolve_right (hnot h' h)
    · exact ((List.prefix_concat_iff.mp hpre).resolve_right (hnot h h')).symm
  obtain ⟨rfl, htext⟩ := List.append_inj' hsame rfl
  obtain rfl := List.head_eq_of_cons_eq htext
  have hread := h.readFromTop_eq_error h.isPrefix
  exact ⟨rfl, rfl, Except.error.inj ((h'.readFromTop_eq_error h'.isPrefix).symm.trans hread)⟩

namespace Ruleset

/-- A source whose lines can all be cut is read from the top. -/
theorem parse_eq_readFromTop {lines : List TokenLine} (h : tokenLines source = .ok lines) :
    Ruleset.parse catalog source
      = (start catalog).readFromTop (catalog.getD .standard) 1 (Text.splitLines source)
          >>= RulesReader.finish := by
  rw [readFromTop_eq_foldlM h, Ruleset.parse, h]
  rfl

/-- **A reported line** is the first one that is refused when the source is read from the top. The
exception is a line that cannot be cut into tokens: it is also reported where a line above it is
refused, and then it is the first one that cannot be cut. -/
theorem parse_reported_line (catalog : Option Catalog) (source text : String) (cause : RulesCause)
    (n : Int) (h : Ruleset.parse catalog source = .error (.malformed cause (some n) (some text))) :
    ∃ before, before ++ [text] <+: Text.splitLines source ∧ n = before.length + 1 ∧
      isSkipped text = false ∧
      (IsFirstRefused catalog source before text (.malformed cause (some n) (some text)) ∨
        ∃ fault, cause = .lexical fault ∧
          IsFirstUncut (Text.splitLines source) before text fault ∧
          ∃ above text' f, above ++ [text'] <+: before ∧
            (∀ line, ∃ ts, scanTokens line text' = .ok ts) ∧
            IsFirstRefused catalog source above text' f) := by
  cases hlines : tokenLines source with
  | error f =>
    obtain ⟨before, text', fault, hfirst, rfl⟩ := exists_isFirstUncut hlines
    have hparse : Ruleset.parse catalog source = _ := bind_eq_error_iff.mpr (.inl hlines)
    obtain ⟨rfl, hn, ht⟩ := RulesFault.malformed.inj (Except.error.inj (h.symm.trans hparse))
    obtain rfl := Option.some.inj ht
    obtain rfl := Option.some.inj hn
    refine ⟨before, hfirst.isPrefix, by omega, hfirst.isSkipped, ?_⟩
    cases habove : (start catalog).readFromTop (catalog.getD .standard) 1 before with
    | ok r =>
      refine .inl ⟨hfirst.isPrefix, r, habove, ?_⟩
      rw [readUncut, hfirst.isSkipped, if_neg Bool.false_ne_true, hfirst.scan, Nat.add_comm]
    | error f =>
      -- a line above is refused, and as it can be cut, the grammar refuses it
      obtain ⟨above, text', r, hpre, hread, hrefused⟩ := exists_of_readFromTop_eq_error habove
      rw [Nat.add_comm 1] at hrefused
      have htext' : text' ∈ before := hpre.subset (by simp)
      obtain ⟨hskip, -⟩ := readUncut_eq_error hrefused
      have hscan := (hfirst.before text' htext').resolve_left (by simp [hskip])
      have hall : above ++ [text'] <+: Text.splitLines source :=
        hpre.trans ((List.prefix_append before [text]).trans hfirst.isPrefix)
      exact .inr ⟨fault, rfl, hfirst, above, text', f, hpre, hscan, hall, r, hread, hrefused⟩
  | ok lines =>
    rw [parse_eq_readFromTop hlines] at h
    rcases bind_eq_error_iff.mp h with hall | ⟨r, -, hfinish⟩
    · obtain ⟨before, text', r, hpre, hread, hrefused⟩ := exists_of_readFromTop_eq_error hall
      rw [Nat.add_comm 1] at hrefused
      obtain ⟨hskip, hplace⟩ := readUncut_eq_error hrefused
      obtain ⟨hn, rfl⟩ := hplace cause n text rfl
      exact ⟨before, hpre, by omega, hskip, .inl ⟨hpre, r, hread, hrefused⟩⟩
    · obtain ⟨cause', line, heq⟩ := finish_eq_error hfinish
      simp at heq

end Ruleset

end

/-! ### A line that hides another -/

/-- A rules text with a rule outside a block, and an open quote below it. -/
def quoteBelowText : String :=
  "column names in ['id']\n" ++
  "is unique\n" ++
  "starts with 'NP\n"

private theorem parse_quoteBelowText : Ruleset.parse none quoteBelowText
    = .error (.malformed (.lexical ⟨.openString, 13⟩) (some 3) (some "starts with 'NP")) := by
  have hlines : tokenLines quoteBelowText
      = .error (.malformed (.lexical ⟨.openString, 13⟩) (some 3) (some "starts with 'NP")) := by
    decide +kernel
  exact bind_eq_error_iff.mpr (.inl hlines)

theorem quoteBelowText_reported_line :
    Ruleset.parse none quoteBelowText
        = .error (.malformed (.lexical ⟨.openString, 13⟩) (some 3) (some "starts with 'NP")) ∧
      ∃ before, before ++ ["starts with 'NP"] <+: Text.splitLines quoteBelowText ∧
        (3 : Int) = before.length + 1 ∧
        ∃ above text f, IsFirstRefused none quoteBelowText above text f ∧
          above ++ [text] <+: before ++ ["starts with 'NP"] := by
  obtain ⟨before, hpre, hn, -, hfirst | ⟨fault, -, -, above, text, f, habove, -, hfirst⟩⟩ :=
    Ruleset.parse_reported_line none quoteBelowText _ _ 3 parse_quoteBelowText
  · exact ⟨parse_quoteBelowText, before, hpre, hn, before, _, _, hfirst, List.prefix_rfl⟩
  · exact ⟨parse_quoteBelowText, before, hpre, hn, above, text, f, hfirst,
      habove.trans (List.prefix_append before _)⟩

/-- **The first problem is not reported** where a line below it cannot be cut into tokens. -/
theorem quoteBelowText_hidden :
    Ruleset.parse none quoteBelowText
        = .error (.malformed (.lexical ⟨.openString, 13⟩) (some 3) (some "starts with 'NP")) ∧
      IsFirstRefused none quoteBelowText ["column names in ['id']"] "is unique"
        (.malformed .outsideBlock (some 2) (some "is unique")) := by
  refine ⟨parse_quoteBelowText, by decide +kernel, ?_⟩
  have hread : ((start none).readFromTop .standard 1 ["column names in ['id']"]).toOption.any
      (fun r => (r.readUncut .standard 2 "is unique").map (fun _ => ()) ==
        .error (.malformed .outsideBlock (some 2) (some "is unique"))) = true := by
    decide +kernel
  obtain ⟨r, hr, hrefused⟩ := any_toOption_iff.mp hread
  exact ⟨r, hr, map_eq_error_iff.mp (beq_iff_eq.mp hrefused)⟩

end TableRules
