import Mathlib.Order.Interval.Set.Basic
import Mathlib.Data.Set.Function
import TableRules.Proofs.RulesText.LineLayouts
import TableRules.Proofs.RulesText.MovedLines

/-!
# Layouts of a text

A text is laid out anew (`Spreads`) by putting blank lines and comments between its lines and by
laying out its lines anew (`Relaid`): with more white space around the tokens, and with words in
another letter case.

**Main result** (`Ruleset.parse_layout`): a text and a layout of it are both parsed or both refused,
and the rulesets are the same but for the line numbers, which are those of the lines where they
stand now.
-/

namespace TableRules

open Result Text

variable {place : Nat → Nat} {n n' : Nat} {text text' : String} {texts texts' : List String}
  {line line' : TokenLine} {lines lines' : List TokenLine}

/-- The lines of a text, numbered from `n` on, laid out as the lines of another text, numbered from
`n'` on: line `i` has become line `place i`, and all lines between these are skipped. -/
inductive Spreads (place : Nat → Nat) : Nat → List String → Nat → List String → Prop
  | nil {n n' : Nat} : Spreads place n [] n' []
  | insert {n n' : Nat} {text : String} {texts texts' : List String}
      (hskip : isSkipped text = true) (h : Spreads place n texts (n' + 1) texts') :
      Spreads place n texts n' (text :: texts')
  | keep {n n' : Nat} {text text' : String} {texts texts' : List String} (hplace : place n = n')
      (hline : Relaid [] text.toList text'.toList)
      (h : Spreads place (n + 1) texts (n' + 1) texts') :
      Spreads place n (text :: texts) n' (text' :: texts')

/-- The number of a line where it stands now. -/
def movedTo (place : Nat → Nat) (n : Int) : Int := place n.toNat

namespace Spreads

/-- Lines stay behind the lines before them. -/
theorem le_place (h : Spreads place n texts n' texts') :
    ∀ i ∈ Set.Ico n (n + texts.length), n' ≤ place i := by
  induction h with
  | nil => simp
  | insert _ _ ih => exact fun i hi => Nat.le_of_succ_le (ih i hi)
  | @keep n n' text text' texts texts' hplace _ _ ih =>
    rintro i ⟨hlo, hhi⟩
    rcases Nat.eq_or_lt_of_le hlo with rfl | hlo
    · exact hplace.ge
    · rw [List.length_cons] at hhi
      exact Nat.le_of_succ_le (ih i ⟨hlo, by omega⟩)

/-- **Lines stay in order.** -/
theorem strictMonoOn (h : Spreads place n texts n' texts') :
    StrictMonoOn place (Set.Ico n (n + texts.length)) := by
  induction h with
  | nil => simp [StrictMonoOn]
  | insert _ _ ih => exact ih
  | @keep n n' text text' texts texts' hplace _ h ih =>
    rintro i ⟨hlo, -⟩ j ⟨-, hhi⟩ hij
    rw [List.length_cons] at hhi
    have hj : j ∈ Set.Ico (n + 1) (n + 1 + texts.length) := ⟨by omega, by omega⟩
    rcases Nat.eq_or_lt_of_le hlo with rfl | hlo
    · rw [hplace]
      exact h.le_place j hj
    · exact ih ⟨hlo, by omega⟩ hj hij

end Spreads

/-- A line that is kept among lines with given numbers: it is moved and respelled. -/
def IsKept (place : Nat → Nat) (numbers : Set Nat) (line line' : TokenLine) : Prop :=
  ∃ i ∈ numbers, line.number = i ∧ line'.number = place i ∧ Respelled [] line.tokens line'.tokens

theorem IsKept.mono {numbers numbers' : Set Nat} (h : IsKept place numbers line line')
    (hnumbers : numbers ⊆ numbers') : IsKept place numbers' line line' := by
  obtain ⟨i, hi, hkept⟩ := h
  exact ⟨i, hnumbers hi, hkept⟩

/-- A kept line is moved to its new place. -/
theorem IsKept.moved {numbers : Set Nat} (h : IsKept place numbers line line') :
    line.Moved (movedTo place) line' := by
  obtain ⟨i, -, hnumber, hnumber', hrespelled⟩ := h
  exact ⟨by rw [hnumber', hnumber]; rfl, hrespelled⟩

/-- A kept line can be moved back. -/
theorem IsKept.moved_back {numbers : Set Nat} {back : Nat → Nat}
    (h : IsKept place numbers line line') (hback : Set.LeftInvOn back place numbers) :
    line'.Moved (movedTo back) line := by
  obtain ⟨i, hi, hnumber, hnumber', hrespelled⟩ := h
  refine ⟨?_, hrespelled.symm .nil⟩
  rw [hnumber, hnumber', movedTo, Int.toNat_natCast, hback hi]

/-- **The lines of a layout** have the tokens of the lines of the text respelled, or neither text
can be cut into tokens. -/
theorem Spreads.tokenLinesFrom_kept (h : Spreads place n texts n' texts') :
    (∃ lines lines', tokenLinesFrom n texts = .ok lines ∧ tokenLinesFrom n' texts' = .ok lines' ∧
      List.Forall₂ (IsKept place (Set.Ico n (n + texts.length))) lines lines') ∨
    (∃ e, tokenLinesFrom n texts = .error e) ∧ ∃ e', tokenLinesFrom n' texts' = .error e' := by
  induction h with
  | nil => exact .inl ⟨[], [], rfl, rfl, .nil⟩
  | insert hskip _ ih => rwa [tokenLinesFrom, if_pos hskip]
  | @keep n n' text text' texts texts' hplace hline _ ih =>
    have hsub :
        Set.Ico (n + 1) (n + 1 + texts.length) ⊆ Set.Ico n (n + (text :: texts).length) := by
      rintro i ⟨hlo, hhi⟩
      rw [List.length_cons]
      exact ⟨by omega, by omega⟩
    rw [tokenLinesFrom, tokenLinesFrom, hline.isSkipped_eq]
    split_ifs
    · refine ih.imp_left ?_
      rintro ⟨lines, lines', hlines, hlines', hkept⟩
      exact ⟨lines, lines', hlines, hlines', hkept.imp fun _ _ h => h.mono hsub⟩
    · rcases hline.scanTokens_respelled n n' with
        ⟨ts, ts', hts, hts', hrespelled⟩ | ⟨⟨f, hf⟩, f', hf'⟩
      · rw [hts, hts']
        rcases ih with ⟨lines, lines', hlines, hlines', hkept⟩ | ⟨⟨e, he⟩, e', he'⟩
        · have hfirst : IsKept place (Set.Ico n (n + (text :: texts).length)) ⟨n, text, ts⟩
              ⟨n', text', ts'⟩ := ⟨n, by simp, rfl, congrArg Nat.cast hplace.symm, hrespelled⟩
          exact .inl ⟨_, _, map_eq_ok_iff.mpr ⟨lines, hlines, rfl⟩,
            map_eq_ok_iff.mpr ⟨lines', hlines', rfl⟩,
            .cons hfirst (hkept.imp fun _ _ h => h.mono hsub)⟩
        · exact .inr ⟨⟨e, map_eq_error_iff.mpr he⟩, e', map_eq_error_iff.mpr he'⟩
      · rw [hf, hf']
        exact .inr ⟨⟨_, rfl⟩, _, rfl⟩

/-! ### Rulesets -/

/-- **Layout is irrelevant.** A text and a layout of it are both parsed or neither is, and where
they are parsed, the ruleset of the layout is that of the text with the numbers of the lines where
they stand now. -/
theorem Ruleset.parse_layout (formats : Option Catalog) (place : Nat → Nat)
    (source variant : String)
    (h : Spreads place 1 (Text.splitLines source) 1 (Text.splitLines variant)) :
    ((∃ ruleset, parse formats source = .ok ruleset) ↔
      ∃ ruleset, parse formats variant = .ok ruleset) ∧
    ∀ ruleset, parse formats source = .ok ruleset →
      parse formats variant = .ok (ruleset.mapLines (movedTo place)) := by
  rcases h.tokenLinesFrom_kept with ⟨lines, lines', hlines, hlines', hkept⟩ | ⟨⟨e, he⟩, e', he'⟩
  · -- numbers can be moved back, since lines stay in order
    have hback := h.strictMonoOn.injOn.leftInvOn_invFunOn
    have hmoved := hkept.imp fun _ _ hline => hline.moved
    have hmoved' := hkept.flip.imp fun line' line (hline : IsKept place _ line line') =>
      hline.moved_back hback
    exact ⟨⟨fun ⟨_, hparse⟩ => ⟨_, parse_mapLines hlines hlines' hmoved hparse⟩,
      fun ⟨_, hparse⟩ => ⟨_, parse_mapLines hlines' hlines hmoved' hparse⟩⟩,
      fun _ hparse => parse_mapLines hlines hlines' hmoved hparse⟩
  · have hrefused : ∀ {text e}, tokenLines text = .error e → ∀ ruleset,
        parse formats text ≠ .ok ruleset := by
      intro text e he ruleset hparse
      obtain ⟨lines, hlines, -⟩ := bind_eq_ok_iff.mp hparse
      exact absurd (he.symm.trans hlines) (by simp)
    exact ⟨⟨fun ⟨_, hparse⟩ => absurd hparse (hrefused he _),
      fun ⟨_, hparse⟩ => absurd hparse (hrefused he' _)⟩,
      fun _ hparse => absurd hparse (hrefused he _)⟩

/-- A text with one rule. -/
def denseText : String := "column names in ['Id']\ncolumn: Id\nis required\n"

/-- The same text with a comment and blank lines, with the head of the block in capital letters and
with white space around its tokens. -/
def spreadText : String :=
  "// names first\n\ncolumn names in ['Id']\n  COLUMN :\tId \n\nis required"

/-- Where the lines of the one text stand in the other. -/
def spreadPlace (n : Nat) : Nat := if n = 3 then 6 else n + 2

/-- The head of the block keeps its tokens, and the name in it keeps its letters. -/
private theorem relaid_head : Relaid [] "column: Id".toList "  COLUMN :\tId ".toList := by
  have hcolumn : Longest (Closed []) .word "column".toList ['c', 'o', 'l', 'u', 'm', 'n']
      [':', ' ', 'I', 'd'] := by
    refine Lexeme.Written.longest (.word (.mk (by decide) (forall_of_all (by decide)))) ?_
    rintro c ⟨⟩
    exact (by decide : ¬ isWordChar ':' = true)
  have hcolon : Longest (Closed [.word]) .colon ":".toList [':'] [' ', 'I', 'd'] :=
    Lexeme.Written.longest (.punctuation (by decide)) fun _ _ => not_false
  have hname : Longest (Closed [.word, .colon]) .word "Id".toList ['I', 'd'] [] :=
    Lexeme.Written.longest (.word (.mk (by decide) (forall_of_all (by decide)))) (by simp)
  have hfirst : ¬ NameFollows [] := by
    rintro ⟨words, -, init, ws, colon, -, -, hnil⟩
    simp at hnil
  have hend : Relaid [⟨.word, "column", 2, 1⟩, ⟨.colon, ":", 2, 7⟩, ⟨.word, "Id", 2, 9⟩] [] [' '] :=
    @Relaid.stop _ [] [] [] [' '] ⟨by simp, by simp, id⟩ (by simp) noLexeme_nil
      (forall_of_all (by decide))
  have hlast : Relaid [⟨.word, "column", 2, 1⟩, ⟨.colon, ":", 2, 7⟩] [' ', 'I', 'd']
      ['\t', 'I', 'd', ' '] :=
    @Relaid.token [⟨.word, "column", 2, 1⟩, ⟨.colon, ":", 2, 7⟩] ⟨.word, "Id", 2, 9⟩ [' '] ['\t']
      _ _ _ _ ⟨forall_of_all (by decide), forall_of_all (by decide), by simp⟩ hname (.inl rfl) hend
  have hmark : Relaid [⟨.word, "column", 2, 1⟩] [':', ' ', 'I', 'd']
      [' ', ':', '\t', 'I', 'd', ' '] :=
    @Relaid.token [⟨.word, "column", 2, 1⟩] ⟨.colon, ":", 2, 7⟩ [] [' '] _ _ _ _
      ⟨by simp, forall_of_all (by decide), by simp⟩ hcolon (.inl rfl) hlast
  exact @Relaid.token [] ⟨.word, "column", 2, 1⟩ [] [' ', ' '] _ "COLUMN".toList _ _
    ⟨by simp, forall_of_all (by decide), by simp⟩ hcolumn (.inr ⟨rfl, hfirst, by decide⟩) hmark

private theorem spreads_denseText :
    Spreads spreadPlace 1 (Text.splitLines denseText) 1 (Text.splitLines spreadText) := by
  have hdense : Text.splitLines denseText
      = ["column names in ['Id']", "column: Id", "is required"] := by decide +kernel
  have hspread : Text.splitLines spreadText
      = ["// names first", "", "column names in ['Id']", "  COLUMN :\tId ", "", "is required"] := by
    decide +kernel
  rw [hdense, hspread]
  refine .insert (by decide +kernel) (.insert (by decide +kernel) (.keep rfl (.refl _ _) ?_))
  exact .keep rfl relaid_head (.insert (by decide +kernel) (.keep rfl (.refl _ _) .nil))

theorem denseText_layout :
    Spreads spreadPlace 1 (Text.splitLines denseText) 1 (Text.splitLines spreadText) ∧
      ∃ ruleset, Ruleset.parse none denseText = .ok ruleset ∧
        Ruleset.parse none spreadText = .ok (ruleset.mapLines (movedTo spreadPlace)) ∧
        ruleset.allRules.map Rule.line = [some 3] ∧
        (ruleset.mapLines (movedTo spreadPlace)).allRules.map Rule.line = [some 6] := by
  have hparsed : (Ruleset.parse none denseText).toOption.any (fun r =>
      decide (r.allRules.map Rule.line = [some 3] ∧
        (r.mapLines (movedTo spreadPlace)).allRules.map Rule.line = [some 6])) = true := by
    decide +kernel
  obtain ⟨ruleset, hparse, hnumbers⟩ := any_toOption_iff.mp hparsed
  have hlayout :=
    (Ruleset.parse_layout none spreadPlace denseText spreadText spreads_denseText).2 ruleset hparse
  exact ⟨spreads_denseText, ruleset, hparse, hlayout, of_decide_eq_true hnumbers⟩

end TableRules
