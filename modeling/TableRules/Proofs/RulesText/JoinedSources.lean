import TableRules.Proofs.RulesText.FirstFaults
import TableRules.Proofs.RulesText.SourceLines

/-!
# Joined sources

A line feed after a source ends its last line, also where it completes a break of two characters. So
the lines of two sources with a line feed between them are the lines of the first and then those of
the second (`Text.splitLines_join`), and the tokens of the second only move down by the lines of the
first (`scanTokens_add`, `tokenLines_join`).

**Main result** (`tokenLines_compose`): the lines with tokens of joined sources are those of the one
and those of the other moved down with their tokens, and a fault of the second source is moved down
alike. The lines with tokens of any source are numbered in increasing order as in the source, and
those left out are the blank lines and the comments (`Numbers`).
-/

namespace TableRules

open Result

variable {source text : String} {texts : List String} {lines : List TokenLine} {n : Nat}

/-! ### Lines of joined texts -/

namespace Text

/-- A character that does not begin a break of two characters ends a line or belongs to it. -/
theorem splitLinesFrom_cons {current cs : List Char} {c : Char}
    (hreturn : ∀ rest, c = '\r' → cs ≠ '\n' :: rest) :
    splitLinesFrom current (c :: cs) =
      if isLineBreak c then current.reverse :: splitLinesFrom [] cs
      else splitLinesFrom (c :: current) cs := by
  rw [splitLinesFrom]
  exact fun rest hc hcs => hreturn rest hc hcs

/-- A line feed ends a line. -/
theorem splitLinesFrom_lineFeed (current cs : List Char) :
    splitLinesFrom current ('\n' :: cs) = current.reverse :: splitLinesFrom [] cs := by
  rw [splitLinesFrom_cons (by simp), if_pos (by decide)]

/-- The lines of a text that goes on after a line feed. -/
theorem splitLinesFrom_join (current cs ds : List Char) :
    splitLinesFrom current (cs ++ '\n' :: ds) =
      splitLinesFrom current (cs ++ ['\n']) ++ splitLinesFrom [] ds := by
  fun_induction splitLinesFrom current cs with
  | case1 current hempty => simp [splitLinesFrom_lineFeed, splitLinesFrom]
  | case2 current hempty => simp [splitLinesFrom_lineFeed, splitLinesFrom]
  | case3 current rest ih =>
    rw [List.cons_append, List.cons_append, List.cons_append, List.cons_append, splitLinesFrom,
      splitLinesFrom, ih, List.cons_append]
  | case4 current c rest hreturn hbreak ih =>
    by_cases hlast : c = '\r' ∧ rest = []
    · -- the line feed completes the break of two characters
      obtain ⟨rfl, rfl⟩ := hlast
      simp [splitLinesFrom]
    · have hgoesOn : ∀ es rest', c = '\r' → rest ++ '\n' :: es ≠ '\n' :: rest' := by
        intro es rest' hc hrest
        cases rest with
        | nil => exact hlast ⟨hc, rfl⟩
        | cons d rest => exact hreturn rest hc (by rw [(List.cons.inj hrest).1])
      rw [List.cons_append, List.cons_append, splitLinesFrom_cons (hgoesOn ds),
        splitLinesFrom_cons (hgoesOn []), if_pos hbreak, if_pos hbreak, ih, List.cons_append]
  | case5 current c rest hreturn hbreak ih =>
    have hc : c ≠ '\r' := by
      rintro rfl
      exact hbreak (by decide)
    rw [List.cons_append, List.cons_append, splitLinesFrom_cons fun _ h => absurd h hc,
      splitLinesFrom_cons fun _ h => absurd h hc, if_neg hbreak, if_neg hbreak, ih]

/-- **The lines of joined texts** are those of the one and those of the other. -/
theorem splitLines_join (a b : String) :
    splitLines (a ++ "\n" ++ b) = splitLines (a ++ "\n") ++ splitLines b := by
  have hfeed : ("\n" : String).toList = ['\n'] := rfl
  rw [splitLines, splitLines, splitLines, String.toList_append, String.toList_append, hfeed,
    List.append_assoc, List.singleton_append, splitLinesFrom_join, List.map_append]

end Text

/-! ### Tokens of joined sources -/

/-- A token so many lines further down. -/
def Token.moveDown (k : Nat) (t : Token) : Token := t.onLine (t.line + k)

/-- A line with its tokens, so many lines further down. -/
def TokenLine.moveDown (k : Nat) (line : TokenLine) : TokenLine :=
  ⟨line.number + k, line.text, line.tokens.map (Token.moveDown k)⟩

/-- A fault on a line, so many lines further down. -/
def RulesFault.moveDown (k : Nat) : RulesFault → RulesFault
  | .malformed cause line text => .malformed cause (line.map fun number => number + k) text
  | .tooManyDigits => .tooManyDigits
  | .pattern fault => .pattern fault

/-- A text that stands further down has its tokens there. -/
theorem scanTokens_add (n k : Nat) (text : String) :
    scanTokens (n + k : Nat) text = (scanTokens n text).map (List.map (Token.moveDown k)) := by
  rw [scanTokens_onLine n]
  cases hscan : scanTokens n text with
  | error fault => rfl
  | ok ts =>
    refine congrArg Except.ok (List.map_congr_left fun t ht => ?_)
    rw [Token.moveDown, (scanTokens_eq_ok_iff.mp hscan).line_eq t ht, Nat.cast_add]

/-- Lines that are numbered from further down on have their tokens and their faults there. -/
theorem tokenLinesFrom_add (n k : Nat) (texts : List String) :
    tokenLinesFrom (n + k) texts =
      ((tokenLinesFrom n texts).map fun lines => lines.map (TokenLine.moveDown k)).mapError
        (RulesFault.moveDown k) := by
  induction texts generalizing n with
  | nil => rfl
  | cons text texts ih =>
    rw [tokenLinesFrom, tokenLinesFrom, Nat.add_right_comm, ih, scanTokens_add]
    split_ifs
    · rfl
    · cases scanTokens n text with
      | error fault => rfl
      | ok ts => cases tokenLinesFrom (n + 1) texts <;> rfl

/-- Lines are cut into tokens from the top; a fault in the lines above hides those below. -/
theorem tokenLinesFrom_append (n : Nat) (above below : List String) :
    tokenLinesFrom n (above ++ below) =
      (tokenLinesFrom n above).bind fun lines =>
        (tokenLinesFrom (n + above.length) below).map (lines ++ ·) := by
  induction above generalizing n with
  | nil => cases h : tokenLinesFrom n below <;> simp [tokenLinesFrom, Except.bind, Except.map, h]
  | cons text above ih =>
    have hlength : n + (text :: above).length = n + 1 + above.length := by
      rw [List.length_cons, Nat.add_right_comm, Nat.add_assoc]
    rw [List.cons_append, tokenLinesFrom, tokenLinesFrom, ih, hlength]
    split_ifs
    · rfl
    · cases scanTokens n text with
      | error fault => rfl
      | ok ts =>
        cases tokenLinesFrom (n + 1) above with
        | error fault => rfl
        | ok lines => cases tokenLinesFrom (n + 1 + above.length) below <;> rfl

/-- **The tokens of joined sources** are those of the one and, moved down, those of the other. -/
theorem tokenLines_join (a b : String) :
    tokenLines (a ++ "\n" ++ b) =
      (tokenLines (a ++ "\n")).bind fun lines =>
        (((tokenLines b).map fun lines' =>
          lines'.map (TokenLine.moveDown (Text.splitLines (a ++ "\n")).length)).mapError
            (RulesFault.moveDown (Text.splitLines (a ++ "\n")).length)).map (lines ++ ·) := by
  rw [tokenLines, Text.splitLines_join, tokenLinesFrom_append, tokenLinesFrom_add]
  rfl

/-! ### Numbers of lines -/

/-- A line of white space only. -/
def IsBlankLine (text : String) : Prop := ∀ c ∈ text.toList, Text.isBlank c = true

/-- A line whose first characters that are no white space are two slashes. -/
def IsCommentLine (text : String) : Prop :=
  ∃ gap rest, (∀ c ∈ gap, Text.isBlank c = true) ∧ text.toList = gap ++ '/' :: '/' :: rest

/-- The lines without tokens are the blank lines and the comments. -/
theorem isSkipped_iff_blank_or_comment :
    isSkipped text = true ↔ IsBlankLine text ∨ IsCommentLine text := by
  rw [isSkipped_iff]
  refine or_congr List.dropWhile_eq_nil_iff ⟨?_, ?_⟩
  · rintro ⟨rest, hrest⟩
    refine ⟨text.toList.takeWhile Text.isBlank, rest, fun c hc => List.mem_takeWhile_imp hc, ?_⟩
    rw [← hrest, Text.dropBlanks, List.takeWhile_append_dropWhile]
  · rintro ⟨gap, rest, hgap, htext⟩
    refine ⟨rest, ?_⟩
    rw [htext, Text.dropBlanks_append hgap]
    rintro c ⟨⟩
    decide

/-- Lines with tokens are those of a source: they are numbered in increasing order, each carries the
text and the tokens of the line of its number, its tokens carry this number too, and the lines that
are left out are the blank lines and the comments. -/
structure Numbers (source : String) (lines : List TokenLine) : Prop where
  increasing : lines.Pairwise fun line line' => line.number < line'.number
  isLine : ∀ line ∈ lines, line.IsLineOf source
  onLine : ∀ line ∈ lines, ∀ t ∈ line.tokens, t.line = line.number
  leftOut (i : Nat) (text : String) : (Text.splitLines source)[i]? = some text →
    ((¬ ∃ line ∈ lines, line.number = i + 1) ↔ IsBlankLine text ∨ IsCommentLine text)

/-- The lines with tokens are the numbered lines that are not skipped. -/
theorem places_of_tokenLinesFrom (h : tokenLinesFrom n texts = .ok lines) :
    lines.map (fun line => (line.text, line.number)) =
      ((texts.zipIdx n).filter fun p => !isSkipped p.1).map fun p => (p.1, (p.2 : Int)) := by
  induction texts generalizing n lines with
  | nil =>
    obtain rfl := Except.ok.inj h
    rfl
  | cons text texts ih =>
    rw [tokenLinesFrom] at h
    rw [List.zipIdx_cons]
    split_ifs at h with hskip
    · rw [List.filter_cons_of_neg (by simp [hskip])]
      exact ih h
    · split at h
      · simp at h
      · obtain ⟨lines, hlines, rfl⟩ := map_eq_ok_iff.mp h
        rw [List.filter_cons_of_pos (by simp [hskip]), List.map_cons, List.map_cons, ih hlines]

/-- A line is among those with tokens exactly when it is not skipped. -/
theorem exists_number_eq_iff {i : Nat} (h : tokenLinesFrom n texts = .ok lines)
    (htext : texts[i]? = some text) :
    (∃ line ∈ lines, line.number = (n + i : Nat)) ↔ isSkipped text = false := by
  have hplace : (∃ line ∈ lines, line.number = (n + i : Nat)) ↔
      ∃ q ∈ lines.map fun line => (line.text, line.number), q.2 = ((n + i : Nat) : Int) := by
    simp
  rw [hplace, places_of_tokenLinesFrom h]
  simp only [List.mem_map, List.mem_filter, List.mem_zipIdx_iff_le_and_getElem?_sub]
  constructor
  · rintro ⟨_, ⟨⟨text', number⟩, ⟨⟨-, htext'⟩, hkept⟩, rfl⟩, hnumber⟩
    obtain rfl : number = n + i := Int.ofNat_inj.mp hnumber
    rw [Nat.add_sub_cancel_left, htext] at htext'
    rw [Option.some.inj htext']
    simpa using hkept
  · intro hkept
    refine ⟨_, ⟨(text, n + i), ⟨⟨Nat.le_add_right n i, ?_⟩, by simp [hkept]⟩, rfl⟩, rfl⟩
    rw [Nat.add_sub_cancel_left, htext]

/-- **The lines with tokens of a source** are numbered as in the source. -/
theorem numbers_of_tokenLines (h : tokenLines source = .ok lines) : Numbers source lines := by
  refine ⟨?_, fun line hline => isLineOf_of_tokenLines h hline, fun line hline => ?_,
    fun i text htext => ?_⟩
  · -- numbers count on from line to line, and those of skipped lines are left out
    have hall : ((Text.splitLines source).zipIdx 1).Pairwise fun p q => p.2 < q.2 := by
      rw [← List.pairwise_map (R := (· < ·)), List.zipIdx_map_snd]
      exact List.pairwise_lt_range'
    have hkept := (hall.filter fun p => !isSkipped p.1).map (fun p => (p.1, (p.2 : Int)))
      (S := fun p q => p.2 < q.2) fun p q h => Int.ofNat_lt.mpr h
    rw [← places_of_tokenLinesFrom h] at hkept
    exact (List.pairwise_map (R := fun p q : String × Int => p.2 < q.2)).mp hkept
  · exact (scanTokens_eq_ok_iff.mp (isLineOf_of_tokenLines h hline).tokens).line_eq
  · have hnumber : ((1 + i : Nat) : Int) = i + 1 := by omega
    rw [← hnumber, exists_number_eq_iff h htext, Bool.not_eq_false, isSkipped_iff_blank_or_comment]

/-- **Tokens are found line by line.** Take a source that ends with a line feed and can be cut into
tokens, and a second source. If the second can be cut too, the lines with tokens of both together
are those of the first and then those of the second, moved down with their tokens by the number of
lines of the first. If the second cannot be cut, the fault of both together is its fault, moved down
alike. And the lines with tokens of any source and their tokens are numbered as in the source, where
the lines left out are the blank lines and the comments. -/
theorem tokenLines_compose (a b : String) :
    (∀ above below, tokenLines (a ++ "\n") = .ok above → tokenLines b = .ok below →
      tokenLines (a ++ "\n" ++ b) = .ok (above ++
        below.map (TokenLine.moveDown (Text.splitLines (a ++ "\n")).length))) ∧
    (∀ above e, tokenLines (a ++ "\n") = .ok above → tokenLines b = .error e →
      ∃ (fault : LexFault) (number : Nat) (text : String),
        e = .malformed (.lexical fault) (some number) (some text) ∧
        tokenLines (a ++ "\n" ++ b) = .error (.malformed (.lexical fault)
          (some (number + (Text.splitLines (a ++ "\n")).length)) (some text))) ∧
    ∀ source lines, tokenLines source = .ok lines → Numbers source lines := by
  refine ⟨fun above below habove hbelow => ?_, fun above e habove he => ?_,
    fun source lines => numbers_of_tokenLines⟩
  · rw [tokenLines_join, habove, hbelow]
    rfl
  · obtain ⟨before, text, fault, -, rfl⟩ := exists_isFirstUncut he
    refine ⟨fault, _, text, rfl, ?_⟩
    rw [tokenLines_join, habove, he]
    rfl

/-- The head of a block; a line feed after it completes its line break. -/
def headSource : String := "column: Id\r"

/-- A rule below a blank line and a comment. -/
def ruleSource : String := "\n// a note\nis required"

/-- An open quote below a blank line. -/
def quoteSource : String := "\nstarts with 'NP"

/-- The line of the one source. -/
def headLine : TokenLine :=
  ⟨1, "column: Id", [⟨.word, "column", 1, 1⟩, ⟨.colon, ":", 1, 7⟩, ⟨.word, "Id", 1, 9⟩]⟩

/-- The line of the other source, with a given number. -/
def requiredLine (n : Int) : TokenLine :=
  ⟨n, "is required", [⟨.word, "is", n, 1⟩, ⟨.word, "required", n, 4⟩]⟩

/-- The rule and the open quote move down by one line. -/
theorem headSource_compose :
    tokenLines (headSource ++ "\n") = .ok [headLine] ∧
      tokenLines ruleSource = .ok [requiredLine 3] ∧
      tokenLines (headSource ++ "\n" ++ ruleSource) = .ok [headLine, requiredLine 4] ∧
      tokenLines (headSource ++ "\n" ++ quoteSource) =
        .error (.malformed (.lexical ⟨.openString, 13⟩) (some 3) (some "starts with 'NP")) ∧
      Numbers ruleSource [requiredLine 3] := by
  have habove : tokenLines (headSource ++ "\n") = .ok [headLine] := by decide +kernel
  have hbelow : tokenLines ruleSource = .ok [requiredLine 3] := by decide +kernel
  have hquote : tokenLines quoteSource =
      .error (.malformed (.lexical ⟨.openString, 13⟩) (some 2) (some "starts with 'NP")) := by
    decide +kernel
  have hlines : (Text.splitLines (headSource ++ "\n")).length = 1 := by decide +kernel
  obtain ⟨hboth, -, hnumbers⟩ := tokenLines_compose headSource ruleSource
  obtain ⟨-, hfault, -⟩ := tokenLines_compose headSource quoteSource
  obtain ⟨fault, number, text, he, hmoved⟩ := hfault _ _ habove hquote
  have hcomposed := hboth _ _ habove hbelow
  rw [hlines] at hcomposed hmoved
  cases he
  exact ⟨habove, hbelow, hcomposed, hmoved, hnumbers _ _ hbelow⟩

end TableRules
