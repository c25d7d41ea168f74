import TableRules.RulesText.Reader
import TableRules.Proofs.Results
import TableRules.Proofs.RulesText.Cutting

/-!
# The lines of a source

A source is cut into tokens line by line. So a line with tokens carries the text and the number of a
line of the source (`TokenLine.IsLineOf`, `isLineOf_of_tokenLines`), and its tokens hold no line
break (`TokenLine.IsLineOf.isOfLine`).

The number of a line goes into its tokens and into nothing else (`scanTokens_onLine`). So the tokens
of a source depend, but for the numbers of their lines, only on the texts of its lines with content
(`exists_tokenLines`).
-/

namespace TableRules

open Result

variable {source text : String} {texts : List String} {lines : List TokenLine} {line : TokenLine}
  {n : Nat}

/-! ### Tokens on other lines -/

/-- A token on another line. -/
def Token.onLine (line : Int) (t : Token) : Token := { t with line := line }

/-- **The number of a line** only goes into its tokens. -/
theorem scanFrom_onLine (line line' : Int) (depth column : Nat) (cs : List Char) :
    scanFrom line' depth column cs =
      (scanFrom line depth column cs).map (List.map (Token.onLine line')) := by
  fun_induction scanFrom line depth column cs with
  | case1 => rw [scanFrom, Except.map, List.map_nil]
  | case2 depth column c cs hblank ih => rw [scanFrom, if_pos hblank, ih]
  | case3 depth column c cs hblank cause hread =>
    rw [scanFrom, if_neg hblank, hread]
    rfl
  | case4 depth column c cs hblank l hread ih =>
    rw [scanFrom, if_neg hblank, hread]
    simp only [ih]
    cases scanFrom line (depthAfter depth l.kind) (column + 1 + l.more) (cs.drop l.more) <;> rfl

/-- A text has the same tokens on each line, and is refused on each line alike. -/
theorem scanTokens_onLine (line line' : Int) (text : String) :
    scanTokens line' text = (scanTokens line text).map (List.map (Token.onLine line')) :=
  scanFrom_onLine line line' 0 1 text.toList

theorem scanTokens_eq_ok_onLine {k : Int} {ts : List Token} (h : scanTokens k text = .ok ts)
    (k' : Int) : scanTokens k' text = .ok (ts.map (Token.onLine k')) := by
  rw [scanTokens_onLine k k', h, Except.map]

theorem scanTokens_eq_error_onLine {k : Int} {fault : LexFault}
    (h : scanTokens k text = .error fault) (k' : Int) : scanTokens k' text = .error fault := by
  rw [scanTokens_onLine k k', h, Except.map]

/-! ### Lines of a source -/

/-- A line with tokens stands in a source: its number is the place of its text among the lines of
the source, counted from one. -/
structure TokenLine.IsLineOf (source : String) (line : TokenLine) : Prop where
  place : ∃ i : Nat, (Text.splitLines source)[i]? = some line.text ∧ line.number = i + 1
  tokens : scanTokens line.number line.text = .ok line.tokens

/-- The place of a text among texts that are numbered from `n` on. -/
private def IsNumbered (n : Nat) (texts : List String) (line : TokenLine) : Prop :=
  ∃ i : Nat, texts[i]? = some line.text ∧ line.number = n + i

private theorem IsNumbered.cons (h : IsNumbered (n + 1) texts line) :
    IsNumbered n (text :: texts) line := by
  obtain ⟨i, hi, hnumber⟩ := h
  refine ⟨i + 1, by simpa using hi, ?_⟩
  rw [hnumber]
  omega

private theorem isNumbered_of_tokenLinesFrom (h : tokenLinesFrom n texts = .ok lines) :
    ∀ line ∈ lines, IsNumbered n texts line ∧
      scanTokens line.number line.text = .ok line.tokens := by
  induction texts generalizing n lines with
  | nil =>
    obtain rfl := Except.ok.inj h
    simp
  | cons text texts ih =>
    rw [tokenLinesFrom] at h
    split_ifs at h
    · exact fun line hline => (ih h line hline).imp_left IsNumbered.cons
    · split at h
      · simp at h
      · rename_i ts hscan
        obtain ⟨lines, hlines, rfl⟩ := map_eq_ok_iff.mp h
        refine List.forall_mem_cons.mpr ⟨⟨⟨0, by simp, by simp⟩, hscan⟩, fun line hline => ?_⟩
        exact (ih hlines line hline).imp_left IsNumbered.cons

/-- **The lines of a source** carry its texts and the numbers of these. -/
theorem isLineOf_of_tokenLines (h : tokenLines source = .ok lines) (hline : line ∈ lines) :
    line.IsLineOf source := by
  obtain ⟨⟨i, hi, hnumber⟩, hscan⟩ := isNumbered_of_tokenLinesFrom h line hline
  refine ⟨⟨i, hi, ?_⟩, hscan⟩
  rw [hnumber]
  omega

/-- The text of a line holds no line break. -/
theorem TokenLine.IsLineOf.not_isLineBreak (h : line.IsLineOf source) :
    ∀ c ∈ line.text.toList, Text.isLineBreak c = false := by
  obtain ⟨i, hi, -⟩ := h.place
  obtain ⟨cs, hcs, htext⟩ := List.mem_map.mp (List.mem_of_getElem? hi)
  rw [← htext, String.toList_ofList]
  exact fun c hc => Text.not_isLineBreak_of_mem_splitLinesFrom (by simp) hcs hc

/-- A token is a lexeme without line breaks. -/
def Token.IsOfLine (t : Token) : Prop :=
  ∃ closed lexeme, Lexeme.Written closed t.kind t.value.toList lexeme ∧
    ∀ c ∈ lexeme, Text.isLineBreak c = false

/-- What is cut from a text without line breaks are tokens of a line. -/
theorem Cut.isOfLine {before : List TokenKind} {n : Int} {column : Nat} {cs rest : List Char}
    {ts : List Token} (h : Cut n before column cs ts rest)
    (hcs : ∀ c ∈ cs, Text.isLineBreak c = false) : ∀ t ∈ ts, t.IsOfLine := by
  induction h with
  | stop => simp
  | @token before column kind blanks value lexeme cs rest ts hblanks hlexeme _ ih =>
    simp only [List.mem_append, or_imp, forall_and] at hcs
    refine List.forall_mem_cons.mpr ⟨⟨Closed before, lexeme, ?_, hcs.1.2⟩, ih hcs.2⟩
    rw [String.toList_ofList]
    exact hlexeme.written

/-- The tokens of a line are lexemes without line breaks. -/
theorem TokenLine.IsLineOf.isOfLine (h : line.IsLineOf source) : ∀ t ∈ line.tokens, t.IsOfLine :=
  (scanTokens_eq_ok_iff.mp h.tokens).isOfLine h.not_isLineBreak

/-- A line is skipped exactly if all of it is white space or two slashes stand first in it. -/
theorem isSkipped_iff : isSkipped text = true ↔ Text.dropBlanks text.toList = [] ∨
    ∃ cs, Text.dropBlanks text.toList = '/' :: '/' :: cs := by
  have htrim : (Text.trim text).isEmpty = true ↔ Text.dropBlanks text.toList = [] := by
    rw [← Text.trimChars_eq_nil_iff, String.isEmpty_iff, Text.trim, String.ofList_eq_empty_iff]
  rw [isSkipped, Bool.or_eq_true, htrim, isComment]
  refine or_congr_right ?_
  split
  · rename_i cs hcs
    exact iff_of_true rfl ⟨cs, hcs⟩
  · rename_i hnone
    refine iff_of_false Bool.false_ne_true ?_
    rintro ⟨cs, hcs⟩
    exact hnone cs hcs

/-- The lines of a source that are neither blank nor a comment. -/
def contentLines (source : String) : List String :=
  (Text.splitLines source).filter fun text => !isSkipped text

/-- A line holds the tokens of another one, with its own number. -/
def TokenLine.Repeats (line line' : TokenLine) : Prop :=
  line'.tokens = line.tokens.map (Token.onLine line'.number)

private theorem exists_tokenLinesFrom
    (hscan : ∀ line ∈ lines, scanTokens line.number line.text = .ok line.tokens)
    (htexts : (texts.filter fun text => !isSkipped text) = lines.map TokenLine.text) :
    ∃ lines', tokenLinesFrom n texts = .ok lines' ∧
      List.Forall₂ TokenLine.Repeats lines lines' := by
  induction texts generalizing n lines with
  | nil =>
    obtain rfl : lines = [] := by simpa using htexts.symm
    exact ⟨[], rfl, .nil⟩
  | cons text texts ih =>
    rw [tokenLinesFrom]
    split_ifs with hskip
    · rw [List.filter_cons_of_neg (by simp [hskip])] at htexts
      exact ih hscan htexts
    · rw [List.filter_cons_of_pos (by simp [hskip])] at htexts
      obtain ⟨line, lines, rfl, rfl, hrest⟩ := List.map_eq_cons_iff.mp htexts.symm
      obtain ⟨hline, hscan⟩ := List.forall_mem_cons.mp hscan
      obtain ⟨lines', hlines', htokens⟩ := ih (n := n + 1) hscan hrest.symm
      rw [scanTokens_eq_ok_onLine hline n, hlines']
      exact ⟨_, rfl, .cons rfl htokens⟩

/-- **The tokens of a source** are those of its lines with content. -/
theorem exists_tokenLines
    (hscan : ∀ line ∈ lines, scanTokens line.number line.text = .ok line.tokens)
    (htexts : contentLines source = lines.map TokenLine.text) :
    ∃ lines', tokenLines source = .ok lines' ∧ List.Forall₂ TokenLine.Repeats lines lines' :=
  exists_tokenLinesFrom hscan htexts

end TableRules
