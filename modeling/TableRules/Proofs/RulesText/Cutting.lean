import TableRules.Proofs.RulesText.Lexemes

/-!
# Cutting a line into tokens

`Cut` says how a text is cut: white space, the longest lexeme that starts there, white space, and so
on, until a rest is left. Every token has the kind and the value of its lexeme, the number of the
line and the column of its first character.

**Main result** (`scanTokens_cuts`): the tokens of a line are those that it is cut into without a
rest, and where no tokens are returned, the line is cut into tokens up to the first character that
is no white space and starts no lexeme; the reported column is the column of that character.

Whether a comma belongs to a number depends on the brackets before it. The scanner counts those that
are open; the count is zero exactly when all are closed (`depth_eq_zero_iff`).
-/

namespace TableRules

open Text Lexeme

variable {closed : Prop} {kind : TokenKind} {value lexeme cs rest blanks : List Char} {c : Char}
  {before : List TokenKind} {line : Int} {column : Nat} {ts : List Token}

/-! ### How a text is cut -/

/-- Whether all brackets that tokens of given kinds open are closed by later ones: however many of
them are left out at the start, the others open no more brackets than they close. -/
def Closed (kinds : List TokenKind) : Prop :=
  ∀ tail, tail <:+ kinds → tail.count .openBracket ≤ tail.count .closeBracket

/-- A lexeme of a text, where no longer start of the text is a lexeme. -/
structure Longest (closed : Prop) (kind : TokenKind) (value lexeme rest : List Char) : Prop where
  written : Written closed kind value lexeme
  longest {kind' : TokenKind} {value' longer tail : List Char} :
    longer ++ tail = lexeme ++ rest → Written closed kind' value' longer →
      longer.length ≤ lexeme.length

/-- No start of a text is a lexeme. -/
def NoLexeme (closed : Prop) (cs : List Char) : Prop :=
  ∀ kind value lexeme rest, cs = lexeme ++ rest → ¬ Written closed kind value lexeme

/-- A text on a line is cut into tokens up to a rest. Tokens of the kinds `before` stand before the
text, and its first character stands in `column`. -/
inductive Cut (line : Int) : List TokenKind → Nat → List Char → List Token → List Char → Prop
  | stop {before : List TokenKind} {column : Nat} {blanks rest : List Char}
      (hblanks : ∀ c ∈ blanks, isBlank c = true) : Cut line before column (blanks ++ rest) [] rest
  | token {before : List TokenKind} {column : Nat} {kind : TokenKind}
      {blanks value lexeme cs rest : List Char} {ts : List Token}
      (hblanks : ∀ c ∈ blanks, isBlank c = true)
      (hlexeme : Longest (Closed before) kind value lexeme cs)
      (h : Cut line (before ++ [kind]) (column + blanks.length + lexeme.length) cs ts rest) :
      Cut line before column (blanks ++ lexeme ++ cs)
        (⟨kind, String.ofList value, line, column + blanks.length⟩ :: ts) rest

/-- Why no lexeme starts with a character. -/
def LexCause.startingWith (c : Char) : LexCause :=
  if c = '\x22' ∨ c = '\x27' then .openString
  else if c = '/' then .openPattern
  else .unexpected c

/-! ### Open brackets -/

/-- The number of brackets that are open after tokens of given kinds. -/
def depth (kinds : List TokenKind) : Nat := kinds.foldl depthAfter 0

theorem depth_append_singleton (kinds : List TokenKind) (kind : TokenKind) :
    depth (kinds ++ [kind]) = depthAfter (depth kinds) kind := by
  simp [depth, List.foldl_append]

/-- As many brackets are open as some end of the sequence opens without closing them. -/
private theorem depth_le_iff (kinds : List TokenKind) (n : Nat) :
    depth kinds ≤ n ↔
      ∀ tail, tail <:+ kinds → tail.count .openBracket ≤ tail.count .closeBracket + n := by
  induction kinds using List.reverseRecOn generalizing n with
  | nil => simp [depth]
  | append_singleton kinds kind ih =>
    -- an end of the longer sequence is empty, or an end of the shorter one and the last kind
    have hends : ∀ p : List TokenKind → Prop, (∀ tail, tail <:+ kinds ++ [kind] → p tail) ↔
        p [] ∧ ∀ tail, tail <:+ kinds → p (tail ++ [kind]) := by
      intro p
      simp only [List.suffix_concat_iff]
      constructor
      · exact fun h => ⟨h [] (.inl rfl), fun tail ht => h _ (.inr ⟨tail, rfl, ht⟩)⟩
      · rintro ⟨hnil, hcons⟩ tail (rfl | ⟨tail, rfl, ht⟩)
        · exact hnil
        · exact hcons tail ht
    rw [hends, depth_append_singleton]
    cases kind with
    | openBracket =>
      cases n with
      | zero =>
        refine iff_of_false (by simp [depthAfter]) fun h => ?_
        simpa using h.2 [] List.nil_suffix
      | succ n =>
        have hle : depthAfter (depth kinds) .openBracket ≤ n + 1 ↔ depth kinds ≤ n :=
          Nat.add_le_add_iff_right
        rw [hle, ih n]
        simp [← Nat.add_assoc]
    | closeBracket =>
      have hle : depthAfter (depth kinds) .closeBracket ≤ n ↔ depth kinds ≤ n + 1 :=
        Nat.sub_le_iff_le_add
      rw [hle, ih (n + 1)]
      simp [Nat.add_right_comm, ← Nat.add_assoc]
    | _ => simp [depthAfter, ih n]

/-- The count of open brackets is zero exactly when all are closed. -/
theorem depth_eq_zero_iff {kinds : List TokenKind} : depth kinds = 0 ↔ Closed kinds := by
  rw [← Nat.le_zero, depth_le_iff]
  rfl

private theorem inList_eq_false_iff {kinds : List TokenKind} :
    decide (0 < depth kinds) = false ↔ Closed kinds := by
  rw [decide_eq_false_iff_not, Nat.not_lt, Nat.le_zero, depth_eq_zero_iff]

/-! ### Single lexemes -/

section Single

variable {inList : Bool}

/-- What is read is the longest lexeme at the start of the text. -/
theorem exists_longest (hclosed : inList = false ↔ closed) {l : Lexeme}
    (h : Lexeme.read inList c cs = .ok l) :
    ∃ lexeme rest, c :: cs = lexeme ++ rest ∧ lexeme.length = l.more + 1 ∧
      Longest closed l.kind l.value lexeme rest := by
  obtain ⟨lexeme, rest, htext, hlen, hw⟩ := written_of_read hclosed.mp h
  refine ⟨lexeme, rest, htext, hlen, hw, fun {_ _ longer tail} hlonger hw' => ?_⟩
  obtain ⟨l', hread, -, hle, -⟩ := read_of_written hclosed.mpr hw' (htext.trans hlonger.symm)
  obtain rfl := Except.ok.inj (h.symm.trans hread)
  rwa [hlen]

/-- The longest lexeme at the start of a text is read. -/
theorem Longest.read_eq (hclosed : inList = false ↔ closed)
    (h : Longest closed kind value lexeme rest) (htext : c :: cs = lexeme ++ rest) :
    ∃ more, lexeme.length = more + 1 ∧ Lexeme.read inList c cs = .ok ⟨kind, value, more⟩ := by
  obtain ⟨⟨kind', value', more⟩, hread, rfl, hle, hvalue⟩ :=
    read_of_written hclosed.mpr h.written htext
  obtain ⟨lexeme', rest', htext', hlen', hw'⟩ := written_of_read hclosed.mp hread
  have hlen : lexeme.length = more + 1 :=
    Nat.le_antisymm hle (hlen' ▸ h.longest (htext'.symm.trans htext) hw')
  exact ⟨more, hlen, hvalue hlen ▸ hread⟩

/-- The cause why nothing is read is that of the character there. -/
private theorem cause_of_read {cause : LexCause} (h : Lexeme.read inList c cs = .error cause) :
    cause = LexCause.startingWith c := by
  -- a body without an end is refused at its start, all else at a character that starts nothing
  rw [Lexeme.read] at h
  unfold LexCause.startingWith
  split at h
  · simp at h
  · by_cases hquote : (c == '\x22' || c == '\x27') = true
    · rw [if_pos hquote] at h
      rw [if_pos (by simpa using hquote)]
      split at h
      · simp at h
      · exact (Except.error.inj h).symm
    rw [if_neg hquote] at h
    rw [if_neg (by simpa using hquote)]
    by_cases hslash : (c == '/') = true
    · rw [if_pos hslash] at h
      rw [if_pos (beq_iff_eq.mp hslash)]
      split at h
      · simp at h
      · exact (Except.error.inj h).symm
    rw [if_neg hslash] at h
    rw [if_neg (by simpa using hslash)]
    split at h
    · simp at h
    split at h
    · simp at h
    split at h
    · simp at h
    · exact (Except.error.inj h).symm

/-- Nothing is read exactly where no lexeme starts, and the cause is that of the character there. -/
theorem read_eq_error_iff (hclosed : inList = false ↔ closed) {cause : LexCause} :
    Lexeme.read inList c cs = .error cause ↔
      NoLexeme closed (c :: cs) ∧ cause = LexCause.startingWith c := by
  constructor
  · refine fun h => ⟨fun kind value lexeme rest htext hw => ?_, cause_of_read h⟩
    obtain ⟨l, hread, -⟩ := read_of_written hclosed.mpr hw htext
    rw [h] at hread
    exact absurd hread (by simp)
  · rintro ⟨hnone, rfl⟩
    cases hread : Lexeme.read inList c cs with
    | error cause => rw [cause_of_read hread]
    | ok l =>
      obtain ⟨lexeme, rest, htext, -, hw⟩ := written_of_read hclosed.mp hread
      exact absurd hw (hnone _ _ _ _ htext)

end Single

/-! ### Runs of the scanner -/

theorem scanFrom_blanks (n : Nat) (hblanks : ∀ c ∈ blanks, isBlank c = true) (cs : List Char) :
    scanFrom line n column (blanks ++ cs) = scanFrom line n (column + blanks.length) cs := by
  induction blanks generalizing column with
  | nil => rfl
  | cons c blanks ih =>
    have hc : isBlank c = true := hblanks c List.mem_cons_self
    rw [List.cons_append, scanFrom, if_pos hc, ih fun a ha => hblanks a (List.mem_cons_of_mem c ha),
      List.length_cons]
    congr 1
    omega

/-- The longest lexeme is taken off as a token. -/
theorem scanFrom_lexeme (h : Longest (Closed before) kind value lexeme cs) :
    scanFrom line (depth before) column (lexeme ++ cs)
      = (scanFrom line (depth (before ++ [kind])) (column + lexeme.length) cs).map
          (⟨kind, String.ofList value, line, column⟩ :: ·) := by
  obtain ⟨c, lexeme, rfl⟩ := List.exists_cons_of_ne_nil h.written.ne_nil
  have htext : c :: (lexeme ++ cs) = c :: lexeme ++ cs := rfl
  obtain ⟨more, hlen, hread⟩ := h.read_eq inList_eq_false_iff htext
  obtain rfl : lexeme.length = more := Nat.succ_injective hlen
  have hblank := h.written.isBlank_eq_false
  rw [List.cons_append, scanFrom, hblank, if_neg Bool.false_ne_true]
  simp only [hread, List.drop_left, depth_append_singleton, List.length_cons]
  rw [Nat.add_assoc, Nat.add_comm 1]

/-- A text is scanned as it is cut: the scanner gives the tokens and goes on with the rest. -/
theorem Cut.scanFrom_eq (h : Cut line before column cs ts rest) :
    ∃ text, cs = text ++ rest ∧ scanFrom line (depth before) column cs
      = (scanFrom line (depth (before ++ ts.map Token.kind)) (column + text.length) rest).map
          (ts ++ ·) := by
  induction h with
  | @stop before column blanks rest hblanks =>
    refine ⟨blanks, rfl, ?_⟩
    rw [scanFrom_blanks _ hblanks, List.map_nil, List.append_nil]
    cases scanFrom line (depth before) (column + blanks.length) rest <;> rfl
  | @token before column kind blanks value lexeme cs rest ts hblanks hlexeme _ ih =>
    obtain ⟨text, rfl, ih⟩ := ih
    refine ⟨blanks ++ lexeme ++ text, by simp, ?_⟩
    rw [List.append_assoc, scanFrom_blanks _ hblanks, scanFrom_lexeme hlexeme, ih]
    simp only [List.map_cons, List.append_assoc, List.singleton_append, List.length_append,
      ← Nat.add_assoc]
    cases scanFrom line _ _ rest <;> rfl

/-- What is cut from a line stands on this line. -/
theorem Cut.line_eq (h : Cut line before column cs ts rest) : ∀ t ∈ ts, t.line = line := by
  induction h with
  | stop => simp
  | token _ _ _ ih => exact List.forall_mem_cons.mpr ⟨rfl, ih⟩

/-- Nothing need be cut off. -/
theorem Cut.refl : Cut line before column cs [] cs :=
  @Cut.stop line before column [] cs (by simp)

/-- White space in front of a text that is cut belongs to the cut. -/
theorem Cut.cons_blank (hc : isBlank c = true) (h : Cut line before (column + 1) cs ts rest) :
    Cut line before column (c :: cs) ts rest := by
  cases h with
  | stop hblanks => exact .stop (List.forall_mem_cons.mpr ⟨hc, hblanks⟩)
  | @token _ _ kind blanks value lexeme cs _ ts hblanks hlexeme h =>
    have hcolumn : column + 1 + blanks.length = column + (c :: blanks).length := by
      rw [List.length_cons]
      omega
    rw [hcolumn] at h ⊢
    exact .token (List.forall_mem_cons.mpr ⟨hc, hblanks⟩) hlexeme h

/-- Every text can be cut, up to its end or to a character that starts no lexeme. -/
theorem exists_cut (line : Int) (before : List TokenKind) (column : Nat) (cs : List Char) :
    ∃ ts rest, Cut line before column cs ts rest ∧ (rest = [] ∨ ∃ c tail, rest = c :: tail ∧
      isBlank c = false ∧ NoLexeme (Closed (before ++ ts.map Token.kind)) (c :: tail)) := by
  -- the text gets shorter with each character of white space and with each lexeme
  induction hn : cs.length using Nat.strong_induction_on generalizing before column cs with
  | _ n ih =>
    cases cs with
    | nil => exact ⟨[], [], .refl, .inl rfl⟩
    | cons c cs =>
      rw [List.length_cons] at hn
      cases hc : isBlank c with
      | true =>
        obtain ⟨ts, rest, hcut, hrest⟩ := ih cs.length (by omega) before (column + 1) cs rfl
        exact ⟨ts, rest, hcut.cons_blank hc, hrest⟩
      | false =>
        cases hread : Lexeme.read (decide (0 < depth before)) c cs with
        | error cause =>
          have hnone := ((read_eq_error_iff inList_eq_false_iff).mp hread).1
          exact ⟨[], c :: cs, .refl,
            .inr ⟨c, cs, rfl, hc, by rwa [List.map_nil, List.append_nil]⟩⟩
        | ok l =>
          obtain ⟨lexeme, tail, htext, hlen, hlexeme⟩ := exists_longest inList_eq_false_iff hread
          have hlength := congrArg List.length htext
          rw [List.length_cons, List.length_append] at hlength
          obtain ⟨ts, rest, hcut, hrest⟩ := ih tail.length (by omega) (before ++ [l.kind])
            (column + ([] : List Char).length + lexeme.length) tail rfl
          refine ⟨⟨l.kind, String.ofList l.value, line, column⟩ :: ts, rest, ?_, ?_⟩
          · rw [htext]
            exact @Cut.token line before column l.kind [] l.value lexeme tail rest ts (by simp)
              hlexeme hcut
          · simpa using hrest

/-- A text that is cut without a rest is scanned. -/
theorem Cut.scanFrom_eq_ok (h : Cut line before column cs ts []) :
    scanFrom line (depth before) column cs = .ok ts := by
  obtain ⟨text, -, hscan⟩ := h.scanFrom_eq
  simpa [scanFrom, Except.map] using hscan

/-- A text that is cut up to a character that starts no lexeme is refused there. -/
private theorem Cut.scanFrom_eq_error (h : Cut line before column cs ts (c :: rest))
    (hc : isBlank c = false) (hnone : NoLexeme (Closed (before ++ ts.map Token.kind)) (c :: rest)) :
    ∃ text, cs = text ++ c :: rest ∧ scanFrom line (depth before) column cs
      = .error ⟨LexCause.startingWith c, column + text.length⟩ := by
  obtain ⟨text, htext, hscan⟩ := h.scanFrom_eq
  have hread := (read_eq_error_iff inList_eq_false_iff).mpr ⟨hnone, rfl⟩
  refine ⟨text, htext, ?_⟩
  rw [hscan, scanFrom, hc, if_neg Bool.false_ne_true]
  simp only [hread, Except.map]

variable {text : String} {f : LexFault}

/-- A line that is cut up to a character that starts no lexeme is refused there. -/
theorem scanTokens_of_cut_error (hcut : Cut line [] 1 text.toList ts (c :: rest))
    (hc : isBlank c = false) (hnone : NoLexeme (Closed (ts.map Token.kind)) (c :: rest)) :
    ∃ front, text.toList = front ++ c :: rest ∧
      scanTokens line text = .error ⟨LexCause.startingWith c, front.length + 1⟩ := by
  obtain ⟨front, htext, hscan⟩ := hcut.scanFrom_eq_error hc hnone
  exact ⟨front, htext, by rw [Nat.add_comm]; exact hscan⟩

/-- The tokens of a line are those it is cut into. -/
theorem scanTokens_eq_ok_iff : scanTokens line text = .ok ts ↔ Cut line [] 1 text.toList ts [] := by
  refine ⟨fun hscan => ?_, fun hcut => hcut.scanFrom_eq_ok⟩
  obtain ⟨ts', rest, hcut, rfl | ⟨c, rest, rfl, hc, hnone⟩⟩ := exists_cut line [] 1 text.toList
  · obtain rfl := Except.ok.inj (hscan.symm.trans hcut.scanFrom_eq_ok)
    exact hcut
  · obtain ⟨front, -, hrefused⟩ := scanTokens_of_cut_error hcut hc hnone
    exact absurd (hscan.symm.trans hrefused) (by simp)

/-- A line is refused exactly if it is cut up to a character that starts no lexeme. -/
theorem scanTokens_eq_error_iff :
    scanTokens line text = .error f ↔ ∃ front c rest ts, text.toList = front ++ c :: rest ∧
      Cut line [] 1 text.toList ts (c :: rest) ∧ isBlank c = false ∧
      NoLexeme (Closed (ts.map Token.kind)) (c :: rest) ∧
      f = ⟨LexCause.startingWith c, front.length + 1⟩ := by
  constructor
  · intro hscan
    obtain ⟨ts, rest, hcut, rfl | ⟨c, rest, rfl, hc, hnone⟩⟩ := exists_cut line [] 1 text.toList
    · exact absurd (hscan.symm.trans hcut.scanFrom_eq_ok) (by simp)
    · obtain ⟨front, htext, hrefused⟩ := scanTokens_of_cut_error hcut hc hnone
      exact ⟨front, c, rest, ts, htext, hcut, hc, hnone,
        Except.error.inj (hscan.symm.trans hrefused)⟩
  · rintro ⟨front, c, rest, ts, htext, hcut, hc, hnone, rfl⟩
    obtain ⟨front', htext', hrefused⟩ := scanTokens_of_cut_error hcut hc hnone
    obtain rfl := List.append_cancel_right (htext.symm.trans htext')
    exact hrefused

/-- The reason of a fault names its column. -/
private theorem LexFault.exists_reason (f : LexFault) :
    ∃ what, f.reason = what ++ " at column " ++ decimal f.column :=
  ⟨_, rfl⟩

/-- **The tokens of a line** are those it is cut into, and a line is refused exactly if it is cut
up to a character that is no white space and starts no lexeme. The reason then names the column of
that character. A token depends on its lexeme only: no lexeme has two kinds or two values. -/
theorem scanTokens_cuts (line : Int) (text : String) :
    (∀ ts, scanTokens line text = .ok ts ↔ Cut line [] 1 text.toList ts []) ∧
    (∀ f, scanTokens line text = .error f ↔ ∃ front c rest ts, text.toList = front ++ c :: rest ∧
      Cut line [] 1 text.toList ts (c :: rest) ∧ isBlank c = false ∧
      NoLexeme (Closed (ts.map Token.kind)) (c :: rest) ∧
      f = ⟨LexCause.startingWith c, front.length + 1⟩ ∧
      ∃ what, f.reason = what ++ " at column " ++ decimal (front.length + 1)) ∧
    ∀ (closed closed' : Prop) (kind kind' : TokenKind) (value value' lexeme : List Char),
      Written closed kind value lexeme → Written closed' kind' value' lexeme →
        kind' = kind ∧ value' = value := by
  refine ⟨fun _ => scanTokens_eq_ok_iff, fun f => scanTokens_eq_error_iff.trans ⟨?_, ?_⟩,
    fun _ _ _ _ _ _ _ => Written.unique⟩
  · rintro ⟨front, c, rest, ts, htext, hcut, hc, hnone, rfl⟩
    exact ⟨front, c, rest, ts, htext, hcut, hc, hnone, rfl, LexFault.exists_reason _⟩
  · rintro ⟨front, c, rest, ts, htext, hcut, hc, hnone, hf, -⟩
    exact ⟨front, c, rest, ts, htext, hcut, hc, hnone, hf⟩

/-- A list that ends in a string without its last quote is cut up to that string. -/
theorem openString_cuts :
    (∃ front c rest ts, "is in [1,5 'a\\\\', \"b\\\"".toList = front ++ c :: rest ∧
      Cut 3 [] 1 "is in [1,5 'a\\\\', \"b\\\"".toList ts (c :: rest) ∧ isBlank c = false ∧
      NoLexeme (Closed (ts.map Token.kind)) (c :: rest) ∧
      (⟨.openString, 19⟩ : LexFault) = ⟨LexCause.startingWith c, front.length + 1⟩ ∧
      ∃ what, (⟨.openString, 19⟩ : LexFault).reason
        = what ++ " at column " ++ decimal (front.length + 1)) ∧
    Written True .string "a\\".toList "'a\\\\'".toList ∧
    TokenKind.string = TokenKind.string ∧ "a\\".toList = "a\\".toList := by
  have h := scanTokens_cuts 3 "is in [1,5 'a\\\\', \"b\\\""
  have hw : Written True .string "a\\".toList "'a\\\\'".toList :=
    @Written.string True '\x27' ['a', '\\', '\\'] (.inr rfl)
      (.plain (by decide) (by decide) (.pair (by decide) .nil))
  exact ⟨(h.2.1 _).mp (by decide +kernel), hw, h.2.2 True True _ _ _ _ _ hw hw⟩

end TableRules
