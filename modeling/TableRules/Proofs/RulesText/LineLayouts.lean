import TableRules.Proofs.RulesText.LetterCase
import TableRules.Proofs.RulesText.Respelling
import TableRules.Proofs.RulesText.SourceLines

/-!
# Layouts of a line

A line is laid out anew (`Relaid`) by putting white space at its ends and between its tokens, and by
changing the case of letters in its words, except in names. White space between tokens may be
replaced but not taken away. What no token can be cut from, a comment for example, stays as it is.

**Main result** (`Relaid.scanTokens_respelled`): of a line that is laid out anew the tokens are
those of the old line respelled, and if the one cannot be cut into tokens, neither can the other.

A lexeme stays the longest one at its place (`Relaid.longest`). No white space goes on with a
lexeme, so that a longer lexeme of the new line would have stood in the old one, up to letter case.
-/

namespace TableRules

open Text Lexeme Result

variable {closed : Prop} {kind : TokenKind} {value cs cs' gap gap' front' rest tail' trailing
  lexeme lexeme' : List Char} {c : Char} {before before' ts ts' : List Token} {t : Token}
  {line : Int} {column column' : Nat} {text text' : String}

/-! ### How a line is laid out -/

/-- White space in place of other white space: if there was some, some is left. -/
structure Widens (gap gap' : List Char) : Prop where
  old : ∀ c ∈ gap, isBlank c = true
  new : ∀ c ∈ gap', isBlank c = true
  separates : gap ≠ [] → gap' ≠ []

/-- A text that follows given tokens is laid out anew. Its lexemes are kept one by one, words that
are no names up to letter case; so is a rest that starts no lexeme, with white space after it. -/
inductive Relaid : List Token → List Char → List Char → Prop
  | stop {before : List Token} {gap gap' rest trailing : List Char} (hgap : Widens gap gap')
      (hstart : ∀ c ∈ rest.head?, isBlank c = false)
      (hnone : NoLexeme (Closed (before.map Token.kind)) rest)
      (htrailing : ∀ c ∈ trailing, isBlank c = true) :
      Relaid before (gap ++ rest) (gap' ++ (rest ++ trailing))
  | token {before : List Token} {t : Token} {gap gap' lexeme lexeme' cs cs' : List Char}
      (hgap : Widens gap gap')
      (hlexeme : Longest (Closed (before.map Token.kind)) t.kind t.value.toList lexeme cs)
      (hsame : lexeme' = lexeme ∨
        t.kind = .word ∧ ¬ NameFollows before ∧ SameLetters lexeme lexeme')
      (h : Relaid (before ++ [t]) cs cs') :
      Relaid before (gap ++ (lexeme ++ cs)) (gap' ++ (lexeme' ++ cs'))

/-! ### The longest lexeme -/

/-- A text without white space that follows white space is empty. -/
private theorem eq_nil_of_blanks (hgap : ∀ c ∈ gap, isBlank c = true)
    (hfront : ∀ c ∈ front', isBlank c = false) (h : gap ++ rest = front' ++ tail') :
    gap = [] ∨ front' = [] := by
  cases gap with
  | nil => exact .inl rfl
  | cons c gap =>
    cases front' with
    | nil => exact .inr rfl
    | cons d front' =>
      obtain ⟨rfl, -⟩ := List.cons.inj h
      have hblank := (hgap c List.mem_cons_self).symm.trans (hfront c List.mem_cons_self)
      exact absurd hblank (by decide)

/-- A text without white space stands behind white space only where there was none. -/
private theorem Widens.front_eq_nil_or (h : Widens gap gap')
    (hfront : ∀ c ∈ front', isBlank c = false) (htext : gap' ++ rest = front' ++ tail') :
    front' = [] ∨ gap = [] ∧ rest = front' ++ tail' := by
  rcases eq_nil_of_blanks h.new hfront htext with rfl | hnil
  · exact .inr ⟨by_contra fun hne => h.separates hne rfl, htext⟩
  · exact .inl hnil

/-- What a line that is laid out anew starts with, up to the first white space, the old one starts
with too, up to letter case. -/
private theorem Relaid.exists_front (h : Relaid before cs cs')
    (hfront : ∀ c ∈ front', isBlank c = false) (htext : cs' = front' ++ tail') :
    ∃ front tail, cs = front ++ tail ∧ SameLetters front front' := by
  induction h generalizing front' tail' with
  | @stop before gap gap' rest trailing hgap hstart hnone htrailing =>
    obtain rfl | ⟨rfl, htext⟩ := hgap.front_eq_nil_or hfront htext
    · exact ⟨[], _, rfl, rfl⟩
    rcases List.append_eq_append_iff.mp htext with ⟨more, rfl, hmore⟩ | ⟨more, rfl, -⟩
    · -- the white space after the rest holds no more of the text
      have hfront := (List.forall_mem_append.mp hfront).2
      have hnil : more = [] := by
        rcases eq_nil_of_blanks htrailing hfront ((List.append_nil trailing).trans hmore) with
          rfl | hnil
        · exact (List.append_eq_nil_iff.mp hmore.symm).1
        · exact hnil
      exact ⟨rest, [], by simp, by rw [hnil, List.append_nil]; rfl⟩
    · exact ⟨front', more, rfl, rfl⟩
  | @token before t gap gap' lexeme lexeme' cs cs' hgap hlexeme hsame _ ih =>
    have hsame : SameLetters lexeme lexeme' := by
      rcases hsame with rfl | ⟨-, -, hsame⟩
      · rfl
      · exact hsame
    obtain rfl | ⟨rfl, htext⟩ := hgap.front_eq_nil_or hfront htext
    · exact ⟨[], _, rfl, rfl⟩
    rcases List.append_eq_append_iff.mp htext with ⟨more, rfl, hmore⟩ | ⟨more, rfl, -⟩
    · obtain ⟨front, tail, rfl, hmore⟩ := ih (List.forall_mem_append.mp hfront).2 hmore
      exact ⟨lexeme ++ front, tail, by simp, hsame.append hmore⟩
    · obtain ⟨front, tail, rfl, hfront, -⟩ := SameLetters.exists_append hsame.symm
      exact ⟨front, tail ++ cs, by simp, hfront.symm⟩

/-- **A lexeme stays the longest one** when it and the text after it are laid out anew. -/
theorem Relaid.longest {value' : List Char} (h : Relaid before cs cs')
    (hlexeme : Longest closed kind value lexeme cs) (hw : Written closed kind value' lexeme')
    (hsame : SameLetters lexeme lexeme') : Longest closed kind value' lexeme' cs' := by
  refine ⟨hw, fun {_ _ longer _} htext hlonger => ?_⟩
  by_contra hlen
  -- a longer lexeme goes on without white space, so that the old line goes on in the same way
  obtain ⟨c, more, rfl, hcs', rfl, hmore⟩ :=
    hw.exists_more hlonger htext (Nat.lt_of_not_le hlen)
  obtain ⟨front, tail, rfl, hfront⟩ :=
    h.exists_front (fun a ha => (hmore a ha).isBlank_eq_false) hcs'
  have hold := hlonger.sameLetters (hmore c List.mem_cons_self) (hsame.append hfront).symm
  have hle := hlexeme.longest (List.append_assoc lexeme front tail) hold
  have hlength := congrArg List.length hfront
  simp only [List.length_map, List.length_append, List.length_cons] at hle hlength
  omega

/-! ### What starts no lexeme -/

/-- A lexeme does not end with white space. -/
theorem Lexeme.Written.isBlank_last (h : Written closed kind value (cs ++ [c])) :
    isBlank c = false := by
  have hlast : ∀ front (d : Char), cs ++ [c] = front ++ [d] → c = d := fun front d heq =>
    List.singleton_inj.mp (List.append_inj_right' heq rfl)
  generalize htext : cs ++ [c] = lexeme at h
  have hmem : c ∈ lexeme := htext ▸ List.mem_append_right _ List.mem_cons_self
  cases h with
  | @punctuation mark kind hmark =>
    obtain rfl := List.mem_singleton.mp hmem
    exact (@Written.punctuation closed c kind hmark).isBlank_eq_false
  | @string quote body hquote =>
    obtain rfl := hlast (quote :: body) quote htext
    rcases hquote with rfl | rfl <;> decide
  | @pattern body =>
    obtain rfl := hlast ('/' :: body) '/' htext
    decide
  | number hw hcomma => exact (hw.continues hcomma c hmem).isBlank_eq_false
  | operator hw =>
    have hall : ∀ o ∈ operators, (o.all fun a => decide (isBlank a = false)) = true := by decide
    exact forall_of_all (hall _ hw) c hmem
  | @word lexeme hw =>
    obtain ⟨hstart, hall⟩ := hw
    have hcontinues : Continues closed .word c := by
      rcases List.mem_cons.mp hmem with rfl | hmem
      · exact isWordChar_of_isWordStart hstart
      · exact hall c hmem
    exact hcontinues.isBlank_eq_false

/-- White space at the end does not turn a text into one that starts with a lexeme. -/
theorem NoLexeme.append (h : NoLexeme closed rest)
    (htrailing : ∀ c ∈ trailing, isBlank c = true) : NoLexeme closed (rest ++ trailing) := by
  intro kind value lexeme tail htext hw
  rcases List.append_eq_append_iff.mp htext with ⟨more, rfl, hmore⟩ | ⟨more, rfl, -⟩
  · rcases List.eq_nil_or_concat' more with rfl | ⟨more, c, rfl⟩
    · rw [List.append_nil] at hw
      exact h kind value rest [] (List.append_nil rest).symm hw
    · rw [← List.append_assoc] at hw
      exact absurd (hw.isBlank_last.symm.trans (htrailing c (by simp [hmore]))) (by decide)
  · exact h kind value lexeme more rfl hw

/-- No lexeme is empty. -/
theorem noLexeme_nil : NoLexeme closed [] := fun _ _ _ _ htext hw =>
  hw.ne_nil (List.append_eq_nil_iff.mp htext.symm).1

/-- A comment starts no lexeme: no pattern is empty. -/
theorem noLexeme_comment (cs : List Char) : NoLexeme closed ('/' :: '/' :: cs) := by
  intro kind value lexeme rest htext hw
  have hrefused : Lexeme.read false '/' ('/' :: cs) = .error .openPattern := rfl
  obtain ⟨l, hread, -⟩ := read_of_written (fun _ => @rfl _ false) hw htext
  exact absurd (hread.symm.trans hrefused) (by simp)

/-! ### The tokens of a line -/

/-- A text that is left when no more tokens can be cut off. -/
def IsStuck (closed : Prop) (rest : List Char) : Prop :=
  ∃ c tail, rest = c :: tail ∧ isBlank c = false ∧ NoLexeme closed (c :: tail)

/-- What is left of a line and of the line laid out anew when no more tokens can be cut off. -/
def EndAlike (closed : Prop) (rest rest' : List Char) : Prop :=
  rest = [] ∧ rest' = [] ∨ IsStuck closed rest ∧ IsStuck closed rest'

/-- What stands in place of a lexeme is the lexeme of a token that reads like the old one. -/
private theorem exists_respelled (hw : Written closed t.kind t.value.toList lexeme)
    (hsame : lexeme' = lexeme ∨
      t.kind = .word ∧ ¬ NameFollows before ∧ SameLetters lexeme lexeme') :
    ∃ t' : Token, Written closed t'.kind t'.value.toList lexeme' ∧ SameLetters lexeme lexeme' ∧
      t.Respells t' ∧ (NameFollows before → t'.value = t.value) := by
  rcases hsame with rfl | ⟨hkind, hname, hsame⟩
  · exact ⟨t, hw, rfl, ⟨rfl, rfl, fun _ => rfl⟩, fun _ => rfl⟩
  · have hcontinues : Continues closed t.kind 'a' := hkind ▸ (by decide : isWordChar 'a' = true)
    have hnew := hw.sameLetters hcontinues hsame
    -- the value of a word is the word itself
    obtain ⟨-, hvalue⟩ := hw.unique (hw.sameLetters hcontinues rfl)
    refine ⟨⟨t.kind, String.ofList lexeme', t.line, t.column⟩, ?_, hsame, ⟨rfl, ?_, ?_⟩, ?_⟩
    · rwa [String.toList_ofList]
    · rw [lowerAscii, lowerAscii, String.toList_ofList, ← hvalue, hsame]
    · exact fun hne => absurd hkind hne
    · exact fun hfollows => absurd hfollows hname

/-- The first token of a text, in its place. -/
private theorem Cut.ofToken {kinds : List TokenKind} (hgap : ∀ c ∈ gap, isBlank c = true)
    (hlexeme : Longest (Closed kinds) t.kind t.value.toList lexeme cs)
    (h : Cut line (kinds ++ [t.kind]) (column + gap.length + lexeme.length) cs ts rest) :
    Cut line kinds column (gap ++ (lexeme ++ cs))
      ({ t with line := line, column := column + gap.length } :: ts) rest := by
  have hcut := Cut.token hgap hlexeme h
  rwa [String.ofList_toList, List.append_assoc] at hcut

/-- A text that is laid out anew is cut into the same tokens respelled. -/
private theorem Relaid.exists_cuts (h : Relaid before cs cs')
    (hbefore : List.Forall₂ Token.Respells before before') (line line' : Int)
    (column column' : Nat) :
    ∃ ts ts' rest rest', Cut line (before.map Token.kind) column cs ts rest ∧
      Cut line' (before.map Token.kind) column' cs' ts' rest' ∧ Respelled before' ts ts' ∧
      EndAlike (Closed ((before ++ ts).map Token.kind)) rest rest' := by
  induction h generalizing before' column column' with
  | @stop before gap gap' rest trailing hgap hstart hnone htrailing =>
    cases rest with
    | nil =>
      refine ⟨[], [], [], [], .stop hgap.old, ?_, .nil, .inl ⟨rfl, rfl⟩⟩
      have hblanks := List.forall_mem_append.mpr ⟨hgap.new, htrailing⟩
      simpa using @Cut.stop line' (before.map Token.kind) column' (gap' ++ trailing) [] hblanks
    | cons c rest =>
      have hc : isBlank c = false := hstart c rfl
      refine ⟨[], [], c :: rest, c :: rest ++ trailing, .stop hgap.old, .stop hgap.new, .nil, ?_⟩
      rw [List.append_nil]
      exact .inr ⟨⟨c, rest, rfl, hc, hnone⟩, c, rest ++ trailing, rfl, hc, hnone.append htrailing⟩
  | @token before t gap gap' lexeme lexeme' cs cs' hgap hlexeme hsame h ih =>
    obtain ⟨t', hw, hsame, ht, hname⟩ := exists_respelled hlexeme.written hsame
    have hlexeme' := h.longest hlexeme (ht.kind ▸ hw) hsame
    -- where a token stands does not matter for how it reads
    have hbefore' : List.Forall₂ Token.Respells (before ++ [t])
        (before' ++ [{ t with line := line, column := column + gap.length }]) :=
      List.rel_append hbefore (.cons ⟨rfl, rfl, fun _ => rfl⟩ .nil)
    obtain ⟨ts, ts', rest, rest', hcut, hcut', hts, hend⟩ := ih hbefore'
      (column + gap.length + lexeme.length) (column' + gap'.length + lexeme'.length)
    have hkinds : ∀ ts, (before ++ [t] ++ ts).map Token.kind
        = (before ++ { t with line := line, column := column + gap.length } :: ts).map
            Token.kind := by
      simp
    rw [List.map_append, List.map_singleton] at hcut hcut'
    refine ⟨_ :: ts, _ :: ts', rest, rest', .ofToken hgap.old hlexeme hcut,
      .ofToken hgap.new (ht.kind ▸ hlexeme') (ht.kind.symm ▸ hcut'), .cons ?_ ?_ hts,
      hkinds ts ▸ hend⟩
    · exact ⟨ht.kind, ht.lower, ht.value⟩
    · exact fun hfollows =>
        hname (hfollows.respells (hbefore.flip.imp fun _ _ => Token.Respells.symm))

/-- A line that cannot be cut to its end has no tokens. -/
private theorem IsStuck.exists_error {kinds : List TokenKind} (h : IsStuck (Closed kinds) rest)
    (hcut : Cut line [] 1 text.toList ts rest) (hkinds : kinds = ts.map Token.kind) :
    ∃ f, scanTokens line text = .error f := by
  obtain ⟨c, tail, rfl, hc, hnone⟩ := h
  obtain ⟨front, -, hrefused⟩ := scanTokens_of_cut_error hcut hc (hkinds ▸ hnone)
  exact ⟨_, hrefused⟩

/-- **A line that is laid out anew** has the tokens of the old line respelled, or neither line can
be cut into tokens. -/
theorem Relaid.scanTokens_respelled (h : Relaid [] text.toList text'.toList) (line line' : Int) :
    (∃ ts ts', scanTokens line text = .ok ts ∧ scanTokens line' text' = .ok ts' ∧
        Respelled [] ts ts') ∨
      (∃ f, scanTokens line text = .error f) ∧ ∃ f', scanTokens line' text' = .error f' := by
  obtain ⟨ts, ts', rest, rest', hcut, hcut', hts, ⟨rfl, rfl⟩ | ⟨hstuck, hstuck'⟩⟩ :=
    h.exists_cuts .nil line line' 1 1
  · exact .inl ⟨ts, ts', scanTokens_eq_ok_iff.mpr hcut, scanTokens_eq_ok_iff.mpr hcut', hts⟩
  · have hkinds : ts'.map Token.kind = ts.map Token.kind :=
      map_eq_of_forall₂ (hts.tokens.imp fun _ _ ht => ht.kind)
    exact .inr ⟨hstuck.exists_error hcut rfl, hstuck'.exists_error hcut' hkinds.symm⟩

/-- A line with a token is not skipped. -/
private theorem isSkipped_of_lexeme (hgap : ∀ c ∈ gap, isBlank c = true)
    (hw : Written closed kind value lexeme) (htext : text.toList = gap ++ (lexeme ++ cs)) :
    isSkipped text = false := by
  obtain ⟨c, lexeme, rfl⟩ := List.exists_cons_of_ne_nil hw.ne_nil
  have hdrop : dropBlanks text.toList = c :: lexeme ++ cs := by
    rw [htext]
    refine dropBlanks_append hgap fun a ha => ?_
    obtain rfl : c = a := Option.some.inj ha
    exact hw.isBlank_eq_false
  rw [Bool.eq_false_iff, ne_eq, isSkipped_iff, hdrop]
  rintro (hnil | ⟨cs', hcomment⟩)
  · simp at hnil
  · exact noLexeme_comment cs' _ _ _ _ hcomment.symm hw

/-- **A line that is laid out anew** is skipped exactly if the old line is. -/
theorem Relaid.isSkipped_eq (h : Relaid [] text.toList text'.toList) :
    isSkipped text' = isSkipped text := by
  generalize hold : text.toList = cs at h
  generalize hnew : text'.toList = cs' at h
  generalize hnil : ([] : List Token) = before at h
  cases h with
  | token hgap hlexeme hsame =>
    obtain ⟨t', hw, -, -, -⟩ := exists_respelled hlexeme.written hsame
    rw [isSkipped_of_lexeme hgap.old hlexeme.written hold, isSkipped_of_lexeme hgap.new hw hnew]
  | @stop _ gap gap' rest trailing hgap hstart hnone htrailing =>
    rw [Bool.eq_iff_iff, isSkipped_iff, isSkipped_iff, hold, hnew,
      dropBlanks_append hgap.old hstart]
    cases rest with
    | nil =>
      have hblanks := List.forall_mem_append.mpr ⟨hgap.new, htrailing⟩
      rw [List.nil_append, dropBlanks, List.dropWhile_eq_nil_iff.mpr hblanks]
    | cons c rest =>
      rw [dropBlanks_append hgap.new (by simpa using hstart)]
      cases rest with
      | cons d rest => simp
      | nil =>
        cases trailing with
        | nil => simp
        | cons d trailing =>
          -- the second slash of a comment is no white space
          have hd : d ≠ '/' := fun heq =>
            absurd (htrailing d List.mem_cons_self) (heq ▸ by decide)
          simp [hd]

/-! ### Lines left as they are -/

/-- A text that is cut up to where no lexeme starts may be left as it is. -/
private theorem Cut.relaid {kinds : List TokenKind} (hcut : Cut line kinds column cs ts rest)
    (hstart : ∀ c ∈ rest.head?, isBlank c = false)
    (hnone : NoLexeme (Closed (kinds ++ ts.map Token.kind)) rest)
    (hkinds : before.map Token.kind = kinds) : Relaid before cs cs := by
  have hsame : ∀ {gap : List Char}, (∀ c ∈ gap, isBlank c = true) → Widens gap gap := fun hgap =>
    ⟨hgap, hgap, id⟩
  induction hcut generalizing before with
  | @stop kinds column gap rest hgap =>
    rw [List.map_nil, List.append_nil] at hnone
    have hlaid := @Relaid.stop before gap gap rest [] (hsame hgap) hstart (hkinds ▸ hnone) (by simp)
    rwa [List.append_nil] at hlaid
  | @token kinds column kind gap value lexeme cs rest ts hgap hlexeme _ ih =>
    rw [List.append_assoc]
    refine @Relaid.token before ⟨kind, String.ofList value, line, column⟩ _ _ _ _ _ _
      (hsame hgap) ?_ (.inl rfl) (ih hstart ?_ (by simp [hkinds]))
    · rwa [String.toList_ofList, hkinds]
    · simpa using hnone

/-- **Every line** may be left as it is. -/
theorem Relaid.refl (before : List Token) (cs : List Char) : Relaid before cs cs := by
  obtain ⟨ts, rest, hcut, rfl | ⟨c, tail, rfl, hc, hnone⟩⟩ :=
    exists_cut 1 (before.map Token.kind) 1 cs
  · exact hcut.relaid (by simp) noLexeme_nil rfl
  · refine hcut.relaid ?_ hnone rfl
    rintro a ⟨⟩
    exact hc

end TableRules
