import TableRules.Proofs.RulesText.Cutting
import TableRules.Text.Search

/-!
# Spelling tokens

`Spelling` says how a token may be written: a string between quotes of either kind with a backslash
before each backslash and each such quote, a pattern between slashes with a backslash before each
slash, and every other token as its value.

**Main result** (`scanTokens_joinWith`): tokens that are spelled one after the other with a space
between them are read back with their kinds and values.

A spelling is a lexeme (`Spelling.written`). It is the longest one where the next character cannot
go on with it (`Written.longest`), and a space goes on with no lexeme.
-/

namespace TableRules

open Text Lexeme

variable {closed : Prop} {kind : TokenKind} {value lexeme cs rest blanks : List Char} {c : Char}
  {before : List TokenKind} {line : Int} {column : Nat} {ts : List Token}

/-! ### Where a lexeme ends -/

/-- The characters that may go on with a lexeme of a kind. A string, a pattern and a mark are
complete in themselves. -/
def Continues (closed : Prop) (kind : TokenKind) (c : Char) : Prop :=
  match kind with
  | .word => isWordChar c = true
  | .number => (IsGrouping c ∧ (c = ',' → closed)) ∨ c ∈ ['+', '-', 'e', 'E']
  | .operator => c = '='
  | _ => False

namespace Lexeme

theorem IsMantissa.isGrouping (h : IsMantissa cs) : ∀ c ∈ cs, IsGrouping c := by
  cases h with
  | digit hc =>
    rintro a ha
    obtain rfl := List.mem_singleton.mp ha
    exact .inl hc
  | groups hfirst hinner hlast =>
    intro a ha
    rcases List.mem_cons.mp ha with rfl | ha
    · exact .inl hfirst
    rcases List.mem_append.mp ha with ha | ha
    · exact hinner a ha
    · obtain rfl := List.mem_singleton.mp ha
      exact .inl hlast
  | point hds =>
    intro a ha
    rcases List.mem_cons.mp ha with rfl | ha
    · exact .inr (by decide)
    · exact .inl (hds.2 a ha)

private theorem IsOptionalSign.mem (h : IsOptionalSign cs) : ∀ c ∈ cs, c ∈ ['+', '-'] := by
  rcases h with rfl | rfl | rfl <;> simp

/-- The characters of a number can all go on with one. -/
theorem IsNumber.continues (h : IsNumber cs) (hcomma : ',' ∈ cs → closed) :
    ∀ c ∈ cs, Continues closed .number c := by
  have hsigns : ∀ c ∈ ['+', '-'], Continues closed .number c :=
    fun c hc => .inr (forall_of_all (by decide) c hc)
  have hdigits : ∀ c, isDigit c = true → Continues closed .number c :=
    fun c hc => .inl ⟨.inl hc, by rintro rfl; exact absurd hc (by decide)⟩
  obtain ⟨hsign, hmantissa, hexponent⟩ := h
  intro c hc
  rcases List.mem_append.mp hc with hc' | hc'
  · rcases List.mem_append.mp hc' with hc' | hc'
    · exact hsigns c (hsign.mem c hc')
    · exact .inl ⟨hmantissa.isGrouping c hc', by rintro rfl; exact hcomma hc⟩
  · cases hexponent with
    | none => simp at hc'
    | some he hsign' hds =>
      rcases List.mem_cons.mp hc' with rfl | hc'
      · exact .inr (by rcases he with rfl | rfl <;> decide)
      · rcases List.mem_append.mp hc' with hc' | hc'
        · exact hsigns c (hsign'.mem c hc')
        · exact hdigits c (hds.2 c hc')

private theorem eq_of_mem_operators (h : c :: cs ∈ operators) : ∀ a ∈ cs, a = '=' := by
  have hall : ∀ o ∈ operators, (o.tail.all fun a => decide (a = '=')) = true := by decide
  exact forall_of_all (hall _ h)

/-- A body ends at its first stop, so that no other stop can come later. -/
private theorem IsBody.append_ne {stop : Char} {body body' more : List Char} (h : IsBody stop body)
    (h' : IsBody stop body') (hstop : stop ≠ '\\') :
    body ++ [stop] ++ c :: more ≠ body' ++ [stop] := by
  intro heq
  have htext : body ++ [stop] ++ c :: more = body ++ stop :: c :: more := by simp
  have hread := (stringBody?_eq_some_iff hstop).mpr ⟨body, c :: more, h, htext, rfl, rfl⟩
  have hread' := (stringBody?_eq_some_iff hstop).mpr ⟨body', [], h', heq, rfl, rfl⟩
  obtain ⟨-, hlen⟩ := Prod.mk.inj (Option.some.inj (hread.symm.trans hread'))
  have hlen' := congrArg List.length heq
  simp only [List.length_append, List.length_cons] at hlen'
  omega

/-- If more follows a lexeme and the whole is a lexeme of the same kind, the characters that follow
go on with lexemes of that kind. -/
private theorem Written.continues_of_kind {more value' : List Char}
    (h : Written closed kind value lexeme)
    (h' : Written closed kind value' (lexeme ++ more)) : ∀ c ∈ more, Continues closed kind c := by
  intro c hc
  generalize htext : lexeme ++ more = longer at h'
  have hcommon : ∀ a as, lexeme ++ more = a :: as → c ∈ as := by
    intro a as hlonger
    obtain ⟨b, bs, rfl⟩ := List.exists_cons_of_ne_nil h.ne_nil
    rw [← (List.cons.inj hlonger).2]
    simp [hc]
  have hmarks : ∀ m ∈ marks, m.2 ≠ .string ∧ m.2 ≠ .pattern := by decide
  obtain ⟨d, more, rfl⟩ := List.exists_cons_of_ne_nil (List.ne_nil_of_mem hc)
  -- marks, strings and patterns cannot go on; of all others every character but the first may
  cases h' with
  | punctuation => exact absurd (hcommon _ _ htext) List.not_mem_nil
  | @string quote body' hquote hb' =>
    cases h with
    | punctuation hmark => exact absurd rfl (hmarks _ hmark).1
    | @string quote' body _ hb =>
      obtain ⟨rfl, htext⟩ := List.cons.inj htext
      exact absurd htext (hb.append_ne hb' (by rcases hquote with rfl | rfl <;> decide))
  | @pattern body' hne hb' =>
    cases h with
    | punctuation hmark => exact absurd rfl (hmarks _ hmark).2
    | @pattern body _ hb =>
      exact absurd (List.cons.inj htext).2 (hb.append_ne hb' (by decide))
  | number hw hcomma => exact hw.continues hcomma c (htext ▸ List.mem_append_right _ hc)
  | operator hw =>
    obtain ⟨a, as, rfl⟩ := List.exists_cons_of_ne_nil (ne_nil_of_mem_operators hw)
    exact eq_of_mem_operators hw c (hcommon _ _ htext)
  | word hw =>
    obtain ⟨-, hall⟩ := hw
    exact hall c (hcommon _ _ htext)

/-- **A lexeme that starts with another one** is of the same kind, and the characters that follow
that one go on with it. -/
theorem Written.continues {kind' : TokenKind} {value' more : List Char}
    (h : Written closed kind value lexeme) (h' : Written closed kind' value' (lexeme ++ more)) :
    kind' = kind ∧ ∀ c ∈ more, Continues closed kind c := by
  -- both lexemes have the kind of what is read there
  obtain ⟨a, as, rfl⟩ := List.exists_cons_of_ne_nil h.ne_nil
  have hmono : ∀ {kind value lexeme}, Written closed kind value lexeme →
      Written True kind value lexeme := fun hw => hw.mono fun _ => trivial
  obtain ⟨l, hread, hkind, -⟩ :=
    read_of_written (fun _ => @rfl _ false) (hmono h) (rfl : a :: (as ++ more) = a :: as ++ more)
  have htext : a :: (as ++ more) = a :: as ++ more ++ [] := by simp
  obtain ⟨l', hread', hkind', -⟩ := read_of_written (fun _ => @rfl _ false) (hmono h') htext
  obtain rfl := Except.ok.inj (hread.symm.trans hread')
  obtain rfl : kind' = kind := hkind'.symm.trans hkind
  exact ⟨rfl, h.continues_of_kind h'⟩

/-- A longer lexeme at the start of a text goes on with a shorter one. -/
theorem Written.exists_more {kind' : TokenKind} {value' longer tail : List Char}
    (h : Written closed kind value lexeme) (h' : Written closed kind' value' longer)
    (htext : longer ++ tail = lexeme ++ rest) (hlen : lexeme.length < longer.length) :
    ∃ c more, longer = lexeme ++ c :: more ∧ rest = c :: more ++ tail ∧ kind' = kind ∧
      ∀ a ∈ c :: more, Continues closed kind a := by
  obtain ⟨more, rfl⟩ : ∃ more, longer = lexeme ++ more :=
    (List.append_eq_append_iff.mp htext).elim
      (fun ⟨as, hlexeme, _⟩ => by rw [hlexeme, List.length_append] at hlen; omega)
      fun ⟨more, hmore, _⟩ => ⟨more, hmore⟩
  rw [List.append_assoc, List.append_right_inj] at htext
  obtain ⟨hkind, hmore⟩ := h.continues h'
  cases more with
  | nil => simp at hlen
  | cons c more => exact ⟨c, more, rfl, htext.symm, hkind, hmore⟩

/-- A lexeme is the longest one if what follows it does not go on with it. -/
theorem Written.longest (h : Written closed kind value lexeme)
    (hrest : ∀ c ∈ rest.head?, ¬ Continues closed kind c) :
    Longest closed kind value lexeme rest := by
  refine ⟨h, fun htext h' => ?_⟩
  by_contra hlen
  obtain ⟨c, more, -, rfl, -, hmore⟩ := h.exists_more h' htext (Nat.lt_of_not_le hlen)
  exact hrest c rfl (hmore c List.mem_cons_self)

end Lexeme

/-- A lexeme is cut off if what follows it does not go on with it. -/
theorem Cut.ofWritten (hblanks : ∀ c ∈ blanks, isBlank c = true)
    (h : Written (Closed before) kind value lexeme)
    (hrest : ∀ c ∈ cs.head?, ¬ Continues (Closed before) kind c)
    (hcut : Cut line (before ++ [kind]) (column + blanks.length + lexeme.length) cs ts rest) :
    Cut line before column (blanks ++ lexeme ++ cs)
      (⟨kind, String.ofList value, line, column + blanks.length⟩ :: ts) rest :=
  .token hblanks (h.longest hrest) hcut

/-! ### Spellings of one token -/

/-- A text with a backslash before each character that needs one. -/
def escaping (needs : Char → Prop) [DecidablePred needs] (cs : List Char) : List Char :=
  cs.flatMap fun c => if needs c then ['\\', c] else [c]

/-- A text in which, from left to right, each backslash takes the next character with it and that
character is no slash. -/
inductive Paired : List Char → Prop
  | nil : Paired []
  | plain {c : Char} {cs : List Char} (hescape : c ≠ '\\') (h : Paired cs) : Paired (c :: cs)
  | pair {c : Char} {cs : List Char} (hslash : c ≠ '/') (h : Paired cs) : Paired ('\\' :: c :: cs)

/-- How a token may be written; `closed` says whether all brackets that were opened before are
closed. -/
inductive Spelling (closed : Prop) : TokenKind → List Char → List Char → Prop
  | string {quote : Char} {value : List Char} (hquote : quote = '\x22' ∨ quote = '\x27')
      (hbreak : '\n' ∉ value) :
      Spelling closed .string value
        (quote :: (escaping (fun c => c = '\\' ∨ c = quote) value ++ [quote]))
  | pattern {value : List Char} (hne : value ≠ []) (hbreak : '\n' ∉ value)
      (hpaired : Paired value) :
      Spelling closed .pattern value ('/' :: (escaping (· = '/') value ++ ['/']))
  | number {value : List Char} (h : IsNumber value) (hcomma : ',' ∈ value → closed) :
      Spelling closed .number value value
  | word {value : List Char} (h : IsWord value) : Spelling closed .word value value
  | operator {value : List Char} (h : value ∈ operators) : Spelling closed .operator value value
  | punctuation {kind : TokenKind} {c : Char} (h : (c, kind) ∈ marks) : Spelling closed kind [c] [c]

section Escaping

variable {needs : Char → Prop} [DecidablePred needs]

theorem escaping_cons (c : Char) (cs : List Char) :
    escaping needs (c :: cs) = (if needs c then ['\\', c] else [c]) ++ escaping needs cs := rfl

theorem escaping_eq_nil_iff : escaping needs cs = [] ↔ cs = [] := by
  cases cs with
  | nil => simp [escaping]
  | cons c cs => rw [escaping_cons]; split_ifs <;> simp

end Escaping

/-- A text with its backslashes and quotes escaped is the body of a string, and its value is the
text. -/
theorem string_escaping (quote : Char) (hbreak : '\n' ∉ value) :
    IsBody quote (escaping (fun c => c = '\\' ∨ c = quote) value) ∧
      unescape (escaping (fun c => c = '\\' ∨ c = quote) value) = value := by
  induction value with
  | nil => exact ⟨.nil, rfl⟩
  | cons c value ih =>
    obtain ⟨hc, hbreak⟩ := not_or.mp (List.mem_cons.not.mp hbreak)
    obtain ⟨hbody, hvalue⟩ := ih hbreak
    rw [escaping_cons]
    split_ifs with hneeds
    · exact ⟨.pair (Ne.symm hc) hbody, congrArg (c :: ·) hvalue⟩
    · obtain ⟨hescape, hquote⟩ := not_or.mp hneeds
      refine ⟨.plain hquote hescape hbody, ?_⟩
      rw [List.singleton_append, unescape, replacePairs_plain hescape]
      exact congrArg (c :: ·) hvalue

/-- A text whose backslashes are paired, with its slashes escaped, is the body of a pattern, and its
value is the text. -/
theorem pattern_escaping (hpaired : Paired value) (hbreak : '\n' ∉ value) :
    IsBody '/' (escaping (· = '/') value) ∧ unescapeSlashes (escaping (· = '/') value) = value := by
  induction hpaired with
  | nil => exact ⟨.nil, rfl⟩
  | @plain c value hescape _ ih =>
    obtain ⟨hc, hbreak⟩ := not_or.mp (List.mem_cons.not.mp hbreak)
    obtain ⟨hbody, hvalue⟩ := ih hbreak
    rw [escaping_cons]
    split_ifs with hslash
    · subst hslash
      exact ⟨.pair (by decide) hbody, congrArg ('/' :: ·) hvalue⟩
    · refine ⟨.plain hslash hescape hbody, ?_⟩
      rw [List.singleton_append, unescapeSlashes, replacePairs_plain hescape]
      exact congrArg (c :: ·) hvalue
  | @pair c value hslash _ ih =>
    simp only [List.mem_cons, not_or] at hbreak
    obtain ⟨hbody, hvalue⟩ := ih hbreak.2.2
    rw [escaping_cons, if_neg (by decide), escaping_cons, if_neg hslash]
    refine ⟨.pair (Ne.symm hbreak.2.1) hbody, ?_⟩
    rw [List.singleton_append, List.singleton_append, unescapeSlashes, replacePairs, if_neg hslash]
    exact congrArg (['\\', c] ++ ·) hvalue

/-- A spelling is a lexeme with the kind and the value of the token. -/
theorem Spelling.written (h : Spelling closed kind value lexeme) :
    Written closed kind value lexeme := by
  cases h with
  | @string quote _ hquote hbreak =>
    obtain ⟨hbody, hvalue⟩ := string_escaping quote hbreak
    have hw : Written closed .string _ _ := .string hquote hbody
    rwa [hvalue] at hw
  | pattern hne hbreak hpaired =>
    obtain ⟨hbody, hvalue⟩ := pattern_escaping hpaired hbreak
    have hw : Written closed .pattern _ _ := .pattern (escaping_eq_nil_iff.not.mpr hne) hbody
    rwa [hvalue] at hw
  | number hw hcomma => exact .number hw hcomma
  | word hw => exact .word hw
  | operator hw => exact .operator hw
  | punctuation hmark => exact .punctuation hmark

/-! ### Spellings of a sequence of tokens -/

/-- How the tokens of a sequence may be written, each given by its kind and value. Tokens of the
kinds `before` stand before them. -/
inductive Spellings : List TokenKind → List (TokenKind × String) → List String → Prop
  | nil {before : List TokenKind} : Spellings before [] []
  | cons {before : List TokenKind} {kind : TokenKind} {value spelling : String}
      {items : List (TokenKind × String)} {spellings : List String}
      (h : Spelling (Closed before) kind value.toList spelling.toList)
      (hrest : Spellings (before ++ [kind]) items spellings) :
      Spellings before ((kind, value) :: items) (spelling :: spellings)

theorem Text.toList_joinWith (separator : String) (texts : List String) :
    (joinWith separator texts).toList
      = separator.toList.intercalate (texts.map String.toList) := by
  induction texts using joinWith.induct with
  | case1 => rfl
  | case2 s => simp [joinWith]
  | case3 s rest hne ih =>
    obtain ⟨t, rest, rfl⟩ := List.exists_cons_of_ne_nil hne
    simp [joinWith, ih]

/-- Texts with a separator between them: the first one, and each other one after a separator. -/
theorem Text.toList_joinWith_cons (separator s : String) (rest : List String) :
    (joinWith separator (s :: rest)).toList
      = s.toList ++ rest.flatMap fun t => separator.toList ++ t.toList := by
  induction rest generalizing s with
  | nil => simp [joinWith]
  | cons t rest ih => simp [joinWith, ih]

/-- White space goes on with no lexeme. -/
theorem Continues.isBlank_eq_false (h : Continues closed kind c) : isBlank c = false := by
  cases kind with
  | word =>
    simp only [Continues, isWordChar, Bool.or_eq_true, beq_iff_eq] at h
    rcases h with (h | rfl) | rfl
    · simp only [isAsciiAlphanumeric, Bool.or_eq_true, Bool.and_eq_true, decide_eq_true_eq] at h
      simp only [isBlank, Bool.or_eq_false_iff, Bool.and_eq_false_iff, decide_eq_false_iff_not,
        beq_eq_false_iff_ne]
      omega
    · decide
    · decide
  | number =>
    rcases h with ⟨hdigit | hmark, -⟩ | hmark
    · exact Bool.eq_false_iff.mpr fun hblank => by simp [isDigit_of_isBlank hblank] at hdigit
    · exact forall_of_all (p := fun a => isBlank a = false) (by decide) c hmark
    · exact forall_of_all (p := fun a => isBlank a = false) (by decide) c hmark
  | operator =>
    obtain rfl : c = '=' := h
    decide
  | _ => exact absurd h not_false

theorem not_continues_space : ¬ Continues closed kind ' ' :=
  fun h => absurd h.isBlank_eq_false (by decide)

/-- A text is cut without a rest into tokens with a property, on whichever line and in whichever
column it starts. Tokens of the kinds `before` stand before it. -/
def CutsInto (before : List TokenKind) (cs : List Char) (p : List Token → Prop) : Prop :=
  ∀ line column, ∃ ts, Cut line before column cs ts [] ∧ p ts

/-- Tokens of given kinds and values, then tokens with a property. -/
def ItemsThen (items : List (TokenKind × String)) (p : List Token → Prop) (ts : List Token) :
    Prop :=
  ∃ front rest, ts = front ++ rest ∧ front.map (fun t => (t.kind, t.value)) = items ∧ p rest

variable {items : List (TokenKind × String)} {item : TokenKind × String} {tail : List Char}
  {spellings : List String} {spelling : String} {p q : List Token → Prop}

theorem CutsInto.nil (hp : p []) : CutsInto before [] p :=
  fun _ _ => ⟨[], .refl, hp⟩

theorem CutsInto.mono (h : CutsInto before cs p) (hpq : ∀ ts, p ts → q ts) :
    CutsInto before cs q := fun line column =>
  let ⟨ts, hcut, hts⟩ := h line column
  ⟨ts, hcut, hpq ts hts⟩

/-- A lexeme is cut off in front of a text that does not go on with it. -/
theorem CutsInto.cons (hblanks : ∀ c ∈ blanks, isBlank c = true)
    (h : Written (Closed before) kind value lexeme)
    (hrest : ∀ c ∈ cs.head?, ¬ Continues (Closed before) kind c)
    (hcs : CutsInto (before ++ [kind]) cs q)
    (hp : ∀ t ts, t.kind = kind → t.value = String.ofList value → q ts → p (t :: ts)) :
    CutsInto before (blanks ++ lexeme ++ cs) p := by
  intro line column
  obtain ⟨ts, hcut, hts⟩ := hcs line (column + blanks.length + lexeme.length)
  exact ⟨_, hcut.ofWritten hblanks h hrest, hp _ _ rfl rfl hts⟩

theorem ItemsThen.cons {t : Token} {value : String} (hkind : t.kind = kind)
    (hvalue : t.value = value) (h : ItemsThen items p ts) :
    ItemsThen ((kind, value) :: items) p (t :: ts) := by
  obtain ⟨front, rest, rfl, hfront, hrest⟩ := h
  exact ⟨t :: front, rest, rfl, by rw [List.map_cons, hfront, hkind, hvalue], hrest⟩

/-- What follows a token is empty or starts with a space. -/
private theorem head?_spaced (htail : ∀ c ∈ tail.head?, c = ' ') (spellings : List String) :
    ∀ c ∈ ((spellings.flatMap fun t => ' ' :: t.toList) ++ tail).head?, c = ' ' := by
  cases spellings with
  | nil => exact htail
  | cons => simp

/-- Spellings with a space before each are cut into the tokens. -/
private theorem Spellings.cutsInto_spaced (h : Spellings before items spellings)
    (htail : ∀ c ∈ tail.head?, c = ' ') (hcut : CutsInto (before ++ items.map Prod.fst) tail p) :
    CutsInto before ((spellings.flatMap fun t => ' ' :: t.toList) ++ tail) (ItemsThen items p) := by
  induction h with
  | nil =>
    rw [List.map_nil, List.append_nil] at hcut
    exact hcut.mono fun ts hts => ⟨[], ts, rfl, rfl, hts⟩
  | @cons before kind value spelling items spellings h _ ih =>
    rw [List.map_cons, ← List.singleton_append, ← List.append_assoc] at hcut
    rw [List.flatMap_cons, List.append_assoc, ← List.singleton_append]
    refine .cons (forall_of_all (by decide)) h.written (fun c hc => ?_) (ih hcut)
      fun t ts hkind hvalue hts => ?_
    · exact head?_spaced htail spellings c hc ▸ not_continues_space
    · exact .cons hkind (by rw [hvalue, String.ofList_toList]) hts

/-- Spellings with spaces between them are cut into the tokens, and so is what follows them after a
space. -/
theorem Spellings.cutsInto_joinWith (h : Spellings before (item :: items) (spelling :: spellings))
    (htail : ∀ c ∈ tail.head?, c = ' ')
    (hcut : CutsInto (before ++ (item :: items).map Prod.fst) tail p) :
    CutsInto before ((joinWith " " (spelling :: spellings)).toList ++ tail)
      (ItemsThen (item :: items) p) := by
  cases h with
  | @cons _ kind value _ _ _ h hrest =>
    rw [List.map_cons, ← List.singleton_append, ← List.append_assoc] at hcut
    rw [toList_joinWith_cons, List.append_assoc, ← List.nil_append spelling.toList]
    refine .cons (by simp) h.written (fun c hc => ?_) (hrest.cutsInto_spaced htail hcut)
      fun t ts hkind hvalue hts => ?_
    · exact head?_spaced htail spellings c hc ▸ not_continues_space
    · exact .cons hkind (by rw [hvalue, String.ofList_toList]) hts

/-- **Tokens are read back from their spellings** with spaces between them. -/
theorem scanTokens_joinWith (line : Int) (h : Spellings [] items spellings) :
    ∃ ts, scanTokens line (joinWith " " spellings) = .ok ts ∧
      ts.map (fun t => (t.kind, t.value)) = items := by
  cases h with
  | nil => exact ⟨[], scanTokens_eq_ok_iff.mpr .refl, rfl⟩
  | cons h hrest =>
    have hnothing : ∀ before, CutsInto before [] (· = []) := fun _ => .nil rfl
    obtain ⟨_, hcut, ts, _, rfl, hts, rfl⟩ :=
      (Spellings.cons h hrest).cutsInto_joinWith (by simp) (hnothing _) line 1
    rw [List.append_nil, List.append_nil] at hcut
    exact ⟨ts, scanTokens_eq_ok_iff.mpr hcut, hts⟩

/-- A list with a quoted quote, then a number with a comma and a pattern with a slash. -/
theorem escapes_joinWith :
    ∃ ts, scanTokens 2 (joinWith " " ["[", "'it\\'s \\\\'", "]", "1,5", "/\\d\\//"]) = .ok ts ∧
      ts.map (fun t => (t.kind, t.value)) = [(.openBracket, "["), (.string, "it's \\"),
        (.closeBracket, "]"), (.number, "1,5"), (.pattern, "\\d/")] := by
  have hopen : Spelling (Closed []) .openBracket "[".toList "[".toList :=
    .punctuation (c := '[') (by decide)
  have hstring : Spelling (Closed [.openBracket]) .string "it's \\".toList
      "'it\\'s \\\\'".toList :=
    @Spelling.string _ '\x27' _ (.inr rfl) (by decide)
  have hclose : Spelling (Closed [.openBracket, .string]) .closeBracket "]".toList "]".toList :=
    .punctuation (c := ']') (by decide)
  have hnumber : Spelling (Closed [.openBracket, .string, .closeBracket]) .number "1,5".toList
      "1,5".toList :=
    .number (@IsNumber.mk [] ['1', ',', '5'] [] (.inl rfl)
      (@IsMantissa.groups '1' '5' [','] (by decide) (by simp [IsGrouping]) (by decide)) .none)
      fun _ => depth_eq_zero_iff.mp rfl
  have hpattern : Spelling (Closed [.openBracket, .string, .closeBracket, .number]) .pattern
      "\\d/".toList "/\\d\\//".toList :=
    .pattern (by decide) (by decide) (.pair (by decide) (.plain (by decide) .nil))
  exact scanTokens_joinWith 2
    (.cons hopen (.cons hstring (.cons hclose (.cons hnumber (.cons hpattern .nil)))))

end TableRules
