import Mathlib.Data.List.DropRight
import TableRules.Proofs.Text.Trimming
import TableRules.RulesText.Lexer

/-!
# Lexemes

`Lexeme.Written` is the grammar of lexemes: which characters are a lexeme of which kind, and what
its value is.

* Between two quotes or two slashes stands a **body** (`IsBody`): a backslash in it takes the next
  character with it, so that neither can end the body. The value of a string is its body with each
  of these pairs replaced by its second character (`unescape`), the value of a pattern is its body
  with only the escaped slashes replaced (`unescapeSlashes`). An escaped slash is found by its two
  characters alone (`replaceAll_eq_unescapeSlashes`).
* A **number** is a sign, a mantissa and an exponent (`IsNumber`). A comma among its digits is
  allowed only where all brackets are closed.
* The value of every other lexeme is the lexeme itself.

`Lexeme.read` reads a lexeme of this grammar (`written_of_read`), and whenever a text starts with
one, it reads one of the same kind that is at least as long (`read_of_written`). So a lexeme has one
kind and one value (`Written.unique`).
-/

namespace TableRules.Lexeme

open Text

variable {closed : Prop} {kind : TokenKind} {value cs ds rest : List Char} {c : Char}

/-! ### The grammar -/

/-- A sequence of digits, not empty. -/
def IsDigits (cs : List Char) : Prop := cs ≠ [] ∧ ∀ c ∈ cs, isDigit c = true

/-- A sign that may be left out. -/
def IsOptionalSign (cs : List Char) : Prop := cs = [] ∨ cs = ['+'] ∨ cs = ['-']

/-- A character that may stand between the first and the last digit of a number. -/
def IsGrouping (c : Char) : Prop := isDigit c = true ∨ c ∈ ['.', ',', '_', '\x27']

/-- A number without sign and exponent: a digit, grouped digits between two digits, or digits after
a point. -/
inductive IsMantissa : List Char → Prop
  | digit {c : Char} (h : isDigit c = true) : IsMantissa [c]
  | groups {first last : Char} {inner : List Char} (hfirst : isDigit first = true)
      (hinner : ∀ c ∈ inner, IsGrouping c) (hlast : isDigit last = true) :
      IsMantissa (first :: (inner ++ [last]))
  | point {ds : List Char} (h : IsDigits ds) : IsMantissa ('.' :: ds)

/-- An exponent that may be left out. -/
inductive IsExponent : List Char → Prop
  | none : IsExponent []
  | some {e : Char} {sign ds : List Char} (he : e = 'e' ∨ e = 'E') (hsign : IsOptionalSign sign)
      (hds : IsDigits ds) : IsExponent (e :: (sign ++ ds))

/-- A number as written. -/
inductive IsNumber : List Char → Prop
  | mk {sign mantissa exponent : List Char} (hsign : IsOptionalSign sign)
      (hmantissa : IsMantissa mantissa) (hexponent : IsExponent exponent) :
      IsNumber (sign ++ mantissa ++ exponent)

/-- A word: a letter or `_`, then letters, digits, `_` and `-`. -/
inductive IsWord : List Char → Prop
  | mk {c : Char} {cs : List Char} (hc : isWordStart c = true)
      (hcs : ∀ d ∈ cs, isWordChar d = true) : IsWord (c :: cs)

/-- The operators. -/
def operators : List (List Char) := ["==", "!=", ">=", "<=", ">", "<"].map String.toList

/-- The punctuation marks with their kinds. -/
def marks : List (Char × TokenKind) :=
  [(':', .colon), ('[', .openBracket), (']', .closeBracket), (',', .comma)]

/-- The characters of a string or a pattern that ends with `stop`, without the ends: a backslash
takes the next character with it, and there is no other `stop`. -/
inductive IsBody (stop : Char) : List Char → Prop
  | nil : IsBody stop []
  | plain {c : Char} {cs : List Char} (hstop : c ≠ stop) (hescape : c ≠ '\\') (h : IsBody stop cs) :
      IsBody stop (c :: cs)
  | pair {c : Char} {cs : List Char} (hbreak : c ≠ '\n') (h : IsBody stop cs) :
      IsBody stop ('\\' :: c :: cs)

/-- A body with each backslash and the character after it replaced, from left to right. -/
def replacePairs (pair : Char → List Char) : List Char → List Char
  | '\\' :: c :: cs => pair c ++ replacePairs pair cs
  | c :: cs => c :: replacePairs pair cs
  | [] => []

/-- The value of a string: of each pair the second character is left. -/
def unescape (body : List Char) : List Char := replacePairs (fun c => [c]) body

/-- The value of a pattern: an escaped slash loses its backslash, all other pairs stay. -/
def unescapeSlashes (body : List Char) : List Char :=
  replacePairs (fun c => if c = '/' then ['/'] else ['\\', c]) body

/-- The lexemes of each kind and their values; `closed` says whether all brackets that were opened
before are closed. -/
inductive Written (closed : Prop) : TokenKind → List Char → List Char → Prop
  | punctuation {c : Char} {kind : TokenKind} (h : (c, kind) ∈ marks) : Written closed kind [c] [c]
  | string {quote : Char} {body : List Char} (hquote : quote = '\x22' ∨ quote = '\x27')
      (hbody : IsBody quote body) :
      Written closed .string (unescape body) (quote :: (body ++ [quote]))
  | pattern {body : List Char} (hne : body ≠ []) (hbody : IsBody '/' body) :
      Written closed .pattern (unescapeSlashes body) ('/' :: (body ++ ['/']))
  | number {cs : List Char} (h : IsNumber cs) (hcomma : ',' ∈ cs → closed) :
      Written closed .number cs cs
  | operator {cs : List Char} (h : cs ∈ operators) : Written closed .operator cs cs
  | word {cs : List Char} (h : IsWord cs) : Written closed .word cs cs

/-- A number starts with a digit, a sign or a point. -/
theorem IsNumber.first (h : IsNumber (c :: cs)) : isDigit c = true ∨ c ∈ ['+', '-', '.'] := by
  generalize htext : c :: cs = text at h
  obtain ⟨hsign, hmantissa, -⟩ := h
  rcases hsign with rfl | rfl | rfl
  · cases hmantissa with
    | digit ha => exact .inl ((List.cons.inj htext).1 ▸ ha)
    | groups ha => exact .inl ((List.cons.inj htext).1 ▸ ha)
    | point => exact .inr (by rw [(List.cons.inj htext).1]; decide)
  · exact .inr (by rw [(List.cons.inj htext).1]; decide)
  · exact .inr (by rw [(List.cons.inj htext).1]; decide)

theorem IsNumber.ne_nil (h : IsNumber cs) : cs ≠ [] := by
  obtain ⟨-, hmantissa, -⟩ := h
  cases hmantissa <;> simp

/-- An operator starts with one of four characters. -/
private theorem first_of_mem_operators (h : c :: cs ∈ operators) : c ∈ ['=', '!', '>', '<'] := by
  simp only [operators, List.map_cons, List.map_nil, List.mem_cons, List.not_mem_nil, or_false] at h
  rcases h with h | h | h | h | h | h <;> exact (List.cons.inj h).1 ▸ by decide

theorem ne_nil_of_mem_operators (h : cs ∈ operators) : cs ≠ [] := by
  rintro rfl
  exact absurd h (by decide)

theorem Written.ne_nil (h : Written closed kind value cs) : cs ≠ [] := by
  cases h with
  | number h => exact h.ne_nil
  | operator h => exact ne_nil_of_mem_operators h
  | word h =>
    obtain ⟨-, -⟩ := h
    simp
  | _ => simp

private theorem isAscii_of_isWordStart (h : isWordStart c = true) :
    0x41 ≤ c.toNat ∧ c.toNat < 0x80 := by
  rcases Bool.or_eq_true_iff.mp h with h | h
  · simp only [isAsciiLetter, Bool.or_eq_true, Bool.and_eq_true, decide_eq_true_eq] at h
    omega
  · rw [beq_iff_eq.mp h]
    decide

/-- A lexeme does not start with white space. -/
theorem Written.isBlank_eq_false (h : Written closed kind value (c :: cs)) : isBlank c = false := by
  generalize htext : c :: cs = text at h
  cases h with
  | punctuation h =>
    rw [(List.cons.inj htext).1]
    have hall : ∀ m ∈ marks, isBlank m.1 = false := by decide
    exact hall (_, _) h
  | string hquote =>
    obtain ⟨rfl, -⟩ := List.cons.inj htext
    rcases hquote with rfl | rfl <;> decide
  | pattern =>
    rw [(List.cons.inj htext).1]
    decide
  | number h =>
    subst htext
    rcases h.first with hc | hc
    · exact Bool.eq_false_iff.mpr fun hblank => by simp [isDigit_of_isBlank hblank] at hc
    · have hall : ∀ a ∈ ['+', '-', '.'], isBlank a = false := forall_of_all (by decide)
      exact hall c hc
  | operator h =>
    subst htext
    have hall : ∀ a ∈ ['=', '!', '>', '<'], isBlank a = false := forall_of_all (by decide)
    exact hall c (first_of_mem_operators h)
  | word h =>
    obtain ⟨hc, -⟩ := h
    obtain ⟨rfl, -⟩ := List.cons.inj htext
    have hascii := isAscii_of_isWordStart hc
    simp only [isBlank, Bool.or_eq_false_iff, Bool.and_eq_false_iff, decide_eq_false_iff_not,
      beq_eq_false_iff_ne]
    omega

/-! ### Bodies -/

section Bodies

variable {stop : Char} {pair : Char → List Char} {body v : List Char} {n : Nat}

theorem replacePairs_plain (h : c ≠ '\\') (cs : List Char) :
    replacePairs pair (c :: cs) = c :: replacePairs pair cs := by
  rw [replacePairs]
  rintro a as rfl
  exact absurd rfl h

/-- Reads a body up to its end; strings and patterns differ in what is left of a pair. -/
private def body? (stop : Char) (pair : Char → List Char) : List Char → Option (List Char × Nat)
  | [] => none
  | '\\' :: [] => none
  | '\\' :: c :: cs =>
    if c == '\n' then none else (body? stop pair cs).map fun (v, n) => (pair c ++ v, n + 2)
  | c :: cs =>
    if c == stop then some ([], 1)
    else (body? stop pair cs).map fun (v, n) => (c :: v, n + 1)

private theorem stringBody?_eq_body? (stop : Char) (cs : List Char) :
    stringBody? stop cs = body? stop (fun c => [c]) cs := by
  fun_induction stringBody? stop cs <;> simp_all [body?]

private theorem patternBody?_eq_body? (cs : List Char) :
    patternBody? cs = (body? '/' (fun c => ['\\', c]) cs).map Prod.fst := by
  fun_induction patternBody? cs <;> simp_all [body?, Function.comp_def]

/-- A body ends at the first `stop` that is not escaped. -/
private theorem body?_eq_some_iff (hstop : stop ≠ '\\') :
    body? stop pair cs = some (v, n) ↔
      ∃ body rest, IsBody stop body ∧ cs = body ++ stop :: rest ∧ v = replacePairs pair body ∧
        n = body.length + 1 := by
  constructor
  · intro h
    fun_induction body? stop pair cs generalizing v n with
    | case1 => simp at h
    | case2 => simp at h
    | case3 => simp at h
    | case4 c cs hbreak ih =>
      obtain ⟨⟨v, n⟩, hv, h⟩ := Option.map_eq_some_iff.mp h
      obtain ⟨rfl, rfl⟩ := Prod.mk.inj h
      obtain ⟨body, rest, hbody, rfl, rfl, rfl⟩ := ih hv
      exact ⟨'\\' :: c :: body, rest, .pair (by simpa using hbreak) hbody, rfl, rfl, rfl⟩
    | case5 c cs hnil hcons hend =>
      obtain ⟨rfl, rfl⟩ := Prod.mk.inj (Option.some.inj h)
      exact ⟨[], cs, .nil, by rw [beq_iff_eq.mp hend]; rfl, rfl, rfl⟩
    | case6 c cs hnil hcons hend ih =>
      obtain ⟨⟨v, n⟩, hv, h⟩ := Option.map_eq_some_iff.mp h
      obtain ⟨rfl, rfl⟩ := Prod.mk.inj h
      obtain ⟨body, rest, hbody, rfl, rfl, rfl⟩ := ih hv
      -- a lone backslash would have to end the text, but the end of the body follows
      have hescape : c ≠ '\\' := by
        rintro rfl
        cases hrest : body ++ stop :: rest with
        | nil => simp at hrest
        | cons a as => exact hcons a as rfl hrest
      exact ⟨c :: body, rest, .plain (by simpa using hend) hescape hbody, rfl,
        (replacePairs_plain hescape body).symm, rfl⟩
  · rintro ⟨body, rest, hbody, rfl, rfl, rfl⟩
    induction hbody with
    | nil =>
      rw [List.nil_append, body?]
      · simp [replacePairs]
      · rintro rfl
        exact absurd rfl hstop
      · rintro a as rfl
        exact absurd rfl hstop
    | @plain c body hne hescape _ ih =>
      rw [List.cons_append, body?, ih, replacePairs_plain hescape]
      · simp [hne]
      · rintro rfl
        exact absurd rfl hescape
      · rintro a as rfl
        exact absurd rfl hescape
    | @pair c body hbreak _ ih =>
      rw [List.cons_append, List.cons_append, body?, ih, replacePairs]
      simp [hbreak]

/-- A string is read up to the first quote that is not escaped. -/
theorem stringBody?_eq_some_iff (hstop : stop ≠ '\\') :
    stringBody? stop cs = some (v, n) ↔
      ∃ body rest, IsBody stop body ∧ cs = body ++ stop :: rest ∧ v = unescape body ∧
        n = body.length + 1 := by
  rw [stringBody?_eq_body?]
  exact body?_eq_some_iff hstop

/-- A body stays as it is when each pair is replaced by itself. -/
private theorem replacePairs_self (body : List Char) :
    replacePairs (fun c => ['\\', c]) body = body := by
  fun_induction replacePairs (fun c => ['\\', c]) body <;> simp_all

/-- A pattern is read up to the first slash that is not escaped. -/
theorem patternBody?_eq_some_iff :
    patternBody? cs = some body ↔ IsBody '/' body ∧ ∃ rest, cs = body ++ '/' :: rest := by
  rw [patternBody?_eq_body?, Option.map_eq_some_iff]
  constructor
  · rintro ⟨⟨v, n⟩, hv, rfl⟩
    obtain ⟨body, rest, hbody, rfl, rfl, -⟩ := (body?_eq_some_iff (by decide)).mp hv
    rw [replacePairs_self]
    exact ⟨hbody, rest, rfl⟩
  · rintro ⟨hbody, rest, rfl⟩
    exact ⟨(body, body.length + 1), (body?_eq_some_iff (by decide)).mpr
      ⟨body, rest, hbody, rfl, (replacePairs_self body).symm, rfl⟩, rfl⟩

/-- A slash in the body of a pattern is escaped. -/
theorem IsBody.head_ne (h : IsBody stop (c :: cs)) (hstop : stop ≠ '\\') : c ≠ stop := by
  cases h with
  | plain hne => exact hne
  | pair => exact hstop.symm

/-- **Replacing escaped slashes** by slashes anywhere in the body of a pattern hits pairs only: the
second half of an escaped backslash has no slash after it, since that would end the body. -/
theorem replaceAll_eq_unescapeSlashes (h : IsBody '/' body) :
    replaceAll ['\\', '/'] ['/'] body = unescapeSlashes body := by
  induction h with
  | nil => rfl
  | @plain c body _ hescape _ ih =>
    have hprefix : ¬ ['\\', '/'] <+: c :: body := fun hpre =>
      hescape (List.cons_prefix_cons.mp hpre).1.symm
    rw [replaceAll_cons hprefix, ih, unescapeSlashes, unescapeSlashes, replacePairs_plain hescape]
  | @pair c body _ hbody ih =>
    rw [unescapeSlashes, replacePairs, ← unescapeSlashes]
    split_ifs with hslash
    · rw [hslash, ← ih]
      exact replaceAll_append (by simp)
    · have hpair : ¬ ['\\', '/'] <+: '\\' :: c :: body := fun hpre =>
        hslash (List.cons_prefix_cons.mp (List.cons_prefix_cons.mp hpre).2).1.symm
      have hsecond : ¬ ['\\', '/'] <+: c :: body := by
        intro hpre
        obtain ⟨rest, rfl⟩ := (List.cons_prefix_cons.mp hpre).2
        exact hbody.head_ne (by decide) rfl
      rw [replaceAll_cons hpair, replaceAll_cons hsecond, ih]
      rfl

end Bodies

/-! ### Numbers -/

section Numbers

variable {inList : Bool} {n : Nat}

private theorem isGroupChar_iff :
    isGroupChar inList c = true ↔ IsGrouping c ∧ (c = ',' → inList = false) := by
  have hcomma : isDigit ',' = false := by decide
  simp only [isGroupChar, IsGrouping, Bool.or_eq_true, Bool.and_eq_true, Bool.not_eq_true',
    beq_iff_eq, List.mem_cons, List.not_mem_nil, or_false]
  constructor
  · rintro ((((h | rfl) | rfl) | rfl) | ⟨rfl, h⟩)
    · exact ⟨.inl h, by rintro rfl; simp [hcomma] at h⟩
    all_goals simp_all
  · rintro ⟨h | rfl | rfl | rfl | rfl, hc⟩ <;> simp_all

/-- The length of a sign at the start of a text. -/
private def signLength (cs : List Char) : Nat := ((cs.take 1).filter isSign).length

private theorem numberLength?_eq (inList : Bool) (cs : List Char) :
    numberLength? inList cs = (mantissaLength? inList (cs.drop (signLength cs))).map fun n =>
      signLength cs + n + exponentLength (cs.drop (signLength cs + n)) := rfl

private theorem exists_sign (cs : List Char) :
    ∃ sign rest, cs = sign ++ rest ∧ IsOptionalSign sign ∧ signLength cs = sign.length := by
  cases cs with
  | nil => exact ⟨[], [], rfl, .inl rfl, rfl⟩
  | cons c cs =>
    cases hc : isSign c with
    | false => exact ⟨[], c :: cs, rfl, .inl rfl, by simp [signLength, hc]⟩
    | true =>
      have hsign : c = '+' ∨ c = '-' := by simpa [isSign] using hc
      exact ⟨[c], cs, rfl, .inr (by simpa using hsign), by simp [signLength, hc]⟩

/-- A sign in front of what is no sign is taken off alone. -/
private theorem signLength_append {sign : List Char} (hsign : IsOptionalSign sign)
    (hrest : ∀ c ∈ rest.head?, isSign c = false) : signLength (sign ++ rest) = sign.length := by
  rcases hsign with rfl | rfl | rfl
  · cases rest with
    | nil => rfl
    | cons c rest => simp [signLength, hrest c rfl]
  · rfl
  · rfl

private theorem isSign_of_isDigit (h : isDigit c = true) : isSign c = false := by
  have hplus : isDigit '+' = false := by decide
  have hminus : isDigit '-' = false := by decide
  rw [isSign, Bool.or_eq_false_iff, beq_eq_false_iff_ne, beq_eq_false_iff_ne]
  constructor <;> rintro rfl <;> simp_all

private theorem leadingDigits_append (hds : ∀ c ∈ ds, isDigit c = true) (rest : List Char) :
    leadingDigits (ds ++ rest) = ds.length + leadingDigits rest := by
  rw [leadingDigits, List.takeWhile_append_of_pos hds, List.length_append, leadingDigits]

private theorem exists_digits (cs : List Char) (h : 0 < leadingDigits cs) :
    ∃ ds rest, cs = ds ++ rest ∧ IsDigits ds ∧ leadingDigits cs = ds.length :=
  ⟨cs.takeWhile isDigit, cs.dropWhile isDigit, List.takeWhile_append_dropWhile.symm,
    ⟨List.ne_nil_of_length_pos h, fun _ hc => List.mem_takeWhile_imp hc⟩, rfl⟩

/-- Groups that end with a digit are taken off together with those that follow. -/
private theorem groupsLength_append {groups : List Char}
    (hgroups : ∀ c ∈ groups, isGroupChar inList c = true) {last : Char}
    (hlast : isDigit last = true) (rest : List Char) :
    groupsLength inList (groups ++ [last] ++ rest)
      = (groups ++ [last]).length + groupsLength inList rest := by
  have hall : ∀ c ∈ groups ++ [last], isGroupChar inList c = true := by
    intro c hc
    rcases List.mem_append.mp hc with hc | hc
    · exact hgroups c hc
    · rw [List.mem_singleton.mp hc]
      simp [isGroupChar, hlast]
  rw [groupsLength, groupsLength, List.takeWhile_append_of_pos hall, List.reverse_append,
    List.dropWhile_append]
  split_ifs with hempty
  · simp [List.isEmpty_iff.mp hempty, hlast]
  · simp [Nat.add_comm]

/-- Nothing is taken off where no digit and no separator of digits stands. -/
private theorem groupsLength_eq_zero (h : ∀ c ∈ rest.head?, isGroupChar inList c = false) :
    groupsLength inList rest = 0 := by
  cases rest with
  | nil => rfl
  | cons c rest => simp [groupsLength, h c rfl]

private theorem leadingDigits_eq_zero (h : ∀ c ∈ rest.head?, isGroupChar inList c = false) :
    leadingDigits rest = 0 := by
  cases rest with
  | nil => rfl
  | cons c rest =>
    have hc : isDigit c = false := by
      have := h c rfl
      simp only [isGroupChar, Bool.or_eq_false_iff] at this
      exact this.1.1.1.1
    simp [leadingDigits, hc]

/-- Behind a digit, what is left of the longest run when its end is cut back to a digit is taken
off. -/
private theorem exists_groups (hc : isDigit c = true) (cs : List Char) :
    ∃ groups tail, c :: cs = c :: groups ++ tail ∧ IsMantissa (c :: groups) ∧
      (∀ a ∈ c :: groups, isGroupChar inList a = true) ∧
      groupsLength inList (c :: cs) = (c :: groups).length := by
  set run := (c :: cs).takeWhile (isGroupChar inList) with hrun
  have hlen : groupsLength inList (c :: cs) = (run.rdropWhile fun a => !isDigit a).length := by
    rw [groupsLength, List.rdropWhile, List.length_reverse]
  have hgroup : ∀ a ∈ run.rdropWhile (fun a => !isDigit a), isGroupChar inList a = true :=
    fun a ha => List.mem_takeWhile_imp ((List.rdropWhile_prefix _ _).mem ha)
  obtain ⟨tail, htail⟩ := (List.rdropWhile_prefix (fun a => !isDigit a) run).trans
    (List.takeWhile_prefix (l := c :: cs) (isGroupChar inList))
  have hlast := List.rdropWhile_last_not (fun a => !isDigit a) run
  have hne : run.rdropWhile (fun a => !isDigit a) ≠ [] := by
    have hcrun : c ∈ run := by simp [hrun, isGroupChar, hc]
    rw [ne_eq, List.rdropWhile_eq_nil_iff]
    intro hall
    simpa [hc] using hall c hcrun
  generalize run.rdropWhile (fun a => !isDigit a) = groups at hlen hgroup htail hlast hne
  obtain ⟨first, groups, rfl⟩ := List.exists_cons_of_ne_nil hne
  obtain rfl : first = c := (List.cons.inj htail).1
  refine ⟨groups, tail, htail.symm, ?_, hgroup, hlen⟩
  rcases List.eq_nil_or_concat' groups with rfl | ⟨inner, last, rfl⟩
  · exact .digit hc
  · refine .groups hc (fun a ha => (isGroupChar_iff.mp (hgroup a (by simp [ha]))).1) ?_
    simpa using hlast hne

private theorem exists_mantissa (h : mantissaLength? inList cs = some n) :
    ∃ mantissa rest, cs = mantissa ++ rest ∧ IsMantissa mantissa ∧
      (',' ∈ mantissa → inList = false) ∧ n = mantissa.length := by
  have hcomma : isDigit ',' = false := by decide
  cases cs with
  | nil => simp [mantissaLength?] at h
  | cons c cs =>
    rw [mantissaLength?] at h
    split_ifs at h with hc hpoint
    · obtain ⟨groups, tail, htext, hmantissa, hgroup, hlen⟩ := exists_groups hc cs
      exact ⟨c :: groups, tail, htext, hmantissa,
        fun ha => (isGroupChar_iff.mp (hgroup _ ha)).2 rfl, by rw [← Option.some.inj h, hlen]⟩
    · obtain ⟨hdot, hpos⟩ := Bool.and_eq_true_iff.mp hpoint
      obtain rfl := beq_iff_eq.mp hdot
      obtain ⟨ds, rest, rfl, hds, hlen⟩ := exists_digits cs (by simpa using hpos)
      refine ⟨'.' :: ds, rest, rfl, .point hds, fun ha => ?_, ?_⟩
      · rcases List.mem_cons.mp ha with ha | ha
        · exact absurd ha (by decide)
        · exact absurd (hds.2 _ ha) (by simp [hcomma])
      · rw [← Option.some.inj h, hlen, List.length_cons, Nat.add_comm]

/-- A mantissa is taken off together with the digits and separators that follow it. -/
private theorem mantissaLength?_append {mantissa : List Char} (h : IsMantissa mantissa)
    (hcomma : ',' ∈ mantissa → inList = false) (rest : List Char) :
    ∃ k, mantissaLength? inList (mantissa ++ rest) = some (mantissa.length + k) ∧
      ((∀ c ∈ rest.head?, isGroupChar inList c = false) → k = 0) := by
  have hpoint : isDigit '.' = false := by decide
  cases h with
  | @digit c hc =>
    refine ⟨groupsLength inList rest, ?_, groupsLength_eq_zero⟩
    have hnil : ∀ c ∈ ([] : List Char), isGroupChar inList c = true := by simp
    have happend := groupsLength_append hnil hc rest
    simpa [mantissaLength?, hc] using happend
  | @groups first last inner hfirst hinner hlast =>
    refine ⟨groupsLength inList rest, ?_, groupsLength_eq_zero⟩
    have hall : ∀ c ∈ first :: inner, isGroupChar inList c = true := by
      intro c hc
      rcases List.mem_cons.mp hc with rfl | hmem
      · simp [isGroupChar, hfirst]
      · refine isGroupChar_iff.mpr ⟨hinner c hmem, ?_⟩
        rintro rfl
        exact hcomma (by simp [hmem])
    have happend := groupsLength_append hall hlast rest
    simpa [mantissaLength?, hfirst] using happend
  | @point ds hds =>
    refine ⟨leadingDigits rest, ?_, leadingDigits_eq_zero⟩
    have hpos : 0 < ds.length := List.length_pos_iff.mpr hds.1
    simp only [List.cons_append, mantissaLength?, hpoint, leadingDigits_append hds.2,
      beq_self_eq_true, Bool.true_and, Bool.false_eq_true, if_false, decide_eq_true_eq,
      List.length_cons]
    rw [if_pos (by omega)]
    congr 1
    omega

private theorem exists_exponent (cs : List Char) :
    ∃ exponent rest, cs = exponent ++ rest ∧ IsExponent exponent ∧ ',' ∉ exponent ∧
      exponentLength cs = exponent.length := by
  have hcomma : isDigit ',' = false := by decide
  cases cs with
  | nil => exact ⟨[], [], rfl, .none, by simp, rfl⟩
  | cons e cs =>
    rw [exponentLength]
    split_ifs with he
    · obtain ⟨sign, rest, rfl, hsign, hlen⟩ := exists_sign cs
      rw [signLength] at hlen
      simp only [hlen, List.drop_left]
      split_ifs with hpos
      · obtain ⟨ds, rest, rfl, hds, hlen'⟩ := exists_digits rest hpos
        have he' : e = 'e' ∨ e = 'E' := by simpa using he
        refine ⟨e :: (sign ++ ds), rest, by simp, .some he' hsign hds, fun ha => ?_, ?_⟩
        · rcases List.mem_cons.mp ha with ha | ha
          · rcases he' with rfl | rfl <;> exact absurd ha (by decide)
          · rcases List.mem_append.mp ha with ha | ha
            · rcases hsign with rfl | rfl | rfl <;> simp at ha
            · exact absurd (hds.2 _ ha) (by simp [hcomma])
        · simp only [hlen', List.length_cons, List.length_append]
          omega
      · exact ⟨[], _, rfl, .none, by simp, rfl⟩
    · exact ⟨[], _, rfl, .none, by simp, rfl⟩

private theorem length_le_exponentLength {exponent : List Char} (h : IsExponent exponent)
    (rest : List Char) : exponent.length ≤ exponentLength (exponent ++ rest) := by
  cases h with
  | none => simp
  | @some e sign ds he hsign hds =>
    have hhead : ∀ c ∈ (ds ++ rest).head?, isSign c = false := by
      obtain ⟨d, ds, rfl⟩ := List.exists_cons_of_ne_nil hds.1
      rintro c hc
      obtain rfl := Option.some.inj hc
      exact isSign_of_isDigit (hds.2 _ List.mem_cons_self)
    have hlen := signLength_append hsign hhead
    have hpos : 0 < ds.length := List.length_pos_iff.mpr hds.1
    have he' : (e == 'e' || e == 'E') = true := by simpa using he
    rw [signLength] at hlen
    simp only [List.cons_append, List.append_assoc, exponentLength, he', hlen, List.drop_left,
      leadingDigits_append hds.2, if_true, List.length_cons, List.length_append]
    rw [if_pos (by omega)]
    omega

/-- What is read as a number is one. -/
private theorem isNumber_of_numberLength? (h : numberLength? inList cs = some n) :
    ∃ number rest, cs = number ++ rest ∧ IsNumber number ∧ (',' ∈ number → inList = false) ∧
      n = number.length := by
  obtain ⟨sign, rest, rfl, hsign, hlen⟩ := exists_sign cs
  rw [numberLength?_eq, hlen, List.drop_left] at h
  obtain ⟨m, hm, rfl⟩ := Option.map_eq_some_iff.mp h
  obtain ⟨mantissa, rest, rfl, hmantissa, hcomma, rfl⟩ := exists_mantissa hm
  obtain ⟨exponent, rest, rfl, hexponent, hcomma', hlen'⟩ := exists_exponent rest
  refine ⟨sign ++ mantissa ++ exponent, rest, by simp, .mk hsign hmantissa hexponent,
    fun ha => ?_, ?_⟩
  · rcases List.mem_append.mp ha with ha | ha
    · rcases List.mem_append.mp ha with ha | ha
      · rcases hsign with rfl | rfl | rfl <;> simp at ha
      · exact hcomma ha
    · exact absurd ha hcomma'
  · rw [← List.length_append, ← List.append_assoc, List.drop_left, hlen', ← List.length_append]

/-- Where a text starts with a number, one is read that is at least as long. -/
private theorem numberLength?_append {number : List Char} (h : IsNumber number)
    (hcomma : ',' ∈ number → inList = false) (rest : List Char) :
    ∃ n, numberLength? inList (number ++ rest) = some n ∧ number.length ≤ n := by
  obtain ⟨hsign, hmantissa, hexponent⟩ := h
  rename_i sign mantissa exponent
  have hhead : ∀ c ∈ (mantissa ++ (exponent ++ rest)).head?, isSign c = false := by
    cases hmantissa with
    | digit hc => exact fun _ h => Option.some.inj h ▸ isSign_of_isDigit hc
    | groups hc => exact fun _ h => Option.some.inj h ▸ isSign_of_isDigit hc
    | point => exact fun _ h => Option.some.inj h ▸ by decide
  obtain ⟨k, hk, hstop⟩ := mantissaLength?_append hmantissa
    (fun ha => hcomma (by simp [ha])) (exponent ++ rest)
  rw [List.append_assoc, List.append_assoc, numberLength?_eq, signLength_append hsign hhead,
    List.drop_left, hk]
  refine ⟨_, rfl, ?_⟩
  cases hexponent with
  | none => simp only [List.append_nil, List.length_append]; omega
  | @some e sign' ds he hsign' hds =>
    -- the letter of the exponent ends the mantissa
    obtain rfl : k = 0 := hstop fun c hc => by
      obtain rfl : e = c := Option.some.inj hc
      rcases he with rfl | rfl <;> cases inList <;> decide
    have hle := length_le_exponentLength (.some he hsign' hds) rest
    dsimp only
    rw [Nat.add_zero, ← List.length_append, ← List.append_assoc, List.drop_left,
      @List.length_append _ (sign ++ mantissa)]
    omega

end Numbers

/-! ### Reading -/

section Reading

variable {inList : Bool} {lexeme : List Char} {l : Lexeme}

/-- Whether a character starts no punctuation mark, string or pattern. -/
private def IsBare (c : Char) : Prop :=
  punctuation? c = none ∧ (c == '\x22' || c == '\x27') = false ∧ (c == '/') = false

private instance : DecidablePred IsBare := fun c =>
  inferInstanceAs (Decidable (punctuation? c = none ∧ (c == '\x22' || c == '\x27') = false ∧
    (c == '/') = false))

private theorem read_eq_of_isBare (h : IsBare c) (cs : List Char) :
    read inList c cs =
      match numberLength? inList (c :: cs) with
      | some n => .ok (asWritten .number (c :: cs) n)
      | none =>
        match operatorLength? (c :: cs) with
        | some n => .ok (asWritten .operator (c :: cs) n)
        | none =>
          if isWordStart c then
            .ok (asWritten .word (c :: cs) (1 + (cs.takeWhile isWordChar).length))
          else .error (.unexpected c) := by
  obtain ⟨hmark, hquote, hslash⟩ := h
  rw [read, hmark]
  simp only [hquote, hslash]
  rfl

private theorem isBare_of_isNumber (h : IsNumber (c :: cs)) : IsBare c := by
  rcases h.first with hc | hc
  · have hne : ∀ b, isDigit b = false → c ≠ b := fun b hb hcb => by simp [hcb, hb] at hc
    have hall : ∀ b ∈ [':', '[', ']', ',', '\x22', '\x27', '/'], c ≠ b :=
      fun b hb => hne b (forall_of_all (p := fun a => isDigit a = false) (by decide) b hb)
    simp only [List.mem_cons, List.not_mem_nil, or_false, forall_eq_or_imp, forall_eq] at hall
    simp [IsBare, punctuation?, hall]
  · have hall : ∀ b ∈ ['+', '-', '.'], IsBare b := forall_of_all (by decide)
    exact hall c hc

/-- What starts an operator or a word starts no number. -/
private theorem numberLength?_eq_none (hdigit : isDigit c = false) (hsign : isSign c = false)
    (hpoint : (c == '.') = false) (cs : List Char) : numberLength? inList (c :: cs) = none := by
  rw [numberLength?_eq]
  simp [signLength, hsign, mantissaLength?, hdigit, hpoint]

private theorem read_operatorStart (hc : c ∈ ['=', '!', '>', '<']) (cs : List Char) :
    read inList c cs = match operatorLength? (c :: cs) with
      | some n => .ok (asWritten .operator (c :: cs) n)
      | none => .error (.unexpected c) := by
  have hall : ∀ a ∈ ['=', '!', '>', '<'], IsBare a ∧ isDigit a = false ∧ isSign a = false ∧
      (a == '.') = false ∧ isWordStart a = false := forall_of_all (by decide)
  obtain ⟨hbare, hdigit, hsign, hpoint, hword⟩ := hall c hc
  simp only [read_eq_of_isBare hbare, numberLength?_eq_none hdigit hsign hpoint, hword]
  rfl

/-- An operator is read as far as it goes. -/
private theorem operatorLength?_append (h : cs ∈ operators) (rest : List Char) :
    ∃ n, operatorLength? (cs ++ rest) = some n ∧ cs.length ≤ n := by
  simp only [operators, List.map_cons, List.map_nil, List.mem_cons, List.not_mem_nil, or_false] at h
  have hsingle : ∀ a ∈ ['>', '<'], ∃ n, operatorLength? (a :: rest) = some n ∧ 1 ≤ n := by
    intro a ha
    simp only [List.mem_cons, List.not_mem_nil, or_false] at ha
    rcases ha with rfl | rfl <;> unfold operatorLength? <;> split <;> simp_all
  rcases h with rfl | rfl | rfl | rfl | rfl | rfl
  · exact ⟨2, rfl, le_rfl⟩
  · exact ⟨2, rfl, le_rfl⟩
  · exact ⟨2, rfl, le_rfl⟩
  · exact ⟨2, rfl, le_rfl⟩
  · exact hsingle '>' (by decide)
  · exact hsingle '<' (by decide)

private theorem exists_operator {n : Nat} (h : operatorLength? cs = some n) :
    ∃ operator rest, cs = operator ++ rest ∧ operator ∈ operators ∧ n = operator.length := by
  unfold operatorLength? at h
  split at h
  · exact ⟨['=', '='], _, rfl, by decide, (Option.some.inj h).symm⟩
  · exact ⟨['!', '='], _, rfl, by decide, (Option.some.inj h).symm⟩
  · exact ⟨['>', '='], _, rfl, by decide, (Option.some.inj h).symm⟩
  · exact ⟨['<', '='], _, rfl, by decide, (Option.some.inj h).symm⟩
  · exact ⟨['>'], _, rfl, by decide, (Option.some.inj h).symm⟩
  · exact ⟨['<'], _, rfl, by decide, (Option.some.inj h).symm⟩
  · simp at h

theorem isDigit_of_isWordStart (h : isWordStart c = true) : isDigit c = false := by
  obtain ⟨hlo, hhi⟩ := isAscii_of_isWordStart h
  simp [isDigit, digitValue?, hhi]
  omega

/-- A word is read as far as it goes. -/
private theorem read_wordStart (h : isWordStart c = true) (cs : List Char) :
    read inList c cs
      = .ok (asWritten .word (c :: cs) (1 + (cs.takeWhile isWordChar).length)) := by
  have hne : ∀ a, isWordStart a = false → c ≠ a := fun a ha hca => by simp [hca, ha] at h
  have hall : ∀ a ∈ [':', '[', ']', ',', '\x22', '\x27', '/', '+', '-', '.', '=', '!', '>', '<'],
      c ≠ a :=
    fun a ha => hne a (forall_of_all (p := fun b => isWordStart b = false) (by decide) a ha)
  simp only [List.mem_cons, List.not_mem_nil, or_false, forall_eq_or_imp, forall_eq] at hall
  have hbare : IsBare c := by simp [IsBare, punctuation?, hall]
  have hoperator : operatorLength? (c :: cs) = none := by
    unfold operatorLength?
    split <;> simp_all
  simp only [read_eq_of_isBare hbare, hoperator, h, if_true,
    numberLength?_eq_none (isDigit_of_isWordStart h) (by simp [isSign, hall]) (by simp [hall])]

private theorem mem_marks_iff : (c, kind) ∈ marks ↔ punctuation? c = some kind := by
  constructor
  · have hall : ∀ m ∈ marks, punctuation? m.1 = some m.2 := by decide
    exact hall (c, kind)
  · intro h
    unfold punctuation? at h
    split_ifs at h with hc hc hc hc <;> rw [beq_iff_eq.mp hc, ← Option.some.inj h] <;> decide

/-- A lexeme that is its own value has the length it is given. -/
private theorem length_asWritten (htext : cs = lexeme ++ rest) (hne : lexeme ≠ [])
    (h : asWritten kind cs lexeme.length = l) :
    l.kind = kind ∧ l.value = lexeme ∧ lexeme.length = l.more + 1 := by
  have hpos := List.length_pos_iff.mpr hne
  subst h htext
  exact ⟨rfl, List.take_left, by simp only [asWritten]; omega⟩

/-- **What is read is a lexeme** at the start of the text. -/
theorem written_of_read (hclosed : inList = false → closed) (h : read inList c cs = .ok l) :
    ∃ lexeme rest, c :: cs = lexeme ++ rest ∧ lexeme.length = l.more + 1 ∧
      Written closed l.kind l.value lexeme := by
  -- the cases are those of the reader, in its order
  rw [read] at h
  cases hmark : punctuation? c with
  | some kind =>
    rw [hmark] at h
    obtain rfl := Except.ok.inj h
    exact ⟨[c], cs, rfl, rfl, .punctuation (mem_marks_iff.mpr hmark)⟩
  | none =>
    simp only [hmark] at h
    by_cases hquote : (c == '\x22' || c == '\x27') = true
    · rw [if_pos hquote] at h
      have hquote : c = '\x22' ∨ c = '\x27' := by simpa using hquote
      split at h
      · rename_i v n hread
        obtain rfl := Except.ok.inj h
        obtain ⟨body, rest, hbody, rfl, rfl, rfl⟩ :=
          (stringBody?_eq_some_iff (by rcases hquote with rfl | rfl <;> decide)).mp hread
        exact ⟨c :: (body ++ [c]), rest, by simp, by simp, .string hquote hbody⟩
      · simp at h
    rw [if_neg hquote] at h
    by_cases hslash : (c == '/') = true
    · rw [if_pos hslash] at h
      obtain rfl := beq_iff_eq.mp hslash
      split at h
      · rename_i b body hread
        obtain rfl := Except.ok.inj h
        obtain ⟨hbody, rest, rfl⟩ := patternBody?_eq_some_iff.mp hread
        refine ⟨'/' :: (b :: body ++ ['/']), rest, by simp, by simp, ?_⟩
        rw [replaceAll_eq_unescapeSlashes hbody]
        exact .pattern (by simp) hbody
      · simp at h
    rw [if_neg hslash] at h
    split at h
    · rename_i n hnumber
      obtain ⟨number, rest, htext, hw, hcomma, rfl⟩ := isNumber_of_numberLength? hnumber
      obtain ⟨hkind, hvalue, hlen⟩ := length_asWritten htext hw.ne_nil (Except.ok.inj h)
      rw [hkind, hvalue]
      exact ⟨number, rest, htext, hlen, .number hw fun ha => hclosed (hcomma ha)⟩
    split at h
    · rename_i n hoperator
      obtain ⟨operator, rest, htext, hw, rfl⟩ := exists_operator hoperator
      obtain ⟨hkind, hvalue, hlen⟩ :=
        length_asWritten htext (ne_nil_of_mem_operators hw) (Except.ok.inj h)
      rw [hkind, hvalue]
      exact ⟨operator, rest, htext, hlen, .operator hw⟩
    split at h
    · rename_i hword
      have htext : c :: cs = (c :: cs.takeWhile isWordChar) ++ cs.dropWhile isWordChar := by
        rw [List.cons_append, List.takeWhile_append_dropWhile]
      rw [Nat.add_comm, ← List.length_cons (a := c)] at h
      obtain ⟨hkind, hvalue, hlen⟩ := length_asWritten htext (by simp) (Except.ok.inj h)
      rw [hkind, hvalue]
      exact ⟨_, _, htext, hlen, .word (.mk hword fun _ ha => List.mem_takeWhile_imp ha)⟩
    · simp at h

/-- A lexeme that is its own value is read when its length is at most the one that is taken. -/
private theorem exists_asWritten (htext : c :: cs = lexeme ++ rest) {n : Nat}
    (hlen : lexeme.length ≤ n) (hne : lexeme ≠ [])
    (hread : read inList c cs = .ok (asWritten kind (c :: cs) n)) :
    ∃ l, read inList c cs = .ok l ∧ l.kind = kind ∧ lexeme.length ≤ l.more + 1 ∧
      (lexeme.length = l.more + 1 → l.value = lexeme) := by
  have hpos := List.length_pos_iff.mpr hne
  refine ⟨_, hread, rfl, by simp only [asWritten]; omega, fun heq => ?_⟩
  obtain rfl : n = lexeme.length := by simp only [asWritten] at heq; omega
  rw [asWritten, htext, List.take_left]

/-- **Where a text starts with a lexeme**, one of the same kind is read that is at least as long; if
it is no longer, it is the same one. -/
theorem read_of_written (hclosed : closed → inList = false) (h : Written closed kind value lexeme)
    (htext : c :: cs = lexeme ++ rest) :
    ∃ l, read inList c cs = .ok l ∧ l.kind = kind ∧ lexeme.length ≤ l.more + 1 ∧
      (lexeme.length = l.more + 1 → l.value = value) := by
  cases h with
  | @punctuation a _ hmark =>
    simp only [List.singleton_append, List.cons.injEq] at htext
    obtain ⟨rfl, rfl⟩ := htext
    refine ⟨⟨kind, [c], 0⟩, ?_, rfl, le_rfl, fun _ => rfl⟩
    rw [read, mem_marks_iff.mp hmark]
  | @string quote body hquote hbody =>
    simp only [List.cons_append, List.cons.injEq] at htext
    obtain ⟨rfl, rfl⟩ := htext
    have hread : stringBody? c (body ++ [c] ++ rest) = some (unescape body, body.length + 1) :=
      (stringBody?_eq_some_iff (by rcases hquote with rfl | rfl <;> decide)).mpr
        ⟨body, rest, hbody, by simp, rfl, rfl⟩
    have hmark : punctuation? c = none := by rcases hquote with rfl | rfl <;> decide
    have hquote : (c == '\x22' || c == '\x27') = true := by simpa using hquote
    refine ⟨⟨.string, unescape body, body.length + 1⟩, ?_, rfl, by simp, fun _ => rfl⟩
    rw [read, hmark]
    simp only [hquote, if_true, hread]
  | @pattern body hne hbody =>
    simp only [List.cons_append, List.cons.injEq] at htext
    obtain ⟨rfl, rfl⟩ := htext
    have hread : patternBody? (body ++ ['/'] ++ rest) = some body :=
      patternBody?_eq_some_iff.mpr ⟨hbody, rest, by simp⟩
    refine ⟨⟨.pattern, unescapeSlashes body, body.length + 1⟩, ?_, rfl, by simp, fun _ => rfl⟩
    have hmark : punctuation? '/' = none := by decide
    have hquote : ('/' == '\x22' || '/' == '\x27') = false := by decide
    obtain ⟨b, body, rfl⟩ := List.exists_cons_of_ne_nil hne
    rw [read, hmark, ← replaceAll_eq_unescapeSlashes hbody]
    simp only [hquote, beq_self_eq_true, hread, if_true]
    rfl
  | number hw hcomma =>
    obtain ⟨n, hn, hlen⟩ := numberLength?_append hw (fun ha => hclosed (hcomma ha)) rest
    rw [← htext] at hn
    refine exists_asWritten htext hlen hw.ne_nil ?_
    obtain ⟨a, as, rfl⟩ := List.exists_cons_of_ne_nil hw.ne_nil
    obtain ⟨rfl, -⟩ := List.cons.inj htext
    simp only [read_eq_of_isBare (isBare_of_isNumber hw), hn]
  | operator hw =>
    obtain ⟨n, hn, hlen⟩ := operatorLength?_append hw rest
    rw [← htext] at hn
    refine exists_asWritten htext hlen (ne_nil_of_mem_operators hw) ?_
    obtain ⟨a, as, rfl⟩ := List.exists_cons_of_ne_nil (ne_nil_of_mem_operators hw)
    obtain ⟨rfl, -⟩ := List.cons.inj htext
    simp only [read_operatorStart (first_of_mem_operators hw), hn]
  | word hw =>
    obtain ⟨hstart, hall⟩ := hw
    have htext' := htext
    simp only [List.cons_append, List.cons.injEq] at htext'
    obtain ⟨rfl, rfl⟩ := htext'
    refine exists_asWritten htext ?_ (by simp) (read_wordStart hstart _)
    rw [List.takeWhile_append_of_pos hall, List.length_append, List.length_cons]
    omega

/-- More lexemes are allowed where all brackets are closed. -/
theorem Written.mono {closed' : Prop} (h : Written closed kind value lexeme)
    (hclosed : closed → closed') : Written closed' kind value lexeme := by
  cases h with
  | punctuation hmark => exact .punctuation hmark
  | string hquote hbody => exact .string hquote hbody
  | pattern hne hbody => exact .pattern hne hbody
  | number hw hcomma => exact .number hw (hclosed ∘ hcomma)
  | operator hw => exact .operator hw
  | word hw => exact .word hw

/-- **A lexeme has one kind and one value**, wherever it stands. -/
theorem Written.unique {closed' : Prop} {kind' : TokenKind} {value' : List Char}
    (h : Written closed kind value lexeme) (h' : Written closed' kind' value' lexeme) :
    kind' = kind ∧ value' = value := by
  -- what is read where the lexeme is the whole text has the kind and the value of both
  have hread : ∀ {p kind value}, Written p kind value lexeme → ∀ c cs, lexeme = c :: cs →
      ∃ l, read false c cs = .ok l ∧ l.kind = kind ∧ l.value = value := by
    intro p kind value hw c cs hcons
    have hw : Written True kind value lexeme := hw.mono fun _ => trivial
    have htext : c :: cs = lexeme ++ [] := by rw [← hcons, List.append_nil]
    obtain ⟨l, hl, hkind, hle, hvalue⟩ : ∃ l, read false c cs = .ok l ∧ _ :=
      read_of_written (fun _ => rfl) hw htext
    obtain ⟨lexeme', rest, htext, hlen, -⟩ := written_of_read (fun _ => trivial) hl
    rw [← hcons] at htext
    have hge : lexeme'.length ≤ lexeme.length := by simp [htext]
    exact ⟨l, hl, hkind, hvalue (Nat.le_antisymm hle (hlen ▸ hge))⟩
  obtain ⟨c, cs, hcons⟩ := List.exists_cons_of_ne_nil h.ne_nil
  obtain ⟨l, hl, rfl, rfl⟩ := hread h c cs hcons
  obtain ⟨l', hl', rfl, rfl⟩ := hread h' c cs hcons
  obtain rfl := Except.ok.inj (hl.symm.trans hl')
  exact ⟨rfl, rfl⟩

end Reading

end TableRules.Lexeme
