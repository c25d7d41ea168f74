import Mathlib.Data.List.Forall2
import TableRules.Proofs.Number.RealLiterals
import TableRules.RulesText.Phrase

/-!
# What the readers of a line accept

For each reader of words and arguments: which tokens it takes off the front of a line, and what it
makes of them.

* `Keywords` are given words in any letter case (`dropWords?_eq_some_iff`).
* `IsItem` and `IsList` are the grammar of bracketed lists (`readList_eq_ok_iff`).
* `IsWhole` says when a text is a whole number that is not negative (`readCount_eq_ok_iff`). Such a
  number of more than 4300 digits is not read, but is a fault of its own
  (`readCount_of_tooManyDigits`).

**Main result** (`Phrase.readFirst?_eq`): a line that states a phrase is read as that phrase, if the
table has no phrase before it whose words are the first words of the line.
-/

namespace TableRules

open Lexeme Result

variable {s : Settings} {t : Token} {ts ws rest left : List Token} {words : List String}
  {kind : TokenKind} {text what value : String} {ds : List Char}

/-! ### Words -/

/-- A token is a given word, in any letter case. -/
def IsKeyword (word : String) (t : Token) : Prop := t.kind = .word ∧ Text.lowerAscii t.value = word

/-- Tokens are given words, in any letter case. -/
def Keywords (words : List String) (ts : List Token) : Prop := List.Forall₂ IsKeyword words ts

namespace Tokens

theorem isWord_iff {word : String} : isWord t word = true ↔ IsKeyword word t := by
  simp [isWord, IsKeyword]

/-- Words are dropped exactly where they stand. -/
theorem dropWords?_eq_some_iff :
    dropWords? words ts = some rest ↔ ∃ ws, Keywords words ws ∧ ts = ws ++ rest := by
  induction words generalizing ts with
  | nil => simp [dropWords?, Keywords]
  | cons word words ih =>
    cases ts with
    | nil =>
      simp only [dropWords?, reduceCtorEq, false_iff, not_exists, not_and]
      rintro ws hws hnil
      cases hws
      simp at hnil
    | cons t ts =>
      rw [dropWords?]
      constructor
      · intro h
        obtain ⟨hword, h⟩ := Option.ite_none_right_eq_some.mp h
        obtain ⟨ws, hws, rfl⟩ := ih.mp h
        exact ⟨t :: ws, .cons (isWord_iff.mp hword) hws, rfl⟩
      · rintro ⟨ws, hws, htext⟩
        cases hws with
        | @cons _ t' _ ws hword hws =>
          obtain ⟨rfl, rfl⟩ := List.cons.inj htext
          rw [if_pos (isWord_iff.mpr hword)]
          exact ih.mpr ⟨ws, hws, rfl⟩

/-- Words of a line are taken for other words only if those begin them or go on after them. -/
theorem dropWords?_eq_none {other : List String} (hws : Keywords words ws)
    (hrest : ∀ t ∈ rest.head?, t.kind ≠ .word) (hother : ¬ other <+: words) :
    dropWords? other (ws ++ rest) = none := by
  induction hws generalizing other with
  | nil =>
    cases other with
    | nil => exact absurd List.nil_prefix hother
    | cons word other =>
      cases rest with
      | nil => rfl
      | cons t rest =>
        have hword : isWord t word = false :=
          Bool.eq_false_iff.mpr fun h => hrest t rfl (isWord_iff.mp h).1
        rw [List.nil_append, dropWords?, hword, if_neg Bool.false_ne_true]
  | @cons word t words ws hword _ ih =>
    cases other with
    | nil => exact absurd List.nil_prefix hother
    | cons word' other =>
      rw [List.cons_append, dropWords?]
      split_ifs with hword'
      · obtain rfl : word = word' := hword.2.symm.trans (isWord_iff.mp hword').2
        exact ih fun h => hother (List.cons_prefix_cons.mpr ⟨rfl, h⟩)
      · rfl


/-! ### Single tokens -/

/-- A token is accepted exactly if it comes first and has the kind. -/
theorem accept?_eq_some_iff :
    accept? kind ts = some (value, left) ↔
      ∃ t, ts = t :: left ∧ t.kind = kind ∧ t.value = value := by
  cases ts with
  | nil => simp [accept?]
  | cons t ts =>
    simp only [accept?, Option.ite_none_right_eq_some, beq_iff_eq, Option.some.injEq,
      Prod.mk.injEq, List.cons.injEq]
    constructor
    · rintro ⟨hkind, rfl, rfl⟩
      exact ⟨t, ⟨rfl, rfl⟩, hkind, rfl⟩
    · rintro ⟨t, ⟨rfl, rfl⟩, hkind, rfl⟩
      exact ⟨hkind, rfl, rfl⟩

theorem accept?_cons (hkind : t.kind = kind) (ts : List Token) :
    accept? kind (t :: ts) = some (t.value, ts) :=
  accept?_eq_some_iff.mpr ⟨t, rfl, hkind, rfl⟩

theorem accept?_of_ne (hkind : t.kind ≠ kind) (ts : List Token) :
    accept? kind (t :: ts) = none := by
  simp [accept?, hkind]

theorem expect_eq_ok_iff :
    expect kind what ts = .ok (value, left) ↔
      ∃ t, ts = t :: left ∧ t.kind = kind ∧ t.value = value := by
  rw [← accept?_eq_some_iff]
  unfold expect
  cases accept? kind ts <;> simp [missing, refuse]

theorem expectEnd_eq_ok_iff {u : Unit} : expectEnd ts = .ok u ↔ ts = [] := by
  cases ts <;> simp [expectEnd, refuse]

/-! ### Numbers -/

/-- A real is read exactly from a number token whose text is one. -/
theorem readReal_eq_ok_iff {x : Double} :
    readReal s ts = .ok (x, left) ↔
      ∃ t, ts = t :: left ∧ t.kind = .number ∧ parseReal? t.value s = some x := by
  unfold readReal
  cases hexpect : expect .number "a number" ts with
  | error e =>
    simp only [reduceCtorEq, false_iff, not_exists, not_and]
    rintro t rfl hkind
    simp [expect, accept?_cons hkind] at hexpect
  | ok r =>
    obtain ⟨value, rest⟩ := r
    obtain ⟨t, rfl, hkind, rfl⟩ := expect_eq_ok_iff.mp hexpect
    simp only [List.cons.injEq]
    cases hreal : parseReal? t.value s with
    | none =>
      simp only [refuse, reduceCtorEq, false_iff, not_exists, not_and]
      rintro t' ⟨rfl, rfl⟩ -
      simp [hreal]
    | some y =>
      simp only [Except.ok.injEq, Prod.mk.injEq]
      constructor
      · rintro ⟨rfl, rfl⟩
        exact ⟨t, ⟨rfl, rfl⟩, hkind, hreal⟩
      · rintro ⟨t', ⟨rfl, rfl⟩, -, hx⟩
        exact ⟨Option.some.inj (hreal.symm.trans hx), rfl⟩

end Tokens

/-- A number as written, without white space around it and without separators. -/
def ungrouped (s : Settings) (text : String) : List Char :=
  (Text.trimChars text.toList).filter fun c => s.separator.map Separator.char ≠ some c

/-- A text is a whole number that is not negative, with given digits: without separators it is an
optional sign and the digits, and a minus stands before zeros only. -/
def IsWhole (s : Settings) (text : String) (ds : List Char) : Prop :=
  ∃ sign, IsOptionalSign sign ∧ IsDigits ds ∧ ungrouped s text = sign ++ ds ∧
    (sign = ['-'] → Text.digitsValue ds = 0)

/-- A number of more than 4300 digits: without separators it is an optional sign and the digits. -/
def Token.IsExcessiveCount (s : Settings) (t : Token) : Prop :=
  t.kind = .number ∧ ∃ sign ds, IsOptionalSign sign ∧ IsDigits ds ∧
    ungrouped s t.value = sign ++ ds ∧ digitLimit < ds.length

/-- Writing points for decimal marks leaves a text without marks, and one whose mark is a point. -/
theorem map_mark_eq_self {mark : Char} {cs : List Char} (h : mark ∈ cs → mark = '.') :
    (cs.map fun c => if c == mark then '.' else c) = cs := by
  refine (List.map_congr_left fun c hc => ?_).trans (List.map_id cs)
  split_ifs with hmark
  · obtain rfl := beq_iff_eq.mp hmark
    exact (h hc).symm
  · rfl

/-- Normalization takes the separators out of a number and writes a point for its decimal mark. -/
theorem normalizeChars_eq_map (s : Settings) (text : String) :
    normalizeChars s (Text.trimChars text.toList)
      = (ungrouped s text).map fun c => if c == s.decimalMark then '.' else c := by
  have hmarks : ∀ cs : List Char, (if s.decimalMark == '.' then cs else
      cs.map fun c => if c == s.decimalMark then '.' else c)
        = cs.map fun c => if c == s.decimalMark then '.' else c := by
    intro cs
    split_ifs with hpoint
    · exact (map_mark_eq_self fun _ => beq_iff_eq.mp hpoint).symm
    · rfl
  refine (hmarks _).trans (congrArg _ ?_)
  unfold ungrouped
  cases s.separator with
  | none => simp
  | some sep =>
    refine List.filter_congr fun c _ => Bool.eq_iff_iff.mpr ?_
    rw [bne_iff_ne, decide_eq_true_iff, Option.map_some, ne_comm, Option.some_injective _ |>.ne_iff]

/-- The point of a number plays no part in whether it is an integer. -/
private theorem normalizeChars_eq_iff {cs : List Char} (hcomma : ',' ∉ cs) (hpoint : '.' ∉ cs) :
    normalizeChars s (Text.trimChars text.toList) = cs ↔ ungrouped s text = cs := by
  have hmark : s.decimalMark ∉ cs := by
    unfold Settings.decimalMark
    split_ifs
    · exact hcomma
    · exact hpoint
  rw [normalizeChars_eq_map]
  constructor
  · intro h
    have hnone : s.decimalMark ∉ ungrouped s text := fun hmem =>
      hpoint (h ▸ List.mem_map.mpr ⟨_, hmem, if_pos (beq_self_eq_true _)⟩)
    rw [← h]
    exact (map_mark_eq_self fun hmem => absurd hmem hnone).symm
  · rintro rfl
    exact map_mark_eq_self fun hmem => absurd hmem hmark

private theorem notMem_sign_append {sign : List Char} (hsign : IsOptionalSign sign)
    (hds : IsDigits ds) {c : Char} (hc : c = ',' ∨ c = '.') : c ∉ sign ++ ds := by
  rw [List.mem_append, not_or]
  constructor
  · rcases hsign with rfl | rfl | rfl <;> rcases hc with rfl | rfl <;> decide
  · intro hmem
    have := hds.2 c hmem
    rcases hc with rfl | rfl <;> exact absurd this (by decide)

/-- A signed whole number is read from its sign and its digits. -/
private theorem readInteger?_normalizeChars_iff {negative : Bool} :
    readInteger? (normalizeChars s (Text.trimChars text.toList)) = some (negative, ds) ↔
      ∃ sign, IsOptionalSign sign ∧ IsDigits ds ∧ ungrouped s text = sign ++ ds ∧
        negative = decide (sign = ['-']) := by
  rw [readInteger?_eq_some_iff]
  refine exists_congr fun sign => and_congr_right fun hsign => and_congr_right fun hds => ?_
  rw [normalizeChars_eq_iff (notMem_sign_append hsign hds (.inl rfl))
    (notMem_sign_append hsign hds (.inr rfl))]

namespace Tokens

/-- What is made of a number token where a count is read. -/
private theorem readCount_cons (hkind : t.kind = .number) :
    readCount s (t :: left) =
      match readInteger? (normalizeChars s (Text.trimChars t.value.toList)) with
      | none => refuse (.notWhole t.value)
      | some (negative, ds) =>
        if digitLimit < ds.length then .error .tooManyDigits
        else if negative = true ∧ Text.digitsValue ds ≠ 0 then refuse (.notWhole t.value)
        else .ok (Text.digitsValue ds, left) := by
  simp only [readCount, expect, accept?_cons hkind, parseNumber, readNumber]
  cases readInteger? (normalizeChars s (Text.trimChars t.value.toList)) with
  | none => rfl
  | some r =>
    obtain ⟨negative, ds⟩ := r
    by_cases hlimit : digitLimit < ds.length
    · simp only [if_pos hlimit]
      rfl
    · simp only [if_neg hlimit, Except.map, Option.map_some]
      cases negative with
      | false => simp
      | true =>
        by_cases hzero : Text.digitsValue ds = 0
        · simp [hzero]
        · simp [hzero]

private theorem isWhole_iff :
    IsWhole s text ds ↔
      ∃ negative,
        readInteger? (normalizeChars s (Text.trimChars text.toList)) = some (negative, ds) ∧
          ¬ (negative = true ∧ Text.digitsValue ds ≠ 0) := by
  simp only [readInteger?_normalizeChars_iff, IsWhole]
  constructor
  · rintro ⟨sign, hsign, hds, htext, hzero⟩
    exact ⟨_, ⟨sign, hsign, hds, htext, rfl⟩, by simpa using hzero⟩
  · rintro ⟨_, ⟨sign, hsign, hds, htext, rfl⟩, hzero⟩
    exact ⟨sign, hsign, hds, htext, by simpa using hzero⟩

/-- A count is read exactly from a number token whose text is a whole number that is not negative
and has at most 4300 digits. -/
theorem readCount_eq_ok_iff {n : Nat} :
    readCount s ts = .ok (n, left) ↔
      ∃ t ds, ts = t :: left ∧ t.kind = .number ∧ IsWhole s t.value ds ∧ ds.length ≤ digitLimit ∧
        n = Text.digitsValue ds := by
  constructor
  · intro h
    obtain ⟨t, left', rfl, hkind⟩ : ∃ t left', ts = t :: left' ∧ t.kind = .number := by
      unfold readCount at h
      split at h
      · simp at h
      · rename_i hexpect
        obtain ⟨t, rfl, hkind, -⟩ := expect_eq_ok_iff.mp hexpect
        exact ⟨t, _, rfl, hkind⟩
    rw [readCount_cons hkind] at h
    split at h
    · simp [refuse] at h
    · rename_i negative ds hread
      split_ifs at h with hlimit hnegative
      · simp [refuse] at h
      · obtain ⟨rfl, rfl⟩ := Prod.mk.inj (Except.ok.inj h)
        exact ⟨t, ds, rfl, hkind, isWhole_iff.mpr ⟨negative, hread, hnegative⟩,
          Nat.le_of_not_lt hlimit, rfl⟩
  · rintro ⟨t, ds, rfl, hkind, hwhole, hlimit, rfl⟩
    obtain ⟨negative, hread, hnegative⟩ := isWhole_iff.mp hwhole
    simp only [readCount_cons hkind, hread, if_neg (Nat.not_lt.mpr hlimit), if_neg hnegative]

/-- A count of too many digits is a fault of its own. -/
theorem readCount_of_isExcessiveCount (h : t.IsExcessiveCount s) :
    readCount s (t :: left) = .error .tooManyDigits := by
  obtain ⟨hkind, sign, ds, hsign, hds, htext, hlimit⟩ := h
  have hread := readInteger?_normalizeChars_iff.mpr ⟨sign, hsign, hds, htext, rfl⟩
  simp only [readCount_cons hkind, hread, if_pos hlimit]

/-- A whole number of too many digits is a fault of its own. -/
theorem readCount_of_tooManyDigits (hkind : t.kind = .number) (hwhole : IsWhole s t.value ds)
    (hlimit : digitLimit < ds.length) : readCount s (t :: left) = .error .tooManyDigits := by
  obtain ⟨sign, hsign, hds, htext, -⟩ := hwhole
  exact readCount_of_isExcessiveCount ⟨hkind, sign, ds, hsign, hds, htext, hlimit⟩

/-- A count is refused, or has more than 4300 digits. -/
theorem readCount_eq_error {e : LineFault} (h : readCount s ts = .error e) :
    (∃ cause, e = .malformed cause) ∨
      e = .tooManyDigits ∧ ∃ t left, ts = t :: left ∧ t.IsExcessiveCount s := by
  cases hexpect : expect .number "a whole number" ts with
  | error e' =>
    simp only [readCount, hexpect, Except.error.injEq] at h
    subst h
    unfold expect at hexpect
    split at hexpect
    · simp at hexpect
    · exact .inl ⟨_, (Except.error.inj hexpect).symm⟩
  | ok r =>
    obtain ⟨value, left⟩ := r
    obtain ⟨t, rfl, hkind, rfl⟩ := expect_eq_ok_iff.mp hexpect
    rw [readCount_cons hkind] at h
    split at h
    · exact .inl ⟨_, (Except.error.inj h).symm⟩
    · rename_i negative ds hread
      split_ifs at h with hlimit hnegative
      · obtain ⟨sign, hsign, hds, htext, -⟩ := readInteger?_normalizeChars_iff.mp hread
        exact .inr ⟨(Except.error.inj h).symm, t, left, rfl, hkind, sign, ds, hsign, hds, htext,
          hlimit⟩
      · exact .inl ⟨_, (Except.error.inj h).symm⟩

end Tokens

/-- The digits of a whole number are those of its text. -/
theorem IsWhole.unique {ds' : List Char} (h : IsWhole s text ds) (h' : IsWhole s text ds') :
    ds' = ds := by
  obtain ⟨negative, hread, -⟩ := Tokens.isWhole_iff.mp h
  obtain ⟨negative', hread', -⟩ := Tokens.isWhole_iff.mp h'
  exact (Prod.mk.inj (Option.some.inj (hread'.symm.trans hread))).2

/-! ### Lists -/

/-- A token is a member of a list: a string, or a finite number under the settings in force. -/
inductive IsItem (s : Settings) : SetItem → Token → Prop
  | text {t : Token} (hkind : t.kind = .string) : IsItem s (.text (.text t.value)) t
  | number {t : Token} {x : Double} (hkind : t.kind = .number)
      (hreal : parseReal? t.value s = some x) : IsItem s (.number (.real x)) t

/-- Tokens are members of a list with commas between them, up to the closing bracket. -/
inductive IsTail (s : Settings) : List SetItem → List Token → Prop
  | last {item : SetItem} {t close : Token} (h : IsItem s item t)
      (hclose : close.kind = .closeBracket) : IsTail s [item] [t, close]
  | more {item : SetItem} {items : List SetItem} {t comma : Token} {ts : List Token}
      (h : IsItem s item t) (hcomma : comma.kind = .comma) (htail : IsTail s items ts) :
      IsTail s (item :: items) (t :: comma :: ts)

/-- Tokens are a bracketed list; it may be empty. -/
inductive IsList (s : Settings) : List SetItem → List Token → Prop
  | empty {opening close : Token} (hopen : opening.kind = .openBracket)
      (hclose : close.kind = .closeBracket) : IsList s [] [opening, close]
  | items {items : List SetItem} {opening : Token} {ts : List Token}
      (hopen : opening.kind = .openBracket) (htail : IsTail s items ts) :
      IsList s items (opening :: ts)

variable {item : SetItem} {items : List SetItem}

theorem IsItem.kind_ne (h : IsItem s item t) (hkind : kind ≠ .string ∧ kind ≠ .number) :
    t.kind ≠ kind := by
  cases h with
  | text ht => exact ht ▸ hkind.1.symm
  | number ht => exact ht ▸ hkind.2.symm

namespace Tokens

theorem readItem_eq_ok_iff :
    readItem s ts = .ok (item, left) ↔ ∃ t, ts = t :: left ∧ IsItem s item t := by
  unfold readItem
  cases haccept : accept? .string ts with
  | some r =>
    obtain ⟨value, rest⟩ := r
    obtain ⟨t, rfl, hkind, rfl⟩ := accept?_eq_some_iff.mp haccept
    simp only [Except.ok.injEq, Prod.mk.injEq, List.cons.injEq]
    constructor
    · rintro ⟨rfl, rfl⟩
      exact ⟨t, ⟨rfl, rfl⟩, .text hkind⟩
    · rintro ⟨t', ⟨rfl, rfl⟩, hitem⟩
      cases hitem with
      | text => exact ⟨rfl, rfl⟩
      | number hkind' => exact absurd (hkind.symm.trans hkind') (by decide)
  | none =>
    simp only [map_eq_ok_iff, Prod.exists, Prod.mk.injEq, readReal_eq_ok_iff]
    constructor
    · rintro ⟨x, _, ⟨t, rfl, hkind, hreal⟩, rfl, rfl⟩
      exact ⟨t, rfl, .number hkind hreal⟩
    · rintro ⟨t, rfl, hitem⟩
      cases hitem with
      | text hkind => simp [accept?_cons hkind] at haccept
      | @number t x hkind hreal => exact ⟨x, left, ⟨t, rfl, hkind, hreal⟩, rfl, rfl⟩

/-- What is read up to the closing bracket is members with commas between them. -/
private theorem isTail_of_readItems {fuel : Nat} (h : readItems s fuel ts = .ok (items, left)) :
    ∃ tail, ts = tail ++ left ∧ IsTail s items tail := by
  induction fuel generalizing ts items with
  | zero => simp [readItems, missing, refuse] at h
  | succ fuel ih =>
    rw [readItems] at h
    cases hitem : readItem s ts with
    | error e => simp [hitem] at h
    | ok r =>
      obtain ⟨item, rest⟩ := r
      obtain ⟨t, rfl, ht⟩ := readItem_eq_ok_iff.mp hitem
      cases hclose : accept? .closeBracket rest with
      | some r =>
        obtain ⟨value, after⟩ := r
        obtain ⟨close, rfl, hkind, -⟩ := accept?_eq_some_iff.mp hclose
        simp only [hitem, hclose, Except.ok.injEq, Prod.mk.injEq] at h
        obtain ⟨rfl, rfl⟩ := h
        exact ⟨[t, close], rfl, .last ht hkind⟩
      | none =>
        cases hcomma : expect .comma "',' or ']'" rest with
        | error e => simp [hitem, hclose, hcomma] at h
        | ok r =>
          obtain ⟨value, after⟩ := r
          obtain ⟨comma, rfl, hkind, -⟩ := expect_eq_ok_iff.mp hcomma
          simp only [hitem, hclose, hcomma] at h
          obtain ⟨⟨items', left'⟩, hitems, heq⟩ := map_eq_ok_iff.mp h
          obtain ⟨rfl, rfl⟩ := Prod.mk.inj heq
          obtain ⟨tail, rfl, htail⟩ := ih hitems
          exact ⟨t :: comma :: tail, rfl, .more ht hkind htail⟩

/-- Members up to the closing bracket are read; each takes two tokens, so that there are enough
steps where there is one for each token. -/
private theorem readItems_eq_ok {tail : List Token} {fuel : Nat} (h : IsTail s items tail)
    (hfuel : tail.length ≤ fuel) : readItems s fuel (tail ++ left) = .ok (items, left) := by
  induction h generalizing fuel with
  | @last item t close ht hkind =>
    cases fuel with
    | zero => simp at hfuel
    | succ fuel =>
      have hitem : readItem s (t :: close :: left) = .ok (item, close :: left) :=
        readItem_eq_ok_iff.mpr ⟨t, rfl, ht⟩
      have hclose := accept?_cons hkind left
      simp only [List.cons_append, List.nil_append, readItems, hitem, hclose]
  | @more item items t comma tail ht hkind htail ih =>
    cases fuel with
    | zero => simp at hfuel
    | succ fuel =>
      have hitem : readItem s (t :: comma :: (tail ++ left))
          = .ok (item, comma :: (tail ++ left)) := readItem_eq_ok_iff.mpr ⟨t, rfl, ht⟩
      have hclose : accept? .closeBracket (comma :: (tail ++ left)) = none :=
        accept?_of_ne (by rw [hkind]; decide) _
      have hcomma : expect .comma "',' or ']'" (comma :: (tail ++ left))
          = .ok (comma.value, tail ++ left) := expect_eq_ok_iff.mpr ⟨comma, rfl, hkind, rfl⟩
      have hlength : tail.length ≤ fuel := by
        simp only [List.length_cons] at hfuel
        omega
      simp only [List.cons_append, readItems, hitem, hclose, hcomma, ih hlength, Except.map]

/-- The first token of the members is not the closing bracket. -/
private theorem exists_head_of_isTail {tail : List Token} (h : IsTail s items tail) :
    ∃ t rest, tail = t :: rest ∧ t.kind ≠ .closeBracket := by
  cases h with
  | last ht => exact ⟨_, _, rfl, ht.kind_ne (by decide)⟩
  | more ht => exact ⟨_, _, rfl, ht.kind_ne (by decide)⟩

/-- A list is read exactly from a bracketed list of strings and finite numbers. -/
theorem readList_eq_ok_iff :
    readList s ts = .ok (items, left) ↔ ∃ list, ts = list ++ left ∧ IsList s items list := by
  constructor
  · intro h
    unfold readList at h
    cases hopen : expect .openBracket "'['" ts with
    | error e => simp [hopen] at h
    | ok r =>
      obtain ⟨value, rest⟩ := r
      obtain ⟨opening, rfl, hkind, -⟩ := expect_eq_ok_iff.mp hopen
      cases hclose : accept? .closeBracket rest with
      | some r =>
        obtain ⟨value, after⟩ := r
        obtain ⟨close, rfl, hkind', -⟩ := accept?_eq_some_iff.mp hclose
        simp only [hopen, hclose, Except.ok.injEq, Prod.mk.injEq] at h
        obtain ⟨rfl, rfl⟩ := h
        exact ⟨[opening, close], rfl, .empty hkind hkind'⟩
      | none =>
        simp only [hopen, hclose] at h
        obtain ⟨tail, rfl, htail⟩ := isTail_of_readItems h
        exact ⟨opening :: tail, rfl, .items hkind htail⟩
  · have hopen : ∀ {opening : Token} (rest : List Token), opening.kind = .openBracket →
        expect .openBracket "'['" (opening :: rest) = .ok (opening.value, rest) :=
      fun _ hkind => expect_eq_ok_iff.mpr ⟨_, rfl, hkind, rfl⟩
    rintro ⟨list, rfl, hlist⟩
    cases hlist with
    | empty hkind hkind' =>
      simp only [List.cons_append, List.nil_append, readList, hopen _ hkind, accept?_cons hkind']
    | @items _ opening tail hkind htail =>
      have hclose : accept? .closeBracket (tail ++ left) = none := by
        obtain ⟨t, rest, rfl, ht⟩ := exists_head_of_isTail htail
        exact accept?_of_ne ht _
      have hitems : readItems s ((tail ++ left).length + 1) (tail ++ left) = .ok (items, left) :=
        readItems_eq_ok htail (by rw [List.length_append]; omega)
      simp only [List.cons_append, readList, hopen _ hkind, hclose, hitems]

end Tokens

/-! ### Tables of phrases -/

namespace Phrase

variable {α : Type} {table : List (Phrase α)} {p : Phrase α}

/-- What is read by a table is read by one of its phrases. -/
theorem exists_of_readFirst? {r : Scan α} (h : readFirst? table ts = some r) :
    ∃ p ∈ table, ∃ ws rest, Keywords p.words ws ∧ ts = ws ++ rest ∧ r = p.arguments rest := by
  obtain ⟨p, hp, h⟩ := List.exists_of_findSome?_eq_some h
  obtain ⟨rest, hrest, rfl⟩ := Option.map_eq_some_iff.mp h
  obtain ⟨ws, hws, rfl⟩ := Tokens.dropWords?_eq_some_iff.mp hrest
  exact ⟨p, hp, ws, rest, hws, rfl, rfl⟩

/-- The first phrase of a table is read wherever its words come first. -/
theorem readFirst?_cons (hws : Keywords p.words ws) :
    readFirst? (p :: table) (ws ++ rest) = some (p.arguments rest) := by
  rw [readFirst?, List.findSome?_cons, Tokens.dropWords?_eq_some_iff.mpr ⟨ws, hws, rfl⟩]
  rfl

/-- **A phrase of a table is read as such**, also with more words after its own, if these are not
the words of a phrase that comes before it. -/
theorem readFirst?_eq {more : List String} {ms : List Token}
    (htable : table.Pairwise fun p q => ¬ p.words <+: q.words ++ more) (hp : p ∈ table)
    (hws : Keywords p.words ws) (hms : Keywords more ms)
    (hrest : ∀ t ∈ rest.head?, t.kind ≠ .word) :
    readFirst? table (ws ++ (ms ++ rest)) = some (p.arguments (ms ++ rest)) := by
  obtain ⟨before, after, rfl⟩ := List.append_of_mem hp
  refine List.findSome?_eq_some_iff.mpr ⟨before, p, after, rfl, ?_, fun q hq => ?_⟩
  · rw [Tokens.dropWords?_eq_some_iff.mpr ⟨ws, hws, rfl⟩, Option.map_some]
  · have hprefix : ¬ q.words <+: p.words ++ more :=
      (List.pairwise_append.mp htable).2.2 q hq p List.mem_cons_self
    rw [← List.append_assoc, Tokens.dropWords?_eq_none (List.rel_append hws hms) hrest hprefix,
      Option.map_none]

end Phrase

end TableRules
