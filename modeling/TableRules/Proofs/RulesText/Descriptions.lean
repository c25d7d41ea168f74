import TableRules.Proofs.RulesText.ReadRules

/-!
# Descriptions of rules are read back

The description of a rule is a phrase: words in lower case and, after a space, an argument in one or
more lexemes. Nothing in it is escaped, so that only a plain constraint (`Constraint.IsPlain`) is
described by a phrase that states it.

* A list is cut into its members, since commas inside brackets belong to no number
  (`cutsInto_list`).
* Each constraint that was read has a description that is read as a constraint of the same kind with
  an equal argument (`IsPhrase.isDescribed`).

**Main result** (`Ruleset.readLine_describe`): the description of every rule of a ruleset is a line
that adds an equal rule to a block.
-/

namespace TableRules

open Lexeme Tokens Result

variable {s s₀ : Settings} {catalog : Catalog} {c : Constraint} {t : Token} {ts : List Token}
  {kind : TokenKind} {value text : String} {before : List TokenKind} {words : List String}

/-! ### Plain constraints and equal arguments -/

/-- Arguments that are equal, where numbers are compared as such: a zero may lose its sign. -/
inductive Argument.Equal : Argument → Argument → Prop
  | refl (a : Argument) : Equal a a
  | real {x y : Double} (h : x.eq y = true) : Equal (.number (.real x)) (.number (.real y))
  | items {xs ys : List Argument} (h : List.Forall₂ Equal xs ys) : Equal (.items xs) (.items ys)

/-- A text without double quotes and backslashes. -/
def Wording.IsPlain (w : Wording) : Prop := ∀ c ∈ w.shown.toList, c ≠ '\x22' ∧ c ≠ '\\'

instance : DecidablePred Wording.IsPlain := fun w => List.decidableBAll _ w.shown.toList

/-- A member of a set that is a number or a plain text. -/
def SetItem.IsPlain : SetItem → Prop
  | .text w => w.IsPlain
  | .number _ => True

instance : DecidablePred SetItem.IsPlain
  | .text w => inferInstanceAs (Decidable w.IsPlain)
  | .number _ => inferInstanceAs (Decidable True)

/-- A constraint whose texts are plain and whose pattern has no slash. -/
def Constraint.IsPlain : Constraint → Prop
  | .hasFormat w => w.IsPlain
  | .text _ w => w.IsPlain
  | .part _ w => w.IsPlain
  | .member _ items => ∀ item ∈ items, item.IsPlain
  | .pattern p => '/' ∉ p.text.toList
  | _ => True

instance : DecidablePred Constraint.IsPlain
  | .hasFormat w => inferInstanceAs (Decidable w.IsPlain)
  | .text _ w => inferInstanceAs (Decidable w.IsPlain)
  | .part _ w => inferInstanceAs (Decidable w.IsPlain)
  | .member _ items => inferInstanceAs (Decidable (∀ item ∈ items, item.IsPlain))
  | .pattern p => inferInstanceAs (Decidable ('/' ∉ p.text.toList))
  | .hasType _ => isTrue trivial
  | .required => isTrue trivial
  | .notNull => isTrue trivial
  | .null => isTrue trivial
  | .unique => isTrue trivial
  | .compare _ _ => isTrue trivial
  | .length _ _ => isTrue trivial
  | .digits _ _ => isTrue trivial

/-! ### Words -/

/-- A word as phrases have it, in lower case. -/
def IsPhraseWord (w : String) : Prop :=
  w.toList.head?.any isWordStart = true ∧ w.toList.all isWordChar = true ∧ Text.lowerAscii w = w

instance : DecidablePred IsPhraseWord := fun w =>
  inferInstanceAs (Decidable (w.toList.head?.any isWordStart = true ∧
    w.toList.all isWordChar = true ∧ Text.lowerAscii w = w))

variable {w : String} {items : List SetItem} {item : SetItem} {texts : List String}
  {p : List Token → Prop}

theorem IsPhraseWord.exists_head (h : IsPhraseWord w) :
    ∃ c cs, w.toList = c :: cs ∧ isWordStart c = true := by
  obtain ⟨c, hc, hstart⟩ := (Option.any_eq_true isWordStart w.toList.head?).mp h.1
  obtain ⟨cs, hw⟩ := List.head?_eq_some_iff.mp hc
  exact ⟨c, cs, hw, hstart⟩

theorem IsPhraseWord.isWord (h : IsPhraseWord w) : IsWord w.toList := by
  obtain ⟨c, cs, hw, hstart⟩ := h.exists_head
  have hchars := List.all_eq_true.mp h.2.1
  rw [hw] at hchars ⊢
  exact .mk hstart fun d hd => hchars d (List.mem_cons_of_mem c hd)

theorem IsPhraseWord.oneLine (h : IsPhraseWord w) : OneLine w := by
  intro c hc
  have hchar := List.all_eq_true.mp h.2.1 c hc
  refine Bool.eq_false_iff.mpr fun hbreak => ?_
  simp only [Text.isLineBreak, isWordChar, Text.isAsciiAlphanumeric, Bool.or_eq_true,
    Bool.and_eq_true, decide_eq_true_eq, beq_iff_eq] at hchar hbreak
  rcases hchar with (hchar | rfl) | rfl
  · omega
  · exact absurd hbreak (by decide)
  · exact absurd hbreak (by decide)

/-- Words are spelled as they are. -/
private theorem spellings_words (hwords : ∀ w ∈ words, IsPhraseWord w) :
    Spellings before (words.map fun w => (.word, w)) words := by
  induction words generalizing before with
  | nil => exact .nil
  | cons w words ih =>
    obtain ⟨hw, hwords⟩ := List.forall_mem_cons.mp hwords
    exact .cons (.word hw.isWord) (ih hwords)

private theorem keywords_of_map (hwords : ∀ w ∈ words, IsPhraseWord w)
    (h : ts.map (fun t => (t.kind, t.value)) = words.map fun w => (.word, w)) :
    Keywords words ts := by
  induction words generalizing ts with
  | nil => exact List.map_eq_nil_iff.mp h ▸ .nil
  | cons w words ih =>
    obtain ⟨hw, hwords'⟩ := List.forall_mem_cons.mp hwords
    obtain ⟨t, ts, rfl, ht, hts⟩ := List.map_eq_cons_iff.mp h
    obtain ⟨hkind, hvalue⟩ := Prod.mk.inj ht
    exact .cons ⟨hkind, hvalue ▸ hw.2.2⟩ (ih hwords' hts)

/-! ### Descriptions -/

/-- A text is one line that starts with a letter and is read as a constraint with the kind and an
equal argument. -/
structure IsDescription (s : Settings) (catalog : Catalog) (c : Constraint) (text : String) :
    Prop where
  oneLine : OneLine text
  head : ∃ a as, text.toList = a :: as ∧ isWordStart a = true
  reads : CutsInto [] text.toList fun ts => ∃ c', readConstraint s catalog ts = .ok c' ∧
    c'.kind = c.kind ∧ c.argument.Equal c'.argument

/-- A constraint has a description. -/
def IsDescribed (s : Settings) (catalog : Catalog) (c : Constraint) : Prop :=
  ∃ phrase, c.describe? = some phrase ∧ IsDescription s catalog c phrase

/-- Words, and what follows them after a space, describe the constraint that they are read as. -/
theorem isDescription_of_words {tail : String} (hne : words ≠ [])
    (hwords : ∀ w ∈ words, IsPhraseWord w) (htail : ∀ c ∈ tail.toList.head?, c = ' ')
    (hline : OneLine tail) (hcut : CutsInto (words.map fun _ => .word) tail.toList p)
    (hread : ∀ ws rest, Keywords words ws → p rest → ∃ c',
      readConstraint s catalog (ws ++ rest) = .ok c' ∧ c'.kind = c.kind ∧
        c.argument.Equal c'.argument) :
    IsDescription s catalog c (Text.joinWith " " words ++ tail) := by
  obtain ⟨w, words, rfl⟩ := List.exists_cons_of_ne_nil hne
  refine ⟨.append (.joinWith (by decide) fun w hw => (hwords w hw).oneLine) hline, ?_, ?_⟩
  · obtain ⟨c, cs, hw, hstart⟩ := (hwords w List.mem_cons_self).exists_head
    exact ⟨c, _, by rw [String.toList_append, Text.toList_joinWith_cons, hw]; rfl, hstart⟩
  · have hspellings : Spellings [] _ _ := spellings_words hwords
    rw [String.toList_append]
    refine (hspellings.cutsInto_joinWith htail (by simpa using hcut)).mono ?_
    rintro _ ⟨ws, rest, rfl, hws, hrest⟩
    exact hread ws rest (keywords_of_map hwords hws) hrest

/-- Words alone describe the constraint that they are read as. -/
theorem isDescription_of_bare (hne : words ≠ []) (hwords : ∀ w ∈ words, IsPhraseWord w)
    (hread : ∀ ws, Keywords words ws → readConstraint s catalog ws = .ok c) :
    IsDescription s catalog c (Text.joinWith " " words) := by
  have hnothing : CutsInto (words.map fun _ => .word) "".toList (· = []) := .nil rfl
  have h : IsDescription s catalog c (Text.joinWith " " words ++ "") := by
    refine isDescription_of_words hne hwords (by simp) (by decide) hnothing ?_
    rintro ws _ hws rfl
    rw [List.append_nil]
    exact ⟨c, hread ws hws, rfl, .refl _⟩
  rwa [String.append_empty] at h

/-- A lexeme after a space is cut off in front of a text that is empty or starts with a space. -/
theorem IsLexeme.cutsInto_append (h : IsLexeme kind value text) {cs : List Char}
    (hhead : ∀ c ∈ cs.head?, c = ' ') (hcs : CutsInto (before ++ [kind]) cs p) :
    CutsInto before ((" " ++ text).toList ++ cs) fun ts => ∃ t rest, ts = t :: rest ∧
      t.kind = kind ∧ t.value = value ∧ p rest := by
  rw [String.toList_append]
  have hspace : ∀ c ∈ [' '], Text.isBlank c = true := Text.forall_of_all (by decide)
  refine .cons hspace (h.written _) (fun c hc => hhead c hc ▸ not_continues_space) hcs
    fun t ts hkind hvalue hts => ⟨t, ts, rfl, hkind, ?_, hts⟩
  rw [hvalue, String.ofList_toList]

/-- A lexeme after a space is cut into its token. -/
theorem IsLexeme.cutsInto (h : IsLexeme kind value text) :
    CutsInto before (" " ++ text).toList fun ts => ∃ t, ts = [t] ∧ t.kind = kind ∧
      t.value = value := by
  have hnothing : CutsInto (before ++ [kind]) [] (· = []) := .nil rfl
  have hcut := h.cutsInto_append (by simp) hnothing
  rw [List.append_nil] at hcut
  refine hcut.mono ?_
  rintro _ ⟨t, _, rfl, hkind, hvalue, rfl⟩
  exact ⟨t, rfl, hkind, hvalue⟩

/-- Words and a lexeme after them describe the constraint that they are read as. -/
theorem isDescription_of_lexeme (hlexeme : IsLexeme kind value text) (hne : words ≠ [])
    (hwords : ∀ w ∈ words, IsPhraseWord w)
    (hread : ∀ ws t, Keywords words ws → t.kind = kind → t.value = value →
      readConstraint s catalog (ws ++ [t]) = .ok c) :
    IsDescription s catalog c (Text.joinWith " " words ++ (" " ++ text)) := by
  refine isDescription_of_words hne hwords (by simp) (.append (by decide) hlexeme.oneLine)
    hlexeme.cutsInto ?_
  rintro ws _ hws ⟨t, rfl, hkind, hvalue⟩
  exact ⟨c, hread ws t hws hkind hvalue, rfl, .refl _⟩

/-! ### Lists -/

/-- A text spells a member of a list as an equal one, in a string or a number. -/
def SpellsItem (s : Settings) (item : SetItem) (text : String) : Prop :=
  ∃ kind value item', (kind = .string ∨ kind = .number) ∧ IsLexeme kind value text ∧
    (Constraint.itemArgument item).Equal (Constraint.itemArgument item') ∧
    ∀ t : Token, t.kind = kind → t.value = value → IsItem s item' t

/-- Members of lists are equal as arguments. -/
def EqualItems (items items' : List SetItem) : Prop :=
  List.Forall₂ (fun item item' =>
    (Constraint.itemArgument item).Equal (Constraint.itemArgument item')) items items'

/-- A punctuation mark is cut off in front of any text. -/
private theorem cutsInto_mark (blanks : List Char) (mark : Char) {cs : List Char}
    (hblanks : ∀ c ∈ blanks, Text.isBlank c = true) (hmark : (mark, kind) ∈ marks)
    (hcs : CutsInto (before ++ [kind]) cs p) :
    CutsInto before (blanks ++ mark :: cs)
      fun ts => ∃ t rest, ts = t :: rest ∧ t.kind = kind ∧ p rest := by
  have hall : ∀ m ∈ marks, m.2 ≠ .word ∧ m.2 ≠ .number ∧ m.2 ≠ .operator := by decide
  have hcontinues : ∀ c, ¬ Continues (Closed before) kind c := by
    intro c
    have hkind := hall _ hmark
    cases kind <;> simp_all [Continues]
  rw [← List.singleton_append, ← List.append_assoc]
  exact .cons hblanks (.punctuation hmark) (fun c _ => hcontinues c) hcs
    fun t ts hkind _ hts => ⟨t, ts, rfl, hkind, hts⟩

/-- Members with commas between them, up to the closing bracket, are cut into tokens of such
members: where a bracket is open, a comma goes on with no number. -/
private theorem cutsInto_items (h : SpellsItem s item text)
    (hitems : List.Forall₂ (SpellsItem s) items texts) (hdepth : depth before ≠ 0)
    {blanks : List Char} (hblanks : ∀ c ∈ blanks, Text.isBlank c = true) :
    CutsInto before
      (blanks ++ text.toList ++ ((texts.flatMap fun t => ", ".toList ++ t.toList) ++ [']']))
      fun ts => ∃ items', IsTail s items' ts ∧ EqualItems (item :: items) items' := by
  induction hitems generalizing item text before blanks with
  | nil =>
    obtain ⟨kind, value, item', hkind, hlexeme, hequal, hitem⟩ := h
    have hnothing : CutsInto (before ++ [kind] ++ [.closeBracket]) [] (· = []) := .nil rfl
    have hclose := cutsInto_mark [] ']' (by simp) (by decide) hnothing
    refine .cons hblanks (hlexeme.written _) ?_ hclose ?_
    · rintro c hc
      obtain rfl : ']' = c := by simpa using hc
      have hdigit : Text.isDigit ']' = false := by decide
      rcases hkind with rfl | rfl <;> simp [Continues, IsGrouping, hdigit]
    · rintro t _ htkind htvalue ⟨close, _, rfl, hclose, rfl⟩
      rw [String.ofList_toList] at htvalue
      exact ⟨[item'], .last (hitem t htkind htvalue) hclose, .cons hequal .nil⟩
  | @cons next text' items texts hnext _ ih =>
    obtain ⟨kind, value, item', hkind, hlexeme, hequal, hitem⟩ := h
    have hopen : ∀ kind', kind' = .string ∨ kind' = .number ∨ kind' = .comma →
        ∀ before, depth before ≠ 0 → depth (before ++ [kind']) ≠ 0 := by
      rintro kind' hkind' before hdepth
      rw [depth_append_singleton]
      rcases hkind' with rfl | rfl | rfl <;> exact hdepth
    have hdepth' : depth (before ++ [kind] ++ [.comma]) ≠ 0 :=
      hopen _ (by simp) _ (hopen _ (by rcases hkind with rfl | rfl <;> simp) _ hdepth)
    have hspace : ∀ c ∈ [' '], Text.isBlank c = true := Text.forall_of_all (by decide)
    have hcomma := cutsInto_mark [] ',' (by simp) (by decide) (ih hnext hdepth' hspace)
    have hcut := CutsInto.cons (p := fun ts => ∃ items', IsTail s items' ts ∧
      EqualItems (item :: next :: items) items') hblanks (hlexeme.written _) ?_ hcomma ?_
    · simpa using hcut
    · -- the comma would go on with a number only if all brackets were closed
      rintro c hc
      obtain rfl : ',' = c := by simpa using hc
      have hclosed : ¬ Closed before := depth_eq_zero_iff.not.mp hdepth
      rcases hkind with rfl | rfl <;> simp [Continues, hclosed]
    · rintro t _ htkind htvalue ⟨comma, rest, rfl, hcomma, items', hitems', hequal'⟩
      rw [String.ofList_toList] at htvalue
      exact ⟨item' :: items', .more (hitem t htkind htvalue) hcomma hitems', .cons hequal hequal'⟩

/-- **A bracketed list** is cut into the tokens of a list of equal members. -/
theorem cutsInto_list (h : List.Forall₂ (SpellsItem s) items texts) :
    CutsInto before (" " ++ ("[" ++ Text.joinWith ", " texts ++ "]")).toList
      fun ts => ∃ items', IsList s items' ts ∧ EqualItems items items' := by
  cases h with
  | nil =>
    have hnothing : CutsInto (before ++ [.openBracket] ++ [.closeBracket]) [] (· = []) := .nil rfl
    have hclose := cutsInto_mark [] ']' (by simp) (by decide) hnothing
    refine (cutsInto_mark [' '] '[' (Text.forall_of_all (by decide)) (by decide) hclose).mono ?_
    rintro _ ⟨t, _, rfl, hkind, close, _, rfl, hclose, rfl⟩
    exact ⟨[], .empty hkind hclose, .nil⟩
  | @cons item text items texts hitem hitems =>
    have hdepth : depth (before ++ [.openBracket]) ≠ 0 := by
      rw [depth_append_singleton]
      exact Nat.succ_ne_zero _
    have hnone : ∀ c ∈ ([] : List Char), Text.isBlank c = true := by simp
    have hcut := cutsInto_mark [' '] '[' (Text.forall_of_all (by decide)) (by decide)
      (cutsInto_items hitem hitems hdepth hnone)
    have htext : (" " ++ ("[" ++ Text.joinWith ", " (text :: texts) ++ "]")).toList
        = [' '] ++ '[' :: ([] ++ text.toList
          ++ ((texts.flatMap fun t => ", ".toList ++ t.toList) ++ [']'])) := by
      simp [Text.toList_joinWith_cons]
    rw [htext]
    refine hcut.mono ?_
    rintro _ ⟨t, rest, rfl, hkind, items', htail, hequal⟩
    exact ⟨items', .items hkind htail, hequal⟩

/-- A member of a list that was read has a text that spells it. -/
private theorem exists_describeItem (h : IsItem s₀ item t) (ht : t.IsOfLine)
    (hplain : item.IsPlain) (hsep : s.separator ≠ some .point) :
    ∃ text, Constraint.describeItem? item = some text ∧ OneLine text ∧ SpellsItem s item text := by
  cases h with
  | text hkind =>
    have hlexeme := isLexeme_inQuotes hplain (ht.oneLine hkind)
    refine ⟨_, rfl, hlexeme.oneLine, .string, t.value, .text (.text t.value), .inl rfl, hlexeme,
      .refl _, fun t' hkind' hvalue => ?_⟩
    exact hvalue ▸ .text hkind'
  | @number _ x hkind hreal =>
    obtain ⟨hlexeme, y, hy, hequal⟩ := parseReal?_plain hsep (isFinite_of_parseReal? hreal)
    exact ⟨_, rfl, hlexeme.oneLine, .number, _, .number (.real y), .inr rfl, hlexeme, .real hequal,
      fun t' hkind' hvalue => .number hkind' (hvalue ▸ hy)⟩

private theorem IsTail.exists_item (h : IsTail s items ts) (hitem : item ∈ items) :
    ∃ t ∈ ts, IsItem s item t := by
  induction h with
  | @last item' t close h =>
    obtain rfl := List.mem_singleton.mp hitem
    exact ⟨t, by simp, h⟩
  | @more item' items t comma ts h _ _ ih =>
    rcases List.mem_cons.mp hitem with rfl | hitem
    · exact ⟨t, by simp, h⟩
    · obtain ⟨t', ht', h'⟩ := ih hitem
      exact ⟨t', by simp [ht'], h'⟩

/-- The members of a list that was read have texts that spell them. -/
private theorem exists_describeItems (h : IsList s₀ items ts) (hts : ∀ t ∈ ts, t.IsOfLine)
    (hplain : ∀ item ∈ items, item.IsPlain) (hsep : s.separator ≠ some .point) :
    ∃ texts, items.mapM Constraint.describeItem? = some texts ∧ (∀ text ∈ texts, OneLine text) ∧
      List.Forall₂ (SpellsItem s) items texts := by
  have hitems : ∀ item ∈ items, ∃ text, Constraint.describeItem? item = some text ∧
      OneLine text ∧ SpellsItem s item text := by
    intro item hitem
    obtain ⟨t, ht, h⟩ : ∃ t ∈ ts, IsItem s₀ item t := by
      cases h with
      | empty => simp at hitem
      | items _ htail =>
        obtain ⟨t, ht, h⟩ := htail.exists_item hitem
        exact ⟨t, List.mem_cons_of_mem _ ht, h⟩
    exact exists_describeItem h (hts t ht) (hplain item hitem) hsep
  clear h hplain
  induction items with
  | nil => exact ⟨[], rfl, by simp, .nil⟩
  | cons item items ih =>
    obtain ⟨⟨text, htext, hline, hspells⟩, hitems⟩ := List.forall_mem_cons.mp hitems
    obtain ⟨texts, htexts, hlines, hspell⟩ := ih hitems
    exact ⟨text :: texts, by simp [htext, htexts], List.forall_mem_cons.mpr ⟨hline, hlines⟩,
      .cons hspells hspell⟩

/-! ### Descriptions of constraints -/

/-- The words of a form and the space after them are the start of the description. -/
private theorem append_space {front whole : String} (h : whole = front ++ " ") (text : String) :
    some (whole ++ text) = some (front ++ (" " ++ text)) := by
  rw [h, String.append_assoc]

private theorem describe_count {make : Nat → Constraint} (h : (words, make) ∈ countForms)
    (n : Nat) :
    (make n).describe? = some (Text.joinWith " " words ++ (" " ++ Text.decimal n)) := by
  have hall : ∀ form ∈ countForms,
      (form.2 n).describe? = some (Text.joinWith " " form.1 ++ (" " ++ Text.decimal n)) := by
    simp only [countForms, List.forall_mem_cons, List.not_mem_nil, false_imp_iff, implies_true,
      and_true]
    refine ⟨?_, ?_, ?_, ?_, ?_⟩ <;> exact append_space (by decide) _
  exact hall _ h

private theorem describe_member {allowed : Bool} (h : (words, allowed) ∈ setForms)
    (htexts : items.mapM Constraint.describeItem? = some texts) :
    (Constraint.member allowed items).describe? = some (Text.joinWith " " words ++
      (" " ++ ("[" ++ Text.joinWith ", " texts ++ "]"))) := by
  have hitems : Constraint.describeItems? items
      = some ("[" ++ Text.joinWith ", " texts ++ "]") := by
    rw [Constraint.describeItems?, htexts]
    rfl
  simp only [setForms, List.mem_cons, List.not_mem_nil, or_false] at h
  rcases h with h | h <;> obtain ⟨rfl, rfl⟩ := Prod.mk.inj h
  all_goals
    rw [Constraint.describe?, hitems, Option.map_some]
    exact append_space (by decide) _

private theorem describe_text {make : Wording → Constraint} (h : (words, make) ∈ textForms)
    (w : Wording) :
    (make w).describe?
        = some (Text.joinWith " " words ++ (" " ++ Constraint.inQuotes w.shown)) ∧
      ((make w).IsPlain → w.IsPlain) := by
  have hall : ∀ form ∈ textForms,
      (form.2 w).describe?
          = some (Text.joinWith " " form.1 ++ (" " ++ Constraint.inQuotes w.shown)) ∧
        ((form.2 w).IsPlain → w.IsPlain) := by
    simp only [textForms, List.forall_mem_cons, List.not_mem_nil, false_imp_iff, implies_true,
      and_true]
    refine ⟨?_, ?_, ?_, ?_, ?_, ?_⟩ <;> exact ⟨append_space (by decide) _, id⟩
  exact hall _ h

private theorem isDescribed_hasType (type : ValueType) : IsDescribed s catalog (.hasType type) := by
  have hall : ∀ type ∈ ValueType.all, ∃ form ∈ typeWords, form.2 = type ∧
      "has value type " ++ type.name = Text.joinWith " " ("has" :: "value" :: "type" :: form.1) ∧
      ∀ w ∈ form.1, IsPhraseWord w := by decide
  obtain ⟨⟨words, _⟩, hform, rfl, htext, hwords⟩ := hall type (by cases type <;> decide)
  have hwords' : ∀ w ∈ "has" :: "value" :: "type" :: words, IsPhraseWord w := by
    simp only [List.forall_mem_cons]
    exact ⟨by decide, by decide, by decide, hwords⟩
  refine ⟨_, congrArg some htext, isDescription_of_bare (by simp) hwords' ?_⟩
  rintro ws (_ | ⟨h₁, _ | ⟨h₂, _ | ⟨h₃, hws⟩⟩⟩)
  exact (IsPhrase.hasType (.cons h₁ (.cons h₂ (.cons h₃ .nil))) hform hws).readConstraint_eq_ok rfl

private theorem isDescribed_hasFormat {name : String} (hplain : (Wording.text name).IsPlain)
    (hline : OneLine name) (hknown : name ∈ catalog.names) :
    IsDescribed s catalog (.hasFormat (.text name)) := by
  have htext : "has format " = Text.joinWith " " ["has", "format"] ++ " " := by decide
  refine ⟨_, append_space htext _,
    isDescription_of_lexeme (isLexeme_inQuotes hplain hline) (by simp) (by decide) ?_⟩
  rintro ws t hws hkind rfl
  exact (IsPhrase.hasFormat hws hkind hknown).readConstraint_eq_ok rfl

/-- A count is shown in at most as many digits as a count may have. -/
private theorem isDescribed_count {make : Nat → Constraint} {n : Nat}
    (hform : (words, make) ∈ countForms) (hlimit : (Nat.toDigits 10 n).length ≤ digitLimit) :
    IsDescribed s catalog (make n) := by
  have hall : ∀ form ∈ countForms, form.1 ≠ [] ∧ ∀ w ∈ form.1, IsPhraseWord w := by decide
  obtain ⟨hne, hwords⟩ := hall _ hform
  obtain ⟨hlexeme, hwhole⟩ := isWhole_decimal s n
  refine ⟨_, describe_count hform _, isDescription_of_lexeme hlexeme hne hwords ?_⟩
  intro ws t hws hkind hvalue
  rw [readConstraint_count hform hws hkind (hvalue ▸ hwhole), if_neg (Nat.not_lt.mpr hlimit),
    Text.digitsValue_toDigits]

private theorem isDescribed_bare (hform : (words, c) ∈ bareForms) : IsDescribed s catalog c := by
  have hall : ∀ form ∈ bareForms, form.1 ≠ [] ∧ (∀ w ∈ form.1, IsPhraseWord w) ∧
      form.2.describe? = some (Text.joinWith " " form.1) ∧ form.2.hasCount = false := by decide
  obtain ⟨hne, hwords, hdescribe, hcount⟩ := hall _ hform
  exact ⟨_, hdescribe, isDescription_of_bare hne hwords fun ws hws =>
    (IsPhrase.bare hform hws).readConstraint_eq_ok hcount⟩

private theorem isDescribed_member {allowed : Bool} (hform : (words, allowed) ∈ setForms)
    (htexts : items.mapM Constraint.describeItem? = some texts)
    (hlines : ∀ text ∈ texts, OneLine text) (hspells : List.Forall₂ (SpellsItem s) items texts) :
    IsDescribed s catalog (.member allowed items) := by
  have hall : ∀ form ∈ setForms, form.1 ≠ [] ∧ ∀ w ∈ form.1, IsPhraseWord w := by decide
  obtain ⟨hne, hwords⟩ := hall _ hform
  have hline : OneLine (" " ++ ("[" ++ Text.joinWith ", " texts ++ "]")) :=
    .append (by decide) (.append (.append (by decide) (.joinWith (by decide) hlines)) (by decide))
  refine ⟨_, describe_member hform htexts,
    isDescription_of_words hne hwords (by simp) hline (cutsInto_list hspells) ?_⟩
  rintro ws rest hws ⟨items', hlist', hequal⟩
  have hread : readConstraint s catalog (ws ++ rest) = .ok (.member allowed items') :=
    (IsPhrase.member hform hws hlist').readConstraint_eq_ok rfl
  refine ⟨_, hread, by cases allowed <;> rfl, .items ?_⟩
  exact List.forall₂_map_left_iff.mpr (List.forall₂_map_right_iff.mpr hequal)

private theorem isDescribed_text {make : Wording → Constraint} {content : String}
    (hform : (words, make) ∈ textForms) (hplain : (make (.text content)).IsPlain)
    (hline : OneLine content) : IsDescribed s catalog (make (.text content)) := by
  have hall : ∀ form ∈ textForms, form.1 ≠ [] ∧ ∀ w ∈ form.1, IsPhraseWord w := by decide
  have hcounts : ∀ form ∈ textForms, ∀ w, (form.2 w).hasCount = false := by
    simp [textForms, Constraint.hasCount]
  obtain ⟨hne, hwords⟩ := hall _ hform
  obtain ⟨hdescribe, hplain'⟩ := describe_text hform (.text content)
  refine ⟨_, hdescribe,
    isDescription_of_lexeme (isLexeme_inQuotes (hplain' hplain) hline) hne hwords ?_⟩
  rintro ws t hws hkind rfl
  exact (IsPhrase.text hform hws hkind).readConstraint_eq_ok (hcounts _ hform _)

private theorem isDescribed_compare (op : Comparison) {x : Double} (hx : x.isFinite = true)
    (hsep : s.separator ≠ some .point) : IsDescribed s catalog (.compare op (.real x)) := by
  obtain ⟨hlexeme, y, hy, hequal⟩ := parseReal?_plain hsep hx
  have hoperator := isLexeme_operator op
  have htext : (Constraint.compare op (.real x)).describe?
      = some (Text.joinWith " " ["is"] ++ (" " ++ op.operator ++ (" " ++ x.plain))) := by
    simp only [Constraint.describe?, Number.plain?, Option.map_some, ← String.append_assoc]
    rfl
  have hline : OneLine (" " ++ op.operator ++ (" " ++ x.plain)) :=
    .append (.append (by decide) hoperator.oneLine) (.append (by decide) hlexeme.oneLine)
  have hcut : CutsInto [.word] (" " ++ op.operator ++ (" " ++ x.plain)).toList
      fun ts => ∃ o rest, ts = o :: rest ∧ o.kind = .operator ∧ o.value = op.operator ∧
        ∃ t, rest = [t] ∧ t.kind = .number ∧ t.value = x.plain := by
    rw [String.toList_append]
    exact hoperator.cutsInto_append (by simp) hlexeme.cutsInto
  refine ⟨_, htext, isDescription_of_words (by simp) (by decide) (by simp) hline hcut ?_⟩
  rintro ws _ hws ⟨o, _, rfl, hop, hvalue, t, rfl, hkind, hnumber⟩
  have hread : readConstraint s catalog (ws ++ [o, t]) = .ok (.compare op (.real y)) :=
    (IsPhrase.compare hws hop hvalue hkind (hnumber ▸ hy)).readConstraint_eq_ok rfl
  exact ⟨_, hread, by cases op <;> rfl, .real hequal⟩

private theorem isDescribed_pattern {p : Pattern} (ht : t.IsOfLine) (hkind : t.kind = .pattern)
    (hcompile : Pattern.compile t.value = .ok p) (hslash : '/' ∉ p.text.toList) :
    IsDescribed s catalog (.pattern p) := by
  obtain ⟨node, -, rfl⟩ := map_eq_ok_iff.mp hcompile
  have htext : "matches /" ++ t.value ++ "/"
      = Text.joinWith " " ["matches"] ++ (" " ++ ("/" ++ t.value ++ "/")) := by
    simp only [← String.append_assoc]
    rfl
  refine ⟨_, congrArg some htext,
    isDescription_of_lexeme (isLexeme_pattern ht hkind hslash) (by simp) (by decide) ?_⟩
  intro ws t' hws hkind' hvalue
  exact (IsPhrase.pattern (by decide) hws hkind' (hvalue ▸ hcompile)).readConstraint_eq_ok rfl

/-- **A constraint that was read** from tokens of a line has a description that is read as a
constraint of the same kind with an equal argument, wherever the point is the decimal mark. -/
theorem IsPhrase.isDescribed (h : IsPhrase s₀ catalog c ts) (hts : ∀ t ∈ ts, t.IsOfLine)
    (hread : readConstraint s₀ catalog ts = .ok c) (hplain : c.IsPlain)
    (hsep : s.separator ≠ some .point) : IsDescribed s catalog c := by
  cases h with
  | hasType => exact isDescribed_hasType _
  | @hasFormat ws t hws hkind hknown =>
    exact isDescribed_hasFormat hplain ((hts t (by simp)).oneLine hkind) hknown
  | @count words make ws t ds hform hws hkind hwhole =>
    -- that it was read bounds the count
    rw [readConstraint_count hform hws hkind hwhole] at hread
    split_ifs at hread with hlimit
    exact isDescribed_count hform (length_toDigits_digitsValue (Nat.not_lt.mp hlimit))
  | bare hform => exact isDescribed_bare hform
  | @member words allowed items ws ts hform hws hlist =>
    obtain ⟨texts, htexts, hlines, hspells⟩ :=
      exists_describeItems hlist (fun t ht => hts t (List.mem_append_right ws ht)) hplain hsep
    exact isDescribed_member hform htexts hlines hspells
  | @text words make ws t hform hws hkind =>
    exact isDescribed_text hform hplain ((hts t (by simp)).oneLine hkind)
  | compare hws hop hvalue hkind hreal =>
    exact isDescribed_compare _ (isFinite_of_parseReal? hreal) hsep
  | @pattern words p ws t hform hws hkind hcompile =>
    exact isDescribed_pattern (hts t (by simp)) hkind hcompile hplain

/-! ### Rules of a ruleset -/

/-- What has no line break ends the line that has been begun. -/
private theorem splitLinesFrom_of_noBreak {current cs : List Char}
    (hcs : ∀ c ∈ cs, Text.isLineBreak c = false) (hne : current ++ cs ≠ []) :
    Text.splitLinesFrom current cs = [current.reverse ++ cs] := by
  fun_induction Text.splitLinesFrom current cs with
  | case1 current hempty => simp_all
  | case2 current hempty => simp
  | case3 current rest ih => exact absurd (hcs '\r' (by simp)) (by decide)
  | case4 current c rest hreturn hbreak ih => simp [hcs c] at hbreak
  | case5 current c rest hreturn hbreak ih =>
    rw [ih (fun a ha => hcs a (List.mem_cons_of_mem c ha)) (by simp)]
    simp

/-- A text of one line is the only line of itself. -/
theorem splitLines_of_oneLine (h : OneLine text) (hne : text.toList ≠ []) :
    Text.splitLines text = [text] := by
  rw [Text.splitLines, splitLinesFrom_of_noBreak h hne]
  simp

/-- A text that starts with a letter is no comment and not blank. -/
theorem isSkipped_eq_false {c : Char} {cs : List Char} (h : text.toList = c :: cs)
    (hblank : Text.isBlank c = false) (hslash : c ≠ '/') : isSkipped text = false := by
  have hdrop : Text.dropBlanks text.toList = c :: cs := by
    rw [h, Text.dropBlanks_eq_self_iff]
    rintro a ⟨⟩
    exact hblank
  rw [Bool.eq_false_iff, ne_eq, isSkipped_iff, hdrop]
  rintro (hnil | ⟨cs', hcomment⟩)
  · simp at hnil
  · exact hslash (List.cons.inj hcomment).1

/-- A text of one line that starts with a letter is cut into the tokens of one line. -/
theorem tokenLines_of_letter {c : Char} {cs : List Char} (hline : OneLine text)
    (htext : text.toList = c :: cs) (hstart : isWordStart c = true)
    (hscan : scanTokens 1 text = .ok ts) : tokenLines text = .ok [⟨1, text, ts⟩] := by
  have hw : IsWord [c] := .mk hstart (by simp)
  have hlexeme : Written True .word [c] [c] := .word hw
  have hslash : c ≠ '/' := by
    rintro rfl
    exact absurd hstart (by decide)
  rw [tokenLines, splitLines_of_oneLine hline (by simp [htext]), tokenLinesFrom,
    isSkipped_eq_false htext hlexeme.isBlank_eq_false hslash, if_neg Bool.false_ne_true,
    Nat.cast_one, hscan]
  rfl

/-- A description is cut into the tokens of one line. -/
theorem IsDescription.tokenLines_eq (h : IsDescription s catalog c text)
    (hscan : scanTokens 1 text = .ok ts) : tokenLines text = .ok [⟨1, text, ts⟩] := by
  obtain ⟨a, as, htext, hstart⟩ := h.head
  exact tokenLines_of_letter h.oneLine htext hstart hscan

/-- A constraint declares a value type exactly if it is of that kind. -/
theorem Constraint.isSome_declaredType?_iff : c.declaredType?.isSome ↔ c.kind = .typeIs := by
  unfold kind
  split <;> simp [declaredType?]

/-- **The description of a rule** is one line that adds a rule of the same kind with an equal
argument to a column block, under the settings and the catalog of the ruleset, wherever the point
separates no groups of digits. A block that declares no value type has room for every rule. -/
theorem Ruleset.readLine_describe (catalog : Option Catalog) (source : String) (ruleset : Ruleset)
    (rule : Rule) (hparse : parse catalog source = .ok ruleset)
    (hsep : ruleset.settings.separator ≠ some .point) (hrule : rule ∈ ruleset.allRules)
    (hplain : rule.constraint.IsPlain) :
    ∃ phrase ts, rule.describe? = some phrase ∧ tokenLines phrase = .ok [⟨1, phrase, ts⟩] ∧
      ∀ (r : RulesReader) (column : String) (n : Int), r.place = .inBlock column →
        r.settings = .ok ruleset.settings → r.HasRoom column rule.constraint →
          ∃ rule' : Rule, RulesReader.readLine (catalog.getD .standard) r
              ⟨n, phrase, ts.map (Token.onLine n)⟩ = .ok (r.withRule column rule') ∧
            rule'.kind = rule.kind ∧ rule.constraint.argument.Equal rule'.constraint.argument := by
  obtain ⟨s₀, ts₀, hts₀, hread₀, hphrase⟩ := exists_read hparse hrule
  obtain ⟨phrase, hphrase, h⟩ : IsDescribed ruleset.settings _ rule.constraint :=
    hphrase.isDescribed hts₀ hread₀ hplain hsep
  obtain ⟨ts, hcut, -⟩ := h.reads 1 1
  have hscan := scanTokens_eq_ok_iff.mpr hcut
  refine ⟨phrase, ts, hphrase, h.tokenLines_eq hscan, fun r column n hplace hsettings hroom => ?_⟩
  -- on every line the description is cut into the same tokens
  obtain ⟨ts', hcut, c, hread, hkind, hequal⟩ := h.reads n 1
  have hscan' := scanTokens_eq_ok_iff.mpr hcut
  obtain rfl := Except.ok.inj (hscan'.symm.trans (scanTokens_eq_ok_onLine hscan n))
  -- only the kind decides whether a constraint declares a value type
  have hroom' : r.HasRoom column c := fun hsome => hroom <| by
    rw [Constraint.isSome_declaredType?_iff] at hsome ⊢
    exact hkind ▸ hsome
  exact ⟨⟨c, some n⟩, RulesReader.readLine_eq_ok hplace hsettings (noSpaces_of_cut hcut) hread
    hroom', hkind, hequal⟩

private theorem Settings.eq_of_fields {s s' : Settings} (hnull : s.nullValues = s'.nullValues)
    (hseparator : s.separator = s'.separator) (hprecision : s.precision = s'.precision) :
    s = s' := by
  cases s
  cases s'
  simp_all

/-- A text with a list of texts and numbers. -/
def mixedListText : String :=
  "column names in ['c']\nthousands separator is ','\ncolumn: c\n" ++
    "IS in ['it\\'s', -0.0, 2.50, 5e-324]\n"

theorem mixedList_describe :
    ∃ ruleset rule phrase ts, Ruleset.parse none mixedListText = .ok ruleset ∧
      ruleset.settings.separator ≠ some .point ∧ rule ∈ ruleset.allRules ∧
      rule.constraint.IsPlain ∧ rule.describe? = some phrase ∧
      phrase = "is in [\"it's\", 0, 2.5, 5e-324]" ∧ tokenLines phrase = .ok [⟨1, phrase, ts⟩] ∧
      commaColumn.place = .inBlock "c" ∧ commaColumn.settings = .ok ruleset.settings ∧
      commaColumn.HasRoom "c" rule.constraint ∧
      ∃ rule' : Rule, RulesReader.readLine .standard commaColumn
          ⟨4, phrase, ts.map (Token.onLine 4)⟩ = .ok (commaColumn.withRule "c" rule') ∧
        rule'.kind = rule.kind ∧ rule.constraint.argument.Equal rule'.constraint.argument := by
  have hparsed : ((Ruleset.parse none mixedListText).map fun r =>
      ((r.settings.nullValues, r.settings.separator, r.settings.precision),
        r.allRules.map fun rule => (rule.describe?, decide rule.constraint.IsPlain)))
      = .ok ((commaSettings.nullValues, commaSettings.separator, commaSettings.precision),
        [(some "is in [\"it's\", 0, 2.5, 5e-324]", true)]) := by decide +kernel
  obtain ⟨ruleset, hparse, hparsed⟩ := map_eq_ok_iff.mp hparsed
  obtain ⟨hsettings, hrules⟩ := Prod.mk.inj hparsed
  obtain ⟨rule, hall, hrule⟩ := List.map_eq_singleton_iff.mp hrules
  obtain ⟨hdescribe, hplain⟩ := Prod.mk.inj hrule
  obtain ⟨hnull, hsettings⟩ := Prod.mk.inj hsettings
  obtain ⟨hseparator, hprecision⟩ := Prod.mk.inj hsettings
  have hcomma : ruleset.settings = commaSettings :=
    Settings.eq_of_fields hnull hseparator hprecision
  have hcolumn : commaColumn.settings = .ok ruleset.settings := by
    rw [hcomma, RulesReader.settings, Draft.settings_eq_ok rfl]
    rfl
  have hsep : ruleset.settings.separator ≠ some .point := by
    rw [hcomma]
    decide
  have hroom : commaColumn.HasRoom "c" rule.constraint := by
    have hempty : (commaColumn.draft.rules? "c").getD [] = [] := rfl
    simp [RulesReader.HasRoom, hempty]
  have hmem : rule ∈ ruleset.allRules := by
    rw [hall]
    exact List.mem_singleton_self rule
  obtain ⟨phrase, ts, hphrase, hlines, hread⟩ := Ruleset.readLine_describe none mixedListText
    ruleset rule hparse hsep hmem (of_decide_eq_true hplain)
  exact ⟨ruleset, rule, phrase, ts, hparse, hsep, hmem, of_decide_eq_true hplain, hphrase,
    Option.some.inj (hphrase.symm.trans hdescribe), hlines, rfl, hcolumn, hroom,
    hread commaColumn "c" 4 rfl hcolumn hroom⟩

end TableRules
