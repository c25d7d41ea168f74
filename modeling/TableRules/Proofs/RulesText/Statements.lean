import TableRules.Proofs.RulesText.RulePhrases

/-!
# The grammar of statements

`IsStatement` says which sequences of tokens are a statement, and which one: the words of the
statement in any letter case, and its arguments.

* A line is read as a statement, with nothing left over, exactly if it is one
  (`Statement.read?_eq_some_iff`).
* What a statement does is split in two: `Draft.perform` is the declaration it makes, which may be
  refused, and `Statement.place` is where it leaves the reader. A statement is performed exactly if
  nothing follows it and its declaration is accepted (`RulesReader.perform_eq_ok_iff`).
* The lines outside unfinished conditional rules that are read are the statements and, in a block,
  the rules that it has room for (`RulesReader.readPlainLine_eq_ok_iff`).
-/

namespace TableRules

open Tokens Result

variable {s : Settings} {catalog : Catalog} {c : Constraint} {t colon : Token}
  {ts ws rest left : List Token} {words : List String} {name what : String}

/-! ### Names and lists of strings -/

/-- A token is a name: a word, or a string that is not empty. -/
def IsName (t : Token) : Prop := (t.kind = .string ∨ t.kind = .word) ∧ t.value ≠ ""

theorem readName_eq_ok_iff :
    readName what ts = .ok (name, left) ↔ ∃ t, ts = t :: left ∧ IsName t ∧ t.value = name := by
  have haccept : (accept? .string ts).or (accept? .word ts) = some (name, left) ↔
      ∃ t, ts = t :: left ∧ (t.kind = .string ∨ t.kind = .word) ∧ t.value = name := by
    rw [Option.or_eq_some_iff, accept?_eq_some_iff, accept?_eq_some_iff]
    constructor
    · rintro (⟨t, rfl, hkind, rfl⟩ | ⟨-, t, rfl, hkind, rfl⟩)
      · exact ⟨t, rfl, .inl hkind, rfl⟩
      · exact ⟨t, rfl, .inr hkind, rfl⟩
    · rintro ⟨t, rfl, hkind | hkind, rfl⟩
      · exact .inl ⟨t, rfl, hkind, rfl⟩
      · exact .inr ⟨accept?_of_ne (by rw [hkind]; decide) _, t, rfl, hkind, rfl⟩
  have hread : readName what ts = .ok (name, left) ↔
      (accept? .string ts).or (accept? .word ts) = some (name, left) ∧ name ≠ "" := by
    unfold readName
    split
    · rename_i hnone
      simp [hnone, refuse]
    · rename_i name' rest hsome
      rw [hsome, Option.some.injEq, Prod.mk.injEq]
      split_ifs with hempty
      · rw [String.isEmpty_iff] at hempty
        simp only [refuse, reduceCtorEq, false_iff, not_and, not_not]
        rintro ⟨rfl, -⟩
        exact hempty
      · rw [String.isEmpty_iff] at hempty
        rw [Except.ok.injEq, Prod.mk.injEq, iff_self_and]
        rintro ⟨rfl, -⟩
        exact hempty
  rw [hread, haccept]
  constructor
  · rintro ⟨⟨t, rfl, hkind, rfl⟩, hne⟩
    exact ⟨t, rfl, ⟨hkind, hne⟩, rfl⟩
  · rintro ⟨t, rfl, ⟨hkind, hne⟩, rfl⟩
    exact ⟨⟨t, rfl, hkind, rfl⟩, hne⟩

theorem readName_cons (h : IsName t) : readName what (t :: left) = .ok (t.value, left) :=
  readName_eq_ok_iff.mpr ⟨t, rfl, h, rfl⟩

/-- Strings as the members of a list. -/
def textItems (texts : List String) : List SetItem := texts.map fun text => .text (.text text)

/-- Every member of a written list is written as a token of it. -/
theorem IsList.exists_item {items : List SetItem} {item : SetItem} (h : IsList s items ts)
    (hitem : item ∈ items) : ∃ t ∈ ts, IsItem s item t := by
  have htail : ∀ {items ts}, IsTail s items ts → ∀ item ∈ items, ∃ t ∈ ts, IsItem s item t := by
    intro items ts h
    induction h with
    | last h => exact List.forall_mem_singleton.mpr ⟨_, List.mem_cons_self, h⟩
    | more h _ _ ih =>
      refine List.forall_mem_cons.mpr ⟨⟨_, List.mem_cons_self, h⟩, fun item hitem => ?_⟩
      obtain ⟨t, ht, hread⟩ := ih item hitem
      exact ⟨t, List.mem_cons_of_mem _ (List.mem_cons_of_mem _ ht), hread⟩
  cases h with
  | empty => simp at hitem
  | items _ h =>
    obtain ⟨t, ht, hread⟩ := htail h item hitem
    exact ⟨t, List.mem_cons_of_mem _ ht, hread⟩

/-- The members of a list as it is written are strings and doubles. -/
theorem IsList.mem_items {items : List SetItem} {item : SetItem} (h : IsList s items ts)
    (hitem : item ∈ items) :
    (∃ text, item = .text (.text text)) ∨ ∃ x, item = .number (.real x) := by
  obtain ⟨t, -, hread⟩ := h.exists_item hitem
  cases hread with
  | text => exact .inl ⟨_, rfl⟩
  | number => exact .inr ⟨_, rfl⟩

/-- The string that a member of a list stands for, if it is a string. -/
private def itemText? : SetItem → Option String
  | .text w => some w.value
  | .number _ => none

/-- The members of a written list stand for given strings exactly if they are those strings: no
written list holds a value type in place of its name. -/
private theorem mapM_itemText?_iff {items : List SetItem} {texts : List String}
    (h : IsList s items ts) : items.mapM itemText? = some texts ↔ items = textItems texts := by
  have hitems := fun item (hitem : item ∈ items) => h.mem_items hitem
  rw [mapM_eq_some_iff, textItems, ← List.forall₂_eq_eq_eq, List.forall₂_map_right_iff]
  constructor
  · intro h
    refine ((List.forall₂_and_left items texts).mpr ⟨hitems, h⟩).imp fun item text h => ?_
    obtain ⟨⟨text', rfl⟩ | ⟨x, rfl⟩, h⟩ := h
    · rw [← Option.some.inj h, Wording.value]
    · simp [itemText?] at h
  · intro h
    refine h.imp fun item text h => ?_
    rw [h, itemText?, Wording.value]

private theorem readTexts_eq :
    readTexts what s ts = match readList s ts with
      | .error e => .error e
      | .ok (items, rest) => match items.mapM itemText? with
        | some texts => .ok (texts, rest)
        | none => refuse (.notTexts what) := by
  rw [readTexts]
  rfl

/-- Strings are read from a list exactly if its members are those strings. -/
theorem readTexts_eq_ok_iff {texts : List String} :
    readTexts what s ts = .ok (texts, left) ↔
      ∃ list, ts = list ++ left ∧ IsList s (textItems texts) list := by
  have hread : readTexts what s ts = .ok (texts, left) ↔
      ∃ items, readList s ts = .ok (items, left) ∧ items.mapM itemText? = some texts := by
    rw [readTexts_eq]
    cases readList s ts with
    | error e => simp
    | ok r =>
      obtain ⟨items, rest⟩ := r
      cases htexts : items.mapM itemText? with
      | none =>
        simp only [htexts, refuse, reduceCtorEq, Except.ok.injEq, Prod.mk.injEq, false_iff,
          not_exists]
        rintro items' ⟨⟨rfl, -⟩, htexts'⟩
        simp [htexts] at htexts'
      | some texts' =>
        simp only [htexts, Except.ok.injEq, Prod.mk.injEq]
        constructor
        · rintro ⟨rfl, rfl⟩
          exact ⟨items, ⟨rfl, rfl⟩, htexts⟩
        · rintro ⟨items', ⟨rfl, rfl⟩, htexts'⟩
          exact ⟨Option.some.inj (htexts.symm.trans htexts'), rfl⟩
  rw [hread]
  constructor
  · rintro ⟨items, hread, htexts⟩
    obtain ⟨list, rfl, hlist⟩ := readList_eq_ok_iff.mp hread
    exact ⟨list, rfl, (mapM_itemText?_iff hlist).mp htexts ▸ hlist⟩
  · rintro ⟨list, rfl, hlist⟩
    exact ⟨_, readList_eq_ok_iff.mpr ⟨list, rfl, hlist⟩, (mapM_itemText?_iff hlist).mpr rfl⟩

/-- What is a list of strings is one under all settings. -/
theorem IsList.of_textItems {s' : Settings} {texts : List String}
    (h : IsList s (textItems texts) ts) : IsList s' (textItems texts) ts := by
  have htail : ∀ {items ts}, IsTail s items ts → (∀ item ∈ items, ∃ w, item = .text w) →
      IsTail s' items ts := by
    have hone : ∀ {item t}, IsItem s item t → (∃ w, item = .text w) → IsItem s' item t := by
      rintro item t (ht | ⟨-, -⟩) ⟨w, hw⟩
      · exact .text ht
      · simp at hw
    intro items ts h hitems
    induction h with
    | last h hclose => exact .last (hone h (hitems _ List.mem_cons_self)) hclose
    | more h hcomma _ ih =>
      obtain ⟨hitem, hitems⟩ := List.forall_mem_cons.mp hitems
      exact .more (hone h hitem) hcomma (ih hitems)
  have hitems : ∀ item ∈ textItems texts, ∃ w, item = .text w := by simp [textItems]
  generalize textItems texts = items at h hitems
  cases h with
  | empty hopen hclose => exact .empty hopen hclose
  | items hopen h => exact .items hopen (htail h hitems)

/-! ### The grammar -/

/-- The words before the precision. -/
def precisionForms : List (List String) := [["precision", "is"], ["numeric", "precision", "is"]]

/-- The statements that are words only. -/
def flagForms : List (List String × Statement) :=
  [(["all", "columns", "required"], .requireAll),
   (["no", "extra", "columns", "allowed"], .forbidExtra),
   (["check", "column", "order"], .keepOrder)]

/-- Tokens that are a statement. -/
inductive IsStatement (s : Settings) : Statement → List Token → Prop
  | columnNames {names : List String} {ws ts : List Token}
      (hws : Keywords ["column", "names", "in"] ws) (hlist : IsList s (textItems names) ts) :
      IsStatement s (.columnNames names) (ws ++ ts)
  | nullValues {values : List String} {ws ts : List Token}
      (hws : Keywords ["allowed", "null", "values", "in"] ws)
      (hlist : IsList s (textItems values) ts) : IsStatement s (.nullValues values) (ws ++ ts)
  | separator {ws : List Token} {t : Token} (hws : Keywords ["thousands", "separator", "is"] ws)
      (hkind : t.kind = .string) : IsStatement s (.separator t.value) (ws ++ [t])
  | precision {words : List String} {ws : List Token} {t : Token} {x : Double}
      (h : words ∈ precisionForms) (hws : Keywords words ws) (hkind : t.kind = .number)
      (hreal : parseReal? t.value s = some x) : IsStatement s (.precision x) (ws ++ [t])
  | flag {words : List String} {st : Statement} {ws : List Token} (h : (words, st) ∈ flagForms)
      (hws : Keywords words ws) : IsStatement s st ws
  | openBlock {ws : List Token} {colon t : Token} (hws : Keywords ["column"] ws)
      (hcolon : colon.kind = .colon) (hname : IsName t) :
      IsStatement s (.openBlock t.value) (ws ++ [colon, t])
  | openConditional {ws : List Token} {colon t : Token} (hws : Keywords ["conditional", "rule"] ws)
      (hcolon : colon.kind = .colon) (hname : IsName t) :
      IsStatement s (.openConditional t.value) (ws ++ [colon, t])

namespace Statement

variable {st : Statement}

theorem columnHead?_eq_some_iff :
    columnHead? ts = some rest ↔ ∃ ws colon, Keywords ["column"] ws ∧ colon.kind = .colon ∧
      ts = ws ++ colon :: rest := by
  simp only [columnHead?, Option.map_eq_some_iff, Option.bind_eq_some_iff, dropWords?_eq_some_iff,
    Prod.exists, accept?_eq_some_iff]
  constructor
  · rintro ⟨value, _, ⟨after, ⟨ws, hws, rfl⟩, colon, rfl, hcolon, -⟩, rfl⟩
    exact ⟨ws, colon, hws, hcolon, rfl⟩
  · rintro ⟨ws, colon, hws, hcolon, rfl⟩
    exact ⟨colon.value, rest, ⟨_, ⟨ws, hws, rfl⟩, colon, rfl, hcolon, rfl⟩, rfl⟩

variable {p : Phrase Statement}

/-- The phrases of statements that are read from a table, grouped by the arguments they take. -/
inductive Entry (s : Settings) : Phrase Statement → Prop
  | columnNames : Entry s ⟨["column", "names", "in"], fun ts =>
      (readTexts "column names" s ts).map fun (names, rest) => (.columnNames names, rest)⟩
  | nullValues : Entry s ⟨["allowed", "null", "values", "in"], fun ts =>
      (readTexts "null values" s ts).map fun (values, rest) => (.nullValues values, rest)⟩
  | separator : Entry s ⟨["thousands", "separator", "is"], fun ts =>
      (expect .string "a quoted separator" ts).map fun (s, rest) => (.separator s, rest)⟩
  | precision {words : List String} (h : words ∈ precisionForms) :
      Entry s ⟨words, fun ts => (readReal s ts).map fun (x, rest) => (.precision x, rest)⟩
  | flag {words : List String} {st : Statement} (h : (words, st) ∈ flagForms) :
      Entry s (.bare words st)
  | openConditional : Entry s ⟨["conditional", "rule"], fun ts =>
      (expect .colon "':'" ts).bind fun (_, rest) =>
        (readName "a conditional rule name" rest).map fun (name, after) =>
          (.openConditional name, after)⟩

theorem mem_phrases_iff : p ∈ phrases s ↔ Entry s p := by
  constructor
  · have hall : ∀ p ∈ phrases s, Entry s p := by
      simp only [phrases, List.forall_mem_cons, List.not_mem_nil, false_imp_iff, implies_true,
        and_true]
      refine ⟨.columnNames, .openConditional, .nullValues, .separator, .precision ?_,
        .precision ?_, .flag ?_, .flag ?_, .flag ?_⟩
      all_goals simp [precisionForms, flagForms]
    exact hall p
  · intro h
    cases h with
    | precision h =>
      have hall : ∀ words ∈ precisionForms, ⟨words, fun ts => (readReal s ts).map
          fun (x, rest) => (.precision x, rest)⟩ ∈ phrases s := by
        simp [precisionForms, phrases]
      exact hall _ h
    | flag h =>
      have hall : ∀ form ∈ flagForms, .bare form.1 form.2 ∈ phrases s := by
        simp [flagForms, phrases]
      exact hall _ h
    | _ => simp [phrases]

/-- **What is read as a statement** is one. -/
theorem isStatement_of_read? (h : read? s ts = some (.ok (st, []))) : IsStatement s st ts := by
  unfold read? at h
  split at h
  · rename_i rest hhead
    obtain ⟨ws, colon, hws, hcolon, rfl⟩ := columnHead?_eq_some_iff.mp hhead
    obtain ⟨⟨name, after⟩, hread, heq⟩ := map_eq_ok_iff.mp (Option.some.inj h)
    obtain ⟨rfl, rfl⟩ := Prod.mk.inj heq
    obtain ⟨t, rfl, hname, rfl⟩ := readName_eq_ok_iff.mp hread
    exact .openBlock hws hcolon hname
  obtain ⟨p, hp, ws, rest, hws, rfl, hread⟩ := Phrase.exists_of_readFirst? h
  cases mem_phrases_iff.mp hp with
  | columnNames =>
    obtain ⟨⟨names, left⟩, hnames, heq⟩ := map_eq_ok_iff.mp hread.symm
    obtain ⟨rfl, rfl⟩ := Prod.mk.inj heq
    obtain ⟨list, rfl, hlist⟩ := readTexts_eq_ok_iff.mp hnames
    rw [List.append_nil]
    exact .columnNames hws hlist
  | nullValues =>
    obtain ⟨⟨values, left⟩, hvalues, heq⟩ := map_eq_ok_iff.mp hread.symm
    obtain ⟨rfl, rfl⟩ := Prod.mk.inj heq
    obtain ⟨list, rfl, hlist⟩ := readTexts_eq_ok_iff.mp hvalues
    rw [List.append_nil]
    exact .nullValues hws hlist
  | separator =>
    obtain ⟨⟨value, left⟩, hexpect, heq⟩ := map_eq_ok_iff.mp hread.symm
    obtain ⟨rfl, rfl⟩ := Prod.mk.inj heq
    obtain ⟨t, rfl, hkind, rfl⟩ := expect_eq_ok_iff.mp hexpect
    exact .separator hws hkind
  | precision hform =>
    obtain ⟨⟨x, left⟩, hreal, heq⟩ := map_eq_ok_iff.mp hread.symm
    obtain ⟨rfl, rfl⟩ := Prod.mk.inj heq
    obtain ⟨t, rfl, hkind, hreal⟩ := readReal_eq_ok_iff.mp hreal
    exact .precision hform hws hkind hreal
  | flag hform =>
    obtain ⟨rfl, rfl⟩ := Prod.mk.inj (Except.ok.inj hread)
    rw [List.append_nil]
    exact .flag hform hws
  | openConditional =>
    obtain ⟨⟨value, after⟩, hexpect, hafter⟩ := bind_eq_ok_iff.mp hread.symm
    obtain ⟨colon, rfl, hcolon, -⟩ := expect_eq_ok_iff.mp hexpect
    obtain ⟨⟨name, left⟩, hread', heq⟩ := map_eq_ok_iff.mp hafter
    obtain ⟨rfl, rfl⟩ := Prod.mk.inj heq
    obtain ⟨t, rfl, hname, rfl⟩ := readName_eq_ok_iff.mp hread'
    exact .openConditional hws hcolon hname

/-- Two words do not start the head of a block. -/
theorem columnHead?_eq_none {word word' : String} (hws : Keywords (word :: word' :: words) ws) :
    columnHead? (ws ++ rest) = none := by
  rw [Option.eq_none_iff_forall_not_mem]
  intro after hafter
  obtain ⟨head, colon, hhead, hcolon, htext⟩ := columnHead?_eq_some_iff.mp hafter
  cases hws with
  | @cons _ t _ ws _ hws =>
    cases hws with
    | @cons _ t' _ ws hword' =>
      cases hhead with
      | cons _ hnil =>
        cases hnil
        obtain rfl := (List.cons.inj (List.cons.inj htext).2).1
        exact absurd (hword'.1.symm.trans hcolon) (by decide)

/-- The words of a phrase and its arguments are read as the phrase. -/
private theorem read?_append (hp : Entry s p) (hws : Keywords p.words ws)
    (hrest : ∀ t ∈ rest.head?, t.kind ≠ .word) (h : p.arguments rest = .ok (st, [])) :
    read? s (ws ++ rest) = some (.ok (st, [])) := by
  have htable : (phrases s).Pairwise fun p q => ¬ p.words <+: q.words ++ [] := by
    have hall : ((phrases s).map Phrase.words).Pairwise fun ws vs => ¬ ws <+: vs ++ [] := by
      simp only [phrases, Phrase.bare, List.map_cons, List.map_nil]
      decide
    exact List.pairwise_map.mp hall
  have hmem := mem_phrases_iff.mpr hp
  have hhead : columnHead? (ws ++ rest) = none := by
    have hall : ∀ words ∈ (phrases s).map Phrase.words, 2 ≤ words.length := by
      simp only [phrases, Phrase.bare, List.map_cons, List.map_nil]
      decide
    have hlength := hall p.words (List.mem_map_of_mem hmem)
    rcases hwords : p.words with _ | ⟨word, _ | ⟨word', words⟩⟩
    · simp [hwords] at hlength
    · simp [hwords] at hlength
    · exact columnHead?_eq_none (hwords ▸ hws)
  have hread := Phrase.readFirst?_eq htable hmem hws (.nil : Keywords [] []) hrest
  rw [List.nil_append, h] at hread
  rw [read?, hhead]
  exact hread

end Statement

/-- **Statements are read as such**, with nothing left over. -/
theorem IsStatement.read?_eq_some {st : Statement} (h : IsStatement s st ts) :
    Statement.read? s ts = some (.ok (st, [])) := by
  have hkind : ∀ {kind : TokenKind} {t : Token} {ts : List Token}, t.kind = kind → kind ≠ .word →
      ∀ t' ∈ (t :: ts).head?, t'.kind ≠ .word := by
    rintro kind t ts hkind hne t' ⟨⟩
    exact hkind ▸ hne
  have hlist : ∀ {items ts}, IsList s items ts → ∀ t ∈ ts.head?, t.kind ≠ .word := by
    rintro items ts (⟨hopen, -⟩ | ⟨hopen, -⟩)
    · exact hkind hopen (by decide)
    · exact hkind hopen (by decide)
  cases h with
  | @columnNames names ws ts hws h =>
    have hread : readTexts "column names" s ts = .ok (names, []) :=
      readTexts_eq_ok_iff.mpr ⟨ts, (List.append_nil ts).symm, h⟩
    exact Statement.read?_append .columnNames hws (hlist h) (map_eq_ok_iff.mpr ⟨_, hread, rfl⟩)
  | @nullValues values ws ts hws h =>
    have hread : readTexts "null values" s ts = .ok (values, []) :=
      readTexts_eq_ok_iff.mpr ⟨ts, (List.append_nil ts).symm, h⟩
    exact Statement.read?_append .nullValues hws (hlist h) (map_eq_ok_iff.mpr ⟨_, hread, rfl⟩)
  | separator hws ht =>
    exact Statement.read?_append .separator hws (hkind ht (by decide))
      (map_eq_ok_iff.mpr ⟨_, expect_eq_ok_iff.mpr ⟨_, rfl, ht, rfl⟩, rfl⟩)
  | precision hform hws ht hreal =>
    exact Statement.read?_append (.precision hform) hws (hkind ht (by decide))
      (map_eq_ok_iff.mpr ⟨_, readReal_eq_ok_iff.mpr ⟨_, rfl, ht, hreal⟩, rfl⟩)
  | flag hform hws =>
    have hend : ∀ t ∈ ([] : List Token).head?, t.kind ≠ .word := by simp
    have hread := Statement.read?_append (s := s) (.flag hform) hws hend rfl
    rwa [List.append_nil] at hread
  | openBlock hws hcolon hname =>
    rw [Statement.read?, Statement.columnHead?_eq_some_iff.mpr ⟨_, _, hws, hcolon, rfl⟩]
    exact congrArg some (map_eq_ok_iff.mpr ⟨_, readName_cons hname, rfl⟩)
  | openConditional hws hcolon hname =>
    exact Statement.read?_append .openConditional hws (hkind hcolon (by decide))
      (bind_eq_ok_iff.mpr ⟨_, expect_eq_ok_iff.mpr ⟨_, rfl, hcolon, rfl⟩,
        map_eq_ok_iff.mpr ⟨_, readName_cons hname, rfl⟩⟩)

/-- Tokens are read as a statement, with nothing left over, exactly if they are one. -/
theorem Statement.read?_eq_some_iff {st : Statement} :
    read? s ts = some (.ok (st, [])) ↔ IsStatement s st ts :=
  ⟨isStatement_of_read?, IsStatement.read?_eq_some⟩

/-- Tokens are at most one statement. -/
theorem IsStatement.unique {st st' : Statement} (h : IsStatement s st ts)
    (h' : IsStatement s st' ts) : st' = st := by
  have heq := h'.read?_eq_some.symm.trans h.read?_eq_some
  exact (Prod.mk.inj (Except.ok.inj (Option.some.inj heq))).1

/-! ### What statements do -/

/-- The declaration that a statement makes; the head of a conditional rule makes none, but its name
must be new. -/
def Draft.perform (d : Draft) : Statement → Except DraftFault Draft
  | .columnNames names => d.declareColumns names
  | .nullValues values => d.declareNullValues values
  | .separator text => d.declareSeparator (some text)
  | .precision x => d.declarePrecision (.real x)
  | .requireAll => .ok d.requireAll
  | .forbidExtra => .ok d.forbidExtra
  | .keepOrder => .ok d.keepOrder
  | .openBlock column => d.beginColumn column
  | .openConditional name =>
    if d.hasConditional name then .error (.repeatedConditional name) else .ok d

/-- Where the lines after a statement stand. -/
def Statement.place (line : Int) : Statement → Position
  | .openBlock column => .inBlock column
  | .openConditional name => .inConditional ⟨name, line, .opened⟩
  | _ => .outside

namespace RulesReader

variable {r r' : RulesReader} {n : Int} {line : TokenLine} {column : String}

private theorem declareAll_eq_ok_iff (r : RulesReader) {declared : Except DraftFault Draft} :
    r.declareAll declared rest = .ok r' ↔
      rest = [] ∧ ∃ d, declared = .ok d ∧ r' = ⟨d, .outside⟩ := by
  simp only [declareAll, bind_eq_ok_iff, declare_eq_ok_iff, expectEnd_eq_ok_iff, pure, Except.pure,
    Except.ok.injEq]
  constructor
  · rintro ⟨d, hd, -, rfl, rfl⟩
    exact ⟨rfl, d, hd, rfl⟩
  · rintro ⟨rfl, d, hd, rfl⟩
    exact ⟨d, hd, (), rfl, rfl⟩

/-- **A statement is performed** exactly if nothing follows it and its declaration is accepted. -/
theorem perform_eq_ok_iff {st : Statement} :
    r.perform n st rest = .ok r' ↔
      rest = [] ∧ ∃ d, r.draft.perform st = .ok d ∧ r' = ⟨d, st.place n⟩ := by
  cases st with
  | openBlock column =>
    simp only [perform, openBlock, Draft.perform, Statement.place]
    cases rest with
    | nil =>
      simp only [List.isEmpty_nil, if_true, bind_eq_ok_iff, declare_eq_ok_iff, pure, Except.pure,
        Except.ok.injEq, true_and]
      exact exists_congr fun d => and_congr_right fun _ => eq_comm
    | cons t rest =>
      simp only [List.isEmpty_cons, Bool.false_eq_true, if_false, reduceCtorEq, false_and,
        iff_false]
      split <;> simp [refuse]
  | openConditional name =>
    simp only [perform, openConditional, Draft.perform, Statement.place, bind_eq_ok_iff,
      expectEnd_eq_ok_iff]
    split_ifs with hname
    · simp [refuse]
    · simp only [pure, Except.pure, Except.ok.injEq, exists_eq_left']
      constructor
      · rintro ⟨-, hrest, h⟩
        exact ⟨hrest, h.symm⟩
      · rintro ⟨hrest, h⟩
        exact ⟨(), hrest, h.symm⟩
  | _ => exact declareAll_eq_ok_iff r

end RulesReader

/-! ### Lines outside unfinished conditional rules -/

/-- Tokens that state a constraint and can be read: a count among them has at most 4300 digits. -/
def IsRule (s : Settings) (catalog : Catalog) (c : Constraint) (ts : List Token) : Prop :=
  IsPhrase s catalog c ts ∧
    (c.hasCount = true → ∀ t ∈ ts, t.kind = .number → ∀ ds, IsWhole s t.value ds →
      ds.length ≤ digitLimit)

theorem IsRule.readConstraint_eq_ok (h : IsRule s catalog c ts) :
    readConstraint s catalog ts = .ok c := by
  have hcounts : ∀ form ∈ countForms, ∀ n, (form.2 n).hasCount = true := by
    simp [countForms, Constraint.hasCount]
  obtain ⟨hphrase, hfits⟩ := h
  rcases hphrase.readConstraint_eq with hread | ⟨words, make, ws, t, ds, hform, -, hkind, hwhole,
    hlimit, rfl, rfl⟩
  · exact hread
  · have hle := hfits (hcounts _ hform _) t (List.mem_append_right ws List.mem_cons_self) hkind ds
      hwhole
    exact absurd hlimit (Nat.not_lt.mpr hle)

/-- Tokens are read as a constraint exactly if they state it and have no count that is too long. -/
theorem readConstraint_eq_ok_iff (hts : NoSpaces ts) :
    readConstraint s catalog ts = .ok c ↔ IsRule s catalog c ts := by
  refine ⟨fun h => ⟨isPhrase_of_readConstraint hts h, fun hcount t ht hkind ds hwhole => ?_⟩,
    IsRule.readConstraint_eq_ok⟩
  have hnone : ∀ form ∈ bareForms, form.2.hasCount = false := by decide
  have htext : ∀ form ∈ textForms, ∀ w, (form.2 w).hasCount = false := by
    simp [textForms, Constraint.hasCount]
  cases isPhrase_of_readConstraint hts h with
  | count hform hws hkind' hwhole' =>
    -- the number of the line is its last token, since the others are words
    rcases List.mem_append.mp ht with ht | ht
    · obtain ⟨word, -, hword⟩ := exists_mem_of_forall₂ hws.flip ht
      exact absurd (hword.1.symm.trans hkind) (by decide)
    · obtain rfl := List.mem_singleton.mp ht
      obtain rfl := hwhole'.unique hwhole
      rw [readConstraint_count hform hws hkind hwhole] at h
      split_ifs at h with hlimit
      exact Nat.le_of_not_lt hlimit
  | bare hform => simp [hnone _ hform] at hcount
  | text hform => simp [htext _ hform] at hcount
  | _ => simp [Constraint.hasCount] at hcount

namespace RulesReader

variable {r r' : RulesReader} {line : TokenLine}

private theorem readPlainLine_eq (hs : r.settings = .ok s) :
    r.readPlainLine catalog line = match Statement.read? s line.tokens with
      | some (.error e) => .error e
      | some (.ok (st, rest)) => r.perform line.number st rest
      | none => r.readBlockRule catalog s line := by
  rw [readPlainLine, hs]
  rfl

/-- **A line outside unfinished conditional rules** is read exactly if it is a statement whose
declaration is accepted, or a rule that the open block has room for. -/
theorem readPlainLine_eq_ok_iff (hts : NoSpaces line.tokens) (hs : r.settings = .ok s) :
    r.readPlainLine catalog line = .ok r' ↔
      (∃ st d, IsStatement s st line.tokens ∧ r.draft.perform st = .ok d ∧
        r' = ⟨d, st.place line.number⟩) ∨
      ∃ column c, r.place = .inBlock column ∧ IsRule s catalog c line.tokens ∧
        r.HasRoom column c ∧ r' = r.withRule column ⟨c, some line.number⟩ := by
  rw [readPlainLine_eq hs]
  constructor
  · intro h
    split at h
    · simp at h
    · rename_i st rest hread
      obtain ⟨rfl, d, hd, rfl⟩ := perform_eq_ok_iff.mp h
      exact .inl ⟨st, d, Statement.isStatement_of_read? hread, hd, rfl⟩
    · cases hplace : r.place with
      | inBlock column =>
        obtain ⟨c, hc, hroom, rfl⟩ := (readBlockRule_eq_ok_iff hplace).mp h
        exact .inr ⟨column, c, rfl, (readConstraint_eq_ok_iff hts).mp hc, hroom, rfl⟩
      | _ => simp [readBlockRule, hplace, refuse] at h
  · rintro (⟨st, d, hst, hd, rfl⟩ | ⟨column, c, hplace, hc, hroom, rfl⟩)
    · rw [hst.read?_eq_some]
      exact perform_eq_ok_iff.mpr ⟨rfl, d, hd, rfl⟩
    · rw [hc.1.read?_eq_none]
      exact (readBlockRule_eq_ok_iff hplace).mpr ⟨c, hc.readConstraint_eq_ok, hroom, rfl⟩

end RulesReader

end TableRules
