import TableRules.Proofs.RulesText.Sections

/-!
# Respelled tokens

Tokens are **respelled** if each keeps its kind and its value, except that words may change the case
of their letters (`Token.Respells`). Where the head of a block, of a clause or of a conditional rule
is followed by a name (`NameFollows`), a word is that name and keeps its letters too (`Respelled`).

Words are compared without regard to letter case, and no reader looks at the columns of tokens. So
respelled tokens are the same rule, clause or statement.
-/

namespace TableRules

open Tokens Result

variable {s : Settings} {catalog : Catalog} {c : Constraint} {t t' : Token} {kind : TokenKind}
  {before before' ts ts' us : List Token} {words : List String}

/-- A token that reads like another one: of the same kind and with the same value, which may differ
in letter case if the token is a word. -/
structure Token.Respells (t t' : Token) : Prop where
  kind : t'.kind = t.kind
  lower : Text.lowerAscii t'.value = Text.lowerAscii t.value
  value : t.kind ≠ .word → t'.value = t.value

/-- The words that a colon and a name follow. -/
def nameHeads : List (List String) := [["column"], ["conditional", "rule"]]

/-- Tokens that a name follows: they end with the words of a head and its colon. -/
def NameFollows (before : List Token) : Prop :=
  ∃ words ∈ nameHeads, ∃ init ws colon, Keywords words ws ∧ colon.kind = .colon ∧
    before = init ++ (ws ++ [colon])

/-- Tokens that stand after others are respelled one by one; names keep their letters. -/
inductive Respelled : List Token → List Token → List Token → Prop
  | nil {before : List Token} : Respelled before [] []
  | cons {before ts ts' : List Token} {t t' : Token} (h : t.Respells t')
      (hname : NameFollows before → t'.value = t.value) (hs : Respelled (before ++ [t]) ts ts') :
      Respelled before (t :: ts) (t' :: ts')

/-! ### Single tokens -/

theorem Token.Respells.symm (h : t.Respells t') : t'.Respells t :=
  ⟨h.kind.symm, h.lower.symm, fun hne => (h.value (h.kind ▸ hne)).symm⟩

/-- All tokens but words keep their values. -/
theorem Token.Respells.value_eq (h : t.Respells t') (hkind : t.kind = kind) (hne : kind ≠ .word) :
    t'.kind = kind ∧ t'.value = t.value :=
  ⟨h.kind.trans hkind, h.value (hkind ▸ hne)⟩

theorem IsKeyword.respells {word : String} (h : IsKeyword word t) (ht : t.Respells t') :
    IsKeyword word t' :=
  ⟨ht.kind.trans h.1, ht.lower.trans h.2⟩

theorem Keywords.respells (h : Keywords words ts) (ht : List.Forall₂ Token.Respells ts ts') :
    Keywords words ts' := by
  induction h generalizing ts' with
  | nil =>
    cases ht
    exact .nil
  | cons hword _ ih =>
    cases ht with
    | cons ht hts => exact .cons (hword.respells ht) (ih hts)

theorem NameFollows.respells (h : NameFollows before)
    (ht : List.Forall₂ Token.Respells before before') : NameFollows before' := by
  obtain ⟨words, hwords, init, ws, colon, hws, hcolon, rfl⟩ := h
  obtain ⟨init', tail', rfl, -, htail⟩ := exists_append_of_forall₂ ht
  obtain ⟨ws', last', rfl, hws', hlast⟩ := exists_append_of_forall₂ htail
  obtain ⟨colon', rfl, hcolon'⟩ := exists_of_forall₂_singleton hlast
  exact ⟨words, hwords, init', ws', colon', hws.respells hws', hcolon'.kind.trans hcolon, rfl⟩

/-! ### Sequences -/

theorem Respelled.tokens (h : Respelled before ts ts') : List.Forall₂ Token.Respells ts ts' := by
  induction h with
  | nil => exact .nil
  | cons h _ _ ih => exact .cons h ih

/-- Tokens that are respelled are a respelling of the result. -/
theorem Respelled.symm (h : Respelled before ts ts')
    (hbefore : List.Forall₂ Token.Respells before before') : Respelled before' ts' ts := by
  induction h generalizing before' with
  | nil => exact .nil
  | cons h hname _ ih =>
    refine .cons h.symm (fun hfollows => (hname ?_).symm) (ih (List.rel_append hbefore ?_))
    · exact hfollows.respells (hbefore.flip.imp fun _ _ => Token.Respells.symm)
    · exact .cons h .nil

/-- What stands at the end of a respelled sequence is respelled after what stands before it. -/
theorem Respelled.exists_append (h : Respelled before (us ++ ts) ts') :
    ∃ us' vs', ts' = us' ++ vs' ∧ List.Forall₂ Token.Respells us us' ∧
      Respelled (before ++ us) ts vs' := by
  induction us generalizing before ts' with
  | nil => exact ⟨[], ts', rfl, .nil, by rwa [List.append_nil]⟩
  | cons u us ih =>
    cases h with
    | cons hu hname hs =>
      obtain ⟨us', vs', rfl, hus, hts⟩ := ih hs
      refine ⟨_ :: us', vs', rfl, .cons hu hus, ?_⟩
      rwa [List.append_assoc] at hts

/-- The name after a head keeps its letters. -/
theorem Respelled.exists_name {ws rest : List Token} {colon : Token} (hwords : words ∈ nameHeads)
    (hws : Keywords words ws) (hcolon : colon.kind = .colon) (hname : IsName t)
    (h : Respelled before (ws ++ colon :: t :: rest) ts') :
    ∃ ws' colon' t' rest', ts' = ws' ++ colon' :: t' :: rest' ∧ Keywords words ws' ∧
      colon'.kind = .colon ∧ IsName t' ∧ t'.value = t.value ∧
      List.Forall₂ Token.Respells rest rest' := by
  obtain ⟨ws', tail', rfl, hws', htail⟩ := h.exists_append
  cases htail with
  | cons hcolon' _ htail =>
    cases htail with
    | cons ht hvalue hrest =>
      have hfollows : NameFollows (before ++ ws ++ [colon]) :=
        ⟨words, hwords, before, ws, colon, hws, hcolon, List.append_assoc _ _ _⟩
      have hvalue := hvalue hfollows
      exact ⟨ws', _, _, _, rfl, hws.respells hws', hcolon'.kind.trans hcolon,
        ⟨ht.kind ▸ hname.1, hvalue ▸ hname.2⟩, hvalue, hrest.tokens⟩

/-! ### Lists and phrases -/

private theorem IsItem.respells {item : SetItem} (h : IsItem s item t) (ht : t.Respells t') :
    IsItem s item t' := by
  cases h with
  | text hkind =>
    obtain ⟨hkind', hvalue⟩ := ht.value_eq hkind (by decide)
    exact hvalue ▸ .text hkind'
  | number hkind hreal =>
    obtain ⟨hkind', hvalue⟩ := ht.value_eq hkind (by decide)
    exact .number hkind' (hvalue ▸ hreal)

private theorem IsTail.respells {items : List SetItem} (h : IsTail s items ts)
    (ht : List.Forall₂ Token.Respells ts ts') : IsTail s items ts' := by
  induction h generalizing ts' with
  | last h hclose =>
    obtain ⟨t', _, hone, hlast, rfl⟩ := List.forall₂_cons_left_iff.mp ht
    obtain ⟨close', rfl, hclose'⟩ := exists_of_forall₂_singleton hlast
    exact .last (h.respells hone) (hclose'.kind.trans hclose)
  | more h hcomma _ ih =>
    obtain ⟨t', _, hone, htail, rfl⟩ := List.forall₂_cons_left_iff.mp ht
    obtain ⟨comma', _, hcomma', hrest, rfl⟩ := List.forall₂_cons_left_iff.mp htail
    exact .more (h.respells hone) (hcomma'.kind.trans hcomma) (ih hrest)

theorem IsList.respells {items : List SetItem} (h : IsList s items ts)
    (ht : List.Forall₂ Token.Respells ts ts') : IsList s items ts' := by
  cases h with
  | empty hopen hclose =>
    obtain ⟨opening', _, hopen', hrest, rfl⟩ := List.forall₂_cons_left_iff.mp ht
    obtain ⟨close', rfl, hclose'⟩ := exists_of_forall₂_singleton hrest
    exact .empty (hopen'.kind.trans hopen) (hclose'.kind.trans hclose)
  | items hopen h =>
    obtain ⟨opening', _, hopen', hrest, rfl⟩ := List.forall₂_cons_left_iff.mp ht
    exact .items (hopen'.kind.trans hopen) (h.respells hrest)

/-- What follows the words of a phrase is respelled apart from them; a single argument keeps its
value unless it is a word. -/
private theorem exists_argument {ws : List Token} (hws : Keywords words ws) (hkind : t.kind = kind)
    (hne : kind ≠ .word) (ht : List.Forall₂ Token.Respells (ws ++ [t]) ts') :
    ∃ ws' t', ts' = ws' ++ [t'] ∧ Keywords words ws' ∧ t'.kind = kind ∧ t'.value = t.value := by
  obtain ⟨ws', tail', rfl, hws', htail⟩ := exists_append_of_forall₂ ht
  obtain ⟨t', rfl, hone⟩ := exists_of_forall₂_singleton htail
  exact ⟨ws', t', rfl, hws.respells hws', hone.value_eq hkind hne⟩

/-- A respelled phrase states the same constraint. -/
theorem IsPhrase.respells (h : IsPhrase s catalog c ts)
    (ht : List.Forall₂ Token.Respells ts ts') : IsPhrase s catalog c ts' := by
  cases h with
  | hasType hws hform hts =>
    obtain ⟨ws', vs', rfl, hws', hvs⟩ := exists_append_of_forall₂ ht
    exact .hasType (hws.respells hws') hform (hts.respells hvs)
  | hasFormat hws hkind hknown =>
    obtain ⟨ws', t', rfl, hws', hkind', hvalue⟩ := exists_argument hws hkind (by decide) ht
    exact hvalue ▸ .hasFormat hws' hkind' (hvalue ▸ hknown)
  | count hform hws hkind hwhole =>
    obtain ⟨ws', t', rfl, hws', hkind', hvalue⟩ := exists_argument hws hkind (by decide) ht
    exact .count hform hws' hkind' (hvalue ▸ hwhole)
  | bare hform hws => exact .bare hform (hws.respells ht)
  | member hform hws hlist =>
    obtain ⟨ws', vs', rfl, hws', hvs⟩ := exists_append_of_forall₂ ht
    exact .member hform (hws.respells hws') (hlist.respells hvs)
  | text hform hws hkind =>
    obtain ⟨ws', t', rfl, hws', hkind', hvalue⟩ := exists_argument hws hkind (by decide) ht
    exact hvalue ▸ .text hform hws' hkind'
  | compare hws hop hvalue hkind hreal =>
    obtain ⟨ws', tail', rfl, hws', htail⟩ := exists_append_of_forall₂ ht
    obtain ⟨o', _, ho, hrest, rfl⟩ := List.forall₂_cons_left_iff.mp htail
    obtain ⟨t', rfl, hone⟩ := exists_of_forall₂_singleton hrest
    obtain ⟨hop', hsame⟩ := ho.value_eq hop (by decide)
    obtain ⟨hkind', hnumber⟩ := hone.value_eq hkind (by decide)
    exact .compare (hws.respells hws') hop' (hsame.trans hvalue) hkind' (hnumber ▸ hreal)
  | pattern hform hws hkind hcompile =>
    obtain ⟨ws', t', rfl, hws', hkind', hvalue⟩ := exists_argument hws hkind (by decide) ht
    exact .pattern hform hws' hkind' (hvalue ▸ hcompile)

/-- A respelled rule is the same rule. -/
theorem IsRule.respells (h : IsRule s catalog c ts) (ht : List.Forall₂ Token.Respells ts ts') :
    IsRule s catalog c ts' := by
  refine ⟨h.1.respells ht, fun hcount t' ht' hkind ds hwhole => ?_⟩
  obtain ⟨t, htmem, hrespells⟩ := exists_mem_of_forall₂ ht.flip ht'
  obtain ⟨hkind', hvalue⟩ := hrespells.symm.value_eq hkind (by decide)
  exact h.2 hcount t htmem hkind' ds (hvalue ▸ hwhole)

/-! ### Statements and clauses -/

/-- A respelled statement is the same statement. -/
theorem IsStatement.respells {st : Statement} (h : IsStatement s st ts)
    (ht : Respelled before ts ts') : IsStatement s st ts' := by
  cases h with
  | columnNames hws hlist =>
    obtain ⟨ws', vs', rfl, hws', hvs⟩ := exists_append_of_forall₂ ht.tokens
    exact .columnNames (hws.respells hws') (hlist.respells hvs)
  | nullValues hws hlist =>
    obtain ⟨ws', vs', rfl, hws', hvs⟩ := exists_append_of_forall₂ ht.tokens
    exact .nullValues (hws.respells hws') (hlist.respells hvs)
  | separator hws hkind =>
    obtain ⟨ws', t', rfl, hws', hkind', hvalue⟩ := exists_argument hws hkind (by decide) ht.tokens
    exact hvalue ▸ .separator hws' hkind'
  | precision hform hws hkind hreal =>
    obtain ⟨ws', t', rfl, hws', hkind', hvalue⟩ := exists_argument hws hkind (by decide) ht.tokens
    exact .precision hform hws' hkind' (hvalue ▸ hreal)
  | flag hform hws => exact .flag hform (hws.respells ht.tokens)
  | openBlock hws hcolon hname =>
    obtain ⟨ws', colon', t', _, rfl, hws', hcolon', hname', hvalue, hnil⟩ :=
      ht.exists_name (by simp [nameHeads]) hws hcolon hname
    cases hnil
    exact hvalue ▸ .openBlock hws' hcolon' hname'
  | openConditional hws hcolon hname =>
    obtain ⟨ws', colon', t', _, rfl, hws', hcolon', hname', hvalue, hnil⟩ :=
      ht.exists_name (by simp [nameHeads]) hws hcolon hname
    cases hnil
    exact hvalue ▸ .openConditional hws' hcolon' hname'

/-- A respelled clause is the same clause. -/
theorem IsClause.respells {n : Int} {clause : ClauseText} (h : IsClause s catalog n clause ts)
    (ht : Respelled before ts ts') : IsClause s catalog n clause ts' := by
  obtain ⟨hws, hcolon, hname, hrule⟩ := h
  obtain ⟨ws', colon', t', rest', rfl, hws', hcolon', hname', hvalue, hrest⟩ :=
    ht.exists_name (by simp [nameHeads]) hws hcolon hname
  exact hvalue ▸ .mk hws' hcolon' hname' (hrule.respells hrest)

/-- Respelled words lead to the same stage. -/
theorem Stage.Leads.respells {stage stage' : Stage} (h : stage.Leads ts stage')
    (ht : List.Forall₂ Token.Respells ts ts') : stage.Leads ts' stage' := by
  cases h with
  | word hstage hword =>
    obtain ⟨t', rfl, hone⟩ := exists_of_forall₂_singleton ht
    exact .word hstage (hword.respells hone)
  | none =>
    cases ht
    exact .none

end TableRules
