import TableRules.Proofs.RulesText.Admissible
import TableRules.Proofs.RulesText.Respelling

/-!
# The order of units is irrelevant

A text whose units stand in another order is parsed like the text itself, if every unit with a
number stays on its side of the line that declares the separator (`KeepsSides`): the ruleset is the
same but for the order of blocks and conditional rules and for line numbers
(`Ruleset.SameUpToOrder`).

* Where a unit stands matters only for the separator that is in force there
  (`isText_iff_of_sides`).
* Where its lines stand matters only for the line numbers of its contribution
  (`IsText.renumber`).
* What units contribute together does not depend on their order (`Draft.Collects.sameUpToOrder`).

**Main result**: `Ruleset.parse_perm`.
-/

namespace TableRules

open Tokens Result Contribution

variable {s : Settings} {catalog : Catalog} {line line' : TokenLine}
  {lines lines' : List TokenLine} {sep : Option Separator}
  {u : TextUnit} {units units' : List TextUnit} {k : Contribution} {ks ks' : List Contribution}

/-! ### The sides of the separator -/

/-- Whether a unit declares the separator. -/
def TextUnit.declaresSeparator (u : TextUnit) : Bool := u.contribution.separator?.isSome

/-- The units before the one that declares the separator; all units, if none does. -/
def beforeSeparator (units : List TextUnit) : List TextUnit :=
  units.takeWhile fun u => !u.declaresSeparator

/-- The units after the one that declares the separator. -/
def afterSeparator (units : List TextUnit) : List TextUnit :=
  (units.dropWhile fun u => !u.declaresSeparator).tail

/-- Every unit with a number that stands before or after the declaration of the separator among some
units stands on the same side among others. -/
def KeepsSides (units units' : List TextUnit) : Prop :=
  ∀ u ∈ units', HasNumber u.lines →
    (u ∈ beforeSeparator units' → u ∈ beforeSeparator units) ∧
      (u ∈ afterSeparator units' → u ∈ afterSeparator units)

/-- A unit is one with a given separator. -/
def TextUnit.ReadsWith (catalog : Catalog) (sep : Option Separator) (u : TextUnit) : Prop :=
  ∃ s : Settings, s.separator = sep ∧ IsUnit s catalog u.contribution u.lines

/-- A unit without a number reads alike with all separators. -/
theorem TextUnit.ReadsWith.of_not_hasNumber (h : u.ReadsWith catalog sep)
    (hnone : ¬ HasNumber u.lines) (sep' : Option Separator) : u.ReadsWith catalog sep' := by
  obtain ⟨s, -, hu⟩ := h
  exact ⟨{ s with separator := sep' }, rfl, hu.alike (.inr hnone)⟩

private theorem IsStatement.separator_alike {s' : Settings} {text : String} {ts : List Token}
    (h : IsStatement s (.separator text) ts) : IsStatement s' (.separator text) ts := by
  generalize hst : Statement.separator text = st at h
  cases h with
  | separator hws hkind => exact .separator hws hkind
  | flag hform =>
    have hall : ∀ form ∈ flagForms, ∀ text, Statement.separator text ≠ form.2 := by simp [flagForms]
    exact absurd hst (hall _ hform text)
  | _ => simp at hst

/-- The declaration of a separator reads alike with all separators. -/
theorem TextUnit.ReadsWith.of_declaresSeparator (h : u.ReadsWith catalog sep)
    (hu : u.declaresSeparator = true) (sep' : Option Separator) : u.ReadsWith catalog sep' := by
  obtain ⟨k, lines⟩ := u
  obtain ⟨s, -, h⟩ := h
  cases h with
  | @declaration st line hst hdecl =>
    cases st with
    | separator text =>
      exact ⟨{ s with separator := sep' }, rfl, .declaration hst.separator_alike hdecl⟩
    | _ => simp [declaresSeparator, separator?] at hu
  | _ => simp [declaresSeparator, separator?] at hu

/-- What a unit does to the separator in force is known from whether it declares one. -/
private theorem separatorAfter_eq (k : Contribution) (sep : Option Separator) :
    k.separatorAfter sep = (k.separator?.map Separator.ofText?).getD sep := by
  rcases k with st | _ | _
  · cases st <;> rfl
  · rfl
  · rfl

private theorem separatorAfter_of_not_declaresSeparator (sep : Option Separator)
    (h : u.declaresSeparator = false) : u.contribution.separatorAfter sep = sep := by
  have hnone : u.contribution.separator? = none := by
    simpa [TextUnit.declaresSeparator] using h
  rw [separatorAfter_eq, hnone]
  rfl

/-- Units that declare no separator are a text exactly if each of them is one with the separator in
force. -/
theorem isText_iff_of_none (hnone : ∀ u ∈ units, u.declaresSeparator = false) :
    IsText catalog sep units ↔ ∀ u ∈ units, u.ReadsWith catalog sep := by
  induction units with
  | nil => exact ⟨by simp, fun _ => .nil⟩
  | cons u units ih =>
    obtain ⟨hu, hnone⟩ := List.forall_mem_cons.mp hnone
    have hsep := separatorAfter_of_not_declaresSeparator sep hu
    rw [List.forall_mem_cons, ← ih hnone]
    constructor
    · intro h
      cases h with
      | cons hs hu h => exact ⟨⟨_, hs, hu⟩, hsep ▸ h⟩
    · rintro ⟨⟨s, hs, hu⟩, h⟩
      exact .cons hs hu (hsep.symm ▸ h)

/-- Units around the declaration of a separator are a text exactly if those before it are units
without a separator and those after it are units with the declared one. -/
theorem isText_iff_of_sides {before after : List TextUnit}
    (hbefore : ∀ u ∈ before, u.declaresSeparator = false)
    (hafter : ∀ u ∈ after, u.declaresSeparator = false) :
    IsText catalog none (before ++ u :: after) ↔
      (∀ v ∈ before, v.ReadsWith catalog none) ∧ u.ReadsWith catalog none ∧
        ∀ v ∈ after, v.ReadsWith catalog (u.contribution.separatorAfter none) := by
  have hsep : separatorAfter none before = none := by
    clear hafter
    induction before with
    | nil => rfl
    | cons v before ih =>
      obtain ⟨hv, hbefore⟩ := List.forall_mem_cons.mp hbefore
      have hone := separatorAfter_of_not_declaresSeparator none hv
      rw [separatorAfter, List.foldl_cons, hone]
      exact ih hbefore
  rw [← isText_iff_of_none hbefore, ← isText_iff_of_none hafter]
  constructor
  · intro h
    obtain ⟨hleft, hright⟩ := h.of_append
    rw [hsep] at hright
    cases hright with
    | cons hs hu h => exact ⟨hleft, ⟨_, hs, hu⟩, h⟩
  · rintro ⟨hleft, ⟨s, hs, hu⟩, hright⟩
    refine hleft.append ?_
    rw [hsep]
    exact .cons hs hu hright

/-- Every unit of a text is one with some separator. -/
theorem IsText.exists_readsWith (h : IsText catalog sep units) :
    ∀ u ∈ units, ∃ sep', u.ReadsWith catalog sep' := by
  induction h with
  | nil => simp
  | cons hs hu _ ih => exact List.forall_mem_cons.mpr ⟨⟨_, _, hs, hu⟩, ih⟩

private theorem once?_of_declaresSeparator (h : u.declaresSeparator = true) :
    u.contribution.once? = some (.setting .separator) := by
  obtain ⟨k, lines⟩ := u
  rcases k with st | _ | _
  · cases st <;> simp_all [TextUnit.declaresSeparator, separator?, once?]
  · simp [TextUnit.declaresSeparator, separator?] at h
  · simp [TextUnit.declaresSeparator, separator?] at h

/-- Among units that go together at most one declares the separator: none does, or those on its
sides do not. -/
theorem exists_sides (h : Admissible (units.map TextUnit.contribution)) :
    (∀ u ∈ units, u.declaresSeparator = false) ∨
      ∃ u, units = beforeSeparator units ++ u :: afterSeparator units ∧
        u.declaresSeparator = true ∧ (∀ v ∈ beforeSeparator units, v.declaresSeparator = false) ∧
        ∀ v ∈ afterSeparator units, v.declaresSeparator = false := by
  have hbefore : ∀ v ∈ beforeSeparator units, v.declaresSeparator = false := fun v hv => by
    simpa using List.mem_takeWhile_imp hv
  have hsplit : beforeSeparator units ++ units.dropWhile (fun u => !u.declaresSeparator) = units :=
    List.takeWhile_append_dropWhile
  cases hrest : units.dropWhile fun u => !u.declaresSeparator with
  | nil =>
    rw [hrest, List.append_nil] at hsplit
    exact .inl (hsplit ▸ hbefore)
  | cons u after =>
    have hu : u.declaresSeparator = true := by
      have hne : units.dropWhile (fun u => !u.declaresSeparator) ≠ [] := by simp [hrest]
      simpa [hrest] using List.head_dropWhile_not _ hne
    have hafter : afterSeparator units = after := by rw [afterSeparator, hrest, List.tail_cons]
    rw [hrest] at hsplit
    refine .inr ⟨u, by rw [hafter, hsplit], hu, hbefore, fun v hv => ?_⟩
    rw [hafter] at hv
    by_contra hv'
    rw [Bool.not_eq_false] at hv'
    have honce := h.once
    rw [← hsplit, List.map_append, List.filterMap_append, List.map_cons,
      List.filterMap_cons_some (once?_of_declaresSeparator hu)] at honce
    refine (List.nodup_cons.mp (List.nodup_append.mp honce).2.1).1 ?_
    exact List.mem_filterMap.mpr ⟨_, List.mem_map_of_mem hv, once?_of_declaresSeparator hv'⟩

/-- Contributions that are the same but for their order go together if some of them do. -/
private theorem Admissible.perm (h : Admissible ks) (hperm : ks'.Perm ks) : Admissible ks' :=
  h.congr (hperm.symm.map unnumbered)

/-- Only one unit declares the separator if those on its sides do not. -/
private theorem eq_of_declaresSeparator {before after : List TextUnit} {v : TextUnit}
    (hbefore : ∀ w ∈ before, w.declaresSeparator = false)
    (hafter : ∀ w ∈ after, w.declaresSeparator = false) (hmem : v ∈ before ++ u :: after)
    (hv : v.declaresSeparator = true) : v = u := by
  rw [List.mem_append, List.mem_cons] at hmem
  rcases hmem with hmem | heq | hmem
  · exact absurd (hv.symm.trans (hbefore v hmem)) (by decide)
  · exact heq
  · exact absurd (hv.symm.trans (hafter v hmem)) (by decide)

/-- A unit of a text reads with any separator, if it does so with that one in case it has
numbers. -/
private theorem IsText.readsWith {sep' : Option Separator} (h : IsText catalog sep units)
    (hu : u ∈ units) (hnumber : HasNumber u.lines → u.ReadsWith catalog sep') :
    u.ReadsWith catalog sep' := by
  by_cases hn : HasNumber u.lines
  · exact hnumber hn
  · obtain ⟨_, hread⟩ := h.exists_readsWith u hu
    exact hread.of_not_hasNumber hn sep'

/-- **A text stays one in another order** in which units with numbers keep to their sides. -/
theorem IsText.perm (h : IsText catalog none units)
    (ha : Admissible (units.map TextUnit.contribution)) (hperm : units'.Perm units)
    (hkeeps : KeepsSides units units') : IsText catalog none units' := by
  have ha' := ha.perm (hperm.map TextUnit.contribution)
  rcases exists_sides ha with hnone | ⟨u, hunits, hu, hbefore, hafter⟩
  · rw [isText_iff_of_none fun u hu => hnone u (hperm.mem_iff.mp hu)]
    exact fun u hu => (isText_iff_of_none hnone).mp h u (hperm.mem_iff.mp hu)
  rcases exists_sides ha' with hnone | ⟨u', hunits', hu', hbefore', hafter'⟩
  · have hmem : u ∈ units' := hperm.mem_iff.mpr (by rw [hunits]; simp)
    exact absurd (hu.symm.trans (hnone u hmem)) (by decide)
  have hmem : ∀ v, v ∈ beforeSeparator units' ∨ v = u' ∨ v ∈ afterSeparator units' →
      v ∈ units' := by
    intro v hv
    rw [hunits', List.mem_append, List.mem_cons]
    exact hv
  have hmem' : u' ∈ units := hperm.mem_iff.mp (hmem u' (.inr (.inl rfl)))
  obtain rfl : u' = u := eq_of_declaresSeparator hbefore hafter (hunits ▸ hmem') hu'
  obtain ⟨hleft, -, hright⟩ := (isText_iff_of_sides hbefore hafter).mp (hunits ▸ h)
  rw [hunits', isText_iff_of_sides hbefore' hafter']
  -- a unit with numbers stays on its side, and the other units read with every separator
  refine ⟨fun v hv => ?_, ?_, fun v hv => ?_⟩
  · have hv' := hmem v (.inl hv)
    exact h.readsWith (hperm.mem_iff.mp hv') fun hn => hleft v ((hkeeps v hv' hn).1 hv)
  · obtain ⟨_, hread⟩ := h.exists_readsWith u' hmem'
    exact hread.of_declaresSeparator hu' none
  · have hv' := hmem v (.inr (.inr hv))
    exact h.readsWith (hperm.mem_iff.mp hv') fun hn => hright v ((hkeeps v hv' hn).2 hv)

/-! ### Line numbers -/

theorem IsClause.renumber {n : Int} {clause : ClauseText} {ts : List Token}
    (h : IsClause s catalog n clause ts) (n' : Int) :
    ∃ clause', IsClause s catalog n' clause' ts ∧ clause'.1 = clause.1 ∧
      clause'.2.unnumbered = clause.2.unnumbered := by
  obtain ⟨hws, hcolon, hname, hrule⟩ := h
  exact ⟨_, .mk hws hcolon hname hrule, rfl, rfl⟩

/-- A line that is respelled, wherever it stands. -/
def TokenLine.Respells (line line' : TokenLine) : Prop := Respelled [] line.tokens line'.tokens

/-- Tokens read on another line as they do on their own. -/
theorem TokenLine.Repeats.respells (h : line.Repeats line') : line.Respells line' := by
  have hall : ∀ before ts : List Token,
      Respelled before ts (ts.map (Token.onLine line'.number)) := by
    intro before ts
    induction ts generalizing before with
    | nil => exact .nil
    | cons t ts ih => exact .cons ⟨rfl, rfl, fun _ => rfl⟩ (fun _ => rfl) (ih _)
  rw [TokenLine.Respells, h]
  exact hall [] line.tokens

theorem IsBare.respells {word : String} (h : IsBare word line) (hline : line.Respells line') :
    IsBare word line' := by
  obtain ⟨t, htokens, hword⟩ := h
  obtain ⟨t', htokens', ht⟩ := exists_of_forall₂_singleton (htokens ▸ hline.tokens)
  exact ⟨t', htokens', hword.respells ht⟩

theorem IsSection.renumber {word : String} {clause : ClauseText}
    (h : IsSection s catalog word clause lines)
    (hlines : List.Forall₂ TokenLine.Respells lines lines') :
    ∃ clause', IsSection s catalog word clause' lines' ∧ clause'.1 = clause.1 ∧
      clause'.2.unnumbered = clause.2.unnumbered := by
  cases h with
  | @inline line t ts htokens ht hclause =>
    obtain ⟨line', rfl, hline⟩ := exists_of_forall₂_singleton hlines
    rw [TokenLine.Respells, htokens, ← List.singleton_append] at hline
    obtain ⟨ws', ts', htokens', hws, hts⟩ := hline.exists_append
    obtain ⟨t', rfl, ht'⟩ := exists_of_forall₂_singleton hws
    obtain ⟨clause', hclause', hsame⟩ := (hclause.respells hts).renumber line'.number
    exact ⟨clause', .inline htokens' (ht.respells ht') hclause', hsame⟩
  | split hhead hclause =>
    obtain ⟨head', _, hheads, hrest, rfl⟩ := List.forall₂_cons_left_iff.mp hlines
    obtain ⟨line', rfl, hline⟩ := exists_of_forall₂_singleton hrest
    obtain ⟨clause', hclause', hsame⟩ := (hclause.respells hline).renumber line'.number
    exact ⟨clause', .split (hhead.respells hheads) hclause', hsame⟩

theorem IsConditional.renumber {a c : ClauseText} (h : IsConditional s catalog a c lines)
    (hlines : List.Forall₂ TokenLine.Respells lines lines') :
    ∃ a' c', IsConditional s catalog a' c' lines' ∧ (a'.1 = a.1 ∧
      a'.2.unnumbered = a.2.unnumbered) ∧ c'.1 = c.1 ∧ c'.2.unnumbered = c.2.unnumbered := by
  obtain ⟨hif, hrepeats, hthen⟩ := h
  obtain ⟨ifs', rest, rfl, hifs, hrest⟩ := exists_append_of_forall₂ hlines
  obtain ⟨repeats', thens', rfl, hrepeats', hthens⟩ := exists_append_of_forall₂ hrest
  obtain ⟨a', ha', hasame⟩ := hif.renumber hifs
  obtain ⟨c', hc', hcsame⟩ := hthen.renumber hthens
  refine ⟨a', c', .mk ha' (fun line' hline' => ?_) hc', hasame, hcsame⟩
  obtain ⟨line, hline, hsame⟩ := exists_mem_of_forall₂ hrepeats'.flip hline'
  exact (hrepeats line hline).respells hsame

/-- The rules of a block on other lines. -/
private theorem exists_ruleLines {rules : List Rule}
    (h : List.Forall₂ (IsRuleLine s catalog) rules lines)
    (hlines : List.Forall₂ TokenLine.Respells lines lines') :
    ∃ rules', List.Forall₂ (IsRuleLine s catalog) rules' lines' ∧
      rules'.map Rule.unnumbered = rules.map Rule.unnumbered := by
  induction h generalizing lines' with
  | nil =>
    cases hlines
    exact ⟨[], .nil, rfl⟩
  | @cons rule line rules lines hrule _ ih =>
    obtain ⟨line', _, hline, hrest, rfl⟩ := List.forall₂_cons_left_iff.mp hlines
    obtain ⟨rules', hrules', hsame⟩ := ih hrest
    refine ⟨⟨rule.constraint, some line'.number⟩ :: rules',
      .cons ⟨hrule.1.respells hline.tokens, rfl⟩ hrules', ?_⟩
    rw [List.map_cons, List.map_cons, hsame]
    rfl

/-- A unit on other lines contributes the same but for line numbers. -/
theorem IsUnit.renumber (h : IsUnit s catalog k lines)
    (hlines : List.Forall₂ TokenLine.Respells lines lines') :
    ∃ k', IsUnit s catalog k' lines' ∧ k'.unnumbered = k.unnumbered := by
  cases h with
  | declaration hst hdecl =>
    obtain ⟨line', rfl, hline⟩ := exists_of_forall₂_singleton hlines
    exact ⟨_, .declaration (hst.respells hline) hdecl, rfl⟩
  | @block column _ _ _ hhead hrules =>
    obtain ⟨head', lines', hheads, hrest, rfl⟩ := List.forall₂_cons_left_iff.mp hlines
    obtain ⟨rules', hrules', hsame⟩ := exists_ruleLines hrules hrest
    exact ⟨_, .block (hhead.respells hheads) hrules', congrArg (Contribution.block column) hsame⟩
  | conditional hhead hconditional =>
    obtain ⟨head', lines', hheads, hrest, rfl⟩ := List.forall₂_cons_left_iff.mp hlines
    obtain ⟨a', c', hlines', ⟨ha, ha'⟩, hc, hc'⟩ := hconditional.renumber hrest
    refine ⟨_, .conditional (hhead.respells hheads) hlines', ?_⟩
    simp [unnumbered, Conditional.unnumbered, Clause.unnumbered, ha, ha', hc, hc']

/-- **A text on other lines** has the same contributions but for line numbers. -/
theorem IsText.renumber (h : IsText catalog sep units)
    (hlines : List.Forall₂ TokenLine.Respells (units.flatMap TextUnit.lines) lines') :
    ∃ units', IsText catalog sep units' ∧ units'.flatMap TextUnit.lines = lines' ∧
      (units'.map TextUnit.contribution).map unnumbered
        = (units.map TextUnit.contribution).map unnumbered := by
  induction h generalizing lines' with
  | nil =>
    cases hlines
    exact ⟨[], .nil, rfl, rfl⟩
  | @cons sep s u units hs hu _ ih =>
    rw [List.flatMap_cons] at hlines
    obtain ⟨first, rest, rfl, hfirst, hrest⟩ := exists_append_of_forall₂ hlines
    obtain ⟨k', hk', hsame⟩ := hu.renumber hfirst
    obtain ⟨units', hunits', rfl, hcontributions⟩ := ih hrest
    have hsep : k'.separatorAfter sep = u.contribution.separatorAfter sep := by
      have hnumber : ∀ k : Contribution, k.unnumbered.separator? = k.separator? := by
        rintro (_ | _ | _) <;> rfl
      rw [separatorAfter_eq, separatorAfter_eq, ← hnumber, hsame, hnumber]
    refine ⟨⟨k', first⟩ :: units', .cons hs hk' (hsep ▸ hunits'), rfl, ?_⟩
    simp only [List.map_cons, hsame, hcontributions]

/-! ### What is collected in another order -/

private theorem option_eq_of_perm {α : Type} {o o' : Option α} (h : o.toList.Perm o'.toList) :
    o = o' := by
  cases o with
  | none => exact (Option.toList_eq_nil_iff.mp (List.nil_perm.mp h)).symm
  | some a =>
    have hlist := List.singleton_perm.mp h
    cases o' with
    | none => simp at hlist
    | some a' => simpa using hlist

namespace Draft

variable {d d' : Draft}

/-- Drafts that are the same but for the order of blocks and conditional rules and for line
numbers. -/
structure SameUpToOrder (d d' : Draft) : Prop where
  names : d'.names = d.names
  nullValues : d'.nullValues = d.nullValues
  separator : d'.separator = d.separator
  precision : d'.precision = d.precision
  allRequired : d'.allRequired = d.allRequired
  noExtra : d'.noExtra = d.noExtra
  checkOrder : d'.checkOrder = d.checkOrder
  blocks : (d'.blocks.map fun e => (e.1, e.2.map Rule.unnumbered)).Perm
    (d.blocks.map fun e => (e.1, e.2.map Rule.unnumbered))
  conditionals : (d'.conditionals.map Conditional.unnumbered).Perm
    (d.conditionals.map Conditional.unnumbered)

/-- Contributions without line numbers hold the same declarations. -/
private theorem declaration_mem_unnumbered {st : Statement} :
    .declaration st ∈ ks.map unnumbered ↔ .declaration st ∈ ks := by
  rw [List.mem_map]
  constructor
  · rintro ⟨k, hk, heq⟩
    cases k with
    | declaration => exact heq ▸ hk
    | _ => simp [unnumbered] at heq
  · exact fun hk => ⟨_, hk, rfl⟩

/-- **What drafts have collected** of the same contributions in any order is the same but for
order. -/
theorem Collects.sameUpToOrder (h : d.Collects ks) (h' : d'.Collects ks')
    (hperm : (ks'.map unnumbered).Perm (ks.map unnumbered)) : d.SameUpToOrder d' := by
  have hflag : ∀ {st : Statement} {flag flag' : Bool}, (flag = true ↔ .declaration st ∈ ks) →
      (flag' = true ↔ .declaration st ∈ ks') → flag' = flag := by
    intro st flag flag' hflag hflag'
    rw [Bool.eq_iff_iff, hflag, hflag', ← declaration_mem_unnumbered, hperm.mem_iff,
      declaration_mem_unnumbered]
  refine ⟨?_, ?_, ?_, ?_, hflag h.allRequired h'.allRequired, hflag h.noExtra h'.noExtra,
    hflag h.checkOrder h'.checkOrder, ?_, ?_⟩
  · refine option_eq_of_perm ?_
    rw [h.names, h'.names]
    exact filterMap_perm (by rintro (_ | _ | _) <;> rfl) hperm
  · refine option_eq_of_perm ?_
    rw [h.nullValues, h'.nullValues]
    exact filterMap_perm (by rintro (_ | _ | _) <;> rfl) hperm
  · refine option_eq_of_perm ?_
    rw [h.separator, h'.separator]
    exact (filterMap_perm (by rintro (_ | _ | _) <;> rfl) hperm).map _
  · refine option_eq_of_perm ?_
    rw [h.precision, h'.precision]
    exact (filterMap_perm (by rintro (_ | _ | _) <;> rfl) hperm).map _
  · rw [h.blocks, h'.blocks, List.map_filterMap, List.map_filterMap]
    refine filterMap_perm ?_ hperm
    rintro (_ | _ | _)
    · rfl
    · simp [block?, unnumbered, Rule.unnumbered]
    · rfl
  · rw [h.conditionals, h'.conditionals, List.map_filterMap, List.map_filterMap]
    refine filterMap_perm ?_ hperm
    rintro (_ | _ | _) <;> rfl

/-- The settings that are declared do not depend on the order. -/
theorem SameUpToOrder.settings_eq (h : d.SameUpToOrder d') : d'.settings = d.settings := by
  have hprecision : d'.precisionValue? = d.precisionValue? := by
    rw [precisionValue?, precisionValue?, h.precision]
  simp only [settings, h.nullValues, h.separator, hprecision]

/-- Where a draft is finished by a ruleset, so is one that is the same but for the order. -/
theorem SameUpToOrder.exists_finishes {names : List String} {ruleset : Ruleset}
    (h : d.SameUpToOrder d') (hd : d.Finishes s names ruleset) :
    ∃ ruleset', d'.Finishes s names ruleset' := by
  have hcolumns : ∀ d : Draft, d.blocks.map Prod.fst
      = (d.blocks.map fun e => (e.1, e.2.map Rule.unnumbered)).map Prod.fst := by
    intro d
    rw [List.map_map]
    rfl
  have hnames : ∀ conditionals : List Conditional, conditionals.map Conditional.name
      = (conditionals.map Conditional.unnumbered).map Conditional.name := by
    intro conditionals
    rw [List.map_map]
    rfl
  refine Draft.exists_finishes s names ?_ ?_
  · rw [hcolumns, (h.blocks.map Prod.fst).nodup_iff, ← hcolumns, ← hd.blockColumns_eq]
    exact ruleset.blocks_nodup
  · rw [hnames, (h.conditionals.map Conditional.name).nodup_iff, ← hnames, ← hd.conditionals]
    exact ruleset.conditionals_nodup

/-- Contributions leave the date formats as they are. -/
theorem TakesAll.dateFormats_eq (h : d.TakesAll ks d') : d'.dateFormats = d.dateFormats := by
  induction ks generalizing d with
  | nil =>
    obtain rfl : d' = d := h
    rfl
  | cons k ks ih =>
    obtain ⟨middle, hmiddle, h⟩ := h
    rw [ih h]
    cases k with
    | declaration => exact dateFormats_perform hmiddle.2
    | block =>
      obtain ⟨-, -, rfl⟩ := hmiddle
      rfl
    | conditional =>
      obtain ⟨-, -, -, rfl⟩ := hmiddle
      rfl

end Draft

/-! ### Texts in another order -/

namespace Ruleset

/-- Rulesets that are the same but for the order of blocks and conditional rules and for line
numbers. -/
structure SameUpToOrder (ruleset ruleset' : Ruleset) : Prop where
  settings : ruleset'.settings = ruleset.settings
  columns : ruleset'.columns = ruleset.columns
  blocks : (ruleset'.blocks.map Block.unnumbered).Perm (ruleset.blocks.map Block.unnumbered)
  conditionals : (ruleset'.conditionals.map Conditional.unnumbered).Perm
    (ruleset.conditionals.map Conditional.unnumbered)
  dateFormats : ruleset'.dateFormats = ruleset.dateFormats

theorem SameUpToOrder.of_drafts {d d' : Draft} {names : List String}
    {ruleset ruleset' : Ruleset} (h : d.SameUpToOrder d')
    (hformats : d'.dateFormats = d.dateFormats)
    (hd : d.Finishes s names ruleset) (hd' : d'.Finishes s names ruleset') :
    ruleset.SameUpToOrder ruleset' where
  settings := hd'.settings.trans hd.settings.symm
  columns := by
    rw [hd.columns, hd'.columns, h.allRequired, h.noExtra, h.checkOrder]
  blocks := by
    have hblocks : ∀ {d : Draft} {ruleset}, d.Finishes s names ruleset →
        ruleset.blocks.map Block.unnumbered
          = (d.blocks.map fun e => (e.1, e.2.map Rule.unnumbered)).map fun e => ⟨e.1, e.2⟩ := by
      intro d ruleset hd
      simp [hd.blocks, Block.unnumbered]
    rw [hblocks hd, hblocks hd']
    exact h.blocks.map _
  conditionals := by
    rw [hd.conditionals, hd'.conditionals]
    exact h.conditionals
  dateFormats := hd'.dateFormats.trans (hformats.trans hd.dateFormats.symm)

/-- **The order of declarations is irrelevant.** A parsed text is a sequence of units, and in any
order of these in which units with numbers keep to their side of the declaration of the separator,
whatever blank lines and comments stand between them, the text is parsed to the same ruleset but for
the order of blocks and conditional rules and for line numbers. -/
theorem parse_perm (catalog : Option Catalog) (source : String) (ruleset : Ruleset)
    (h : parse catalog source = .ok ruleset) :
    (∃ units, tokenLines source = .ok (units.flatMap TextUnit.lines) ∧
        IsText (catalog.getD .standard) none units) ∧
      ∀ units, tokenLines source = .ok (units.flatMap TextUnit.lines) →
        IsText (catalog.getD .standard) none units →
        ∀ units' source', units'.Perm units → KeepsSides units units' →
          contentLines source' = (units'.flatMap TextUnit.lines).map TokenLine.text →
          ∃ ruleset', parse catalog source' = .ok ruleset' ∧ ruleset.SameUpToOrder ruleset' := by
  refine ⟨?_, fun units hlines htext units' source' hperm hkeeps hcontent => ?_⟩
  · obtain ⟨units, hlines, htext, -⟩ := exists_units_of_parse h
    exact ⟨units, hlines, htext⟩
  obtain ⟨d, hd, s, names, hs, hnames, hfinishes⟩ :=
    (parse_eq_ok_iff_takesAll hlines htext).mp h
  have hadmissible := Draft.exists_takesAll_iff.mp ⟨d, hd⟩
  -- the lines of the other source have the tokens of the units in the other order
  have hscan : ∀ line ∈ units'.flatMap TextUnit.lines,
      scanTokens line.number line.text = .ok line.tokens := by
    intro line hline
    exact (isLineOf_of_tokenLines hlines ((hperm.flatMap_right _).mem_iff.mp hline)).tokens
  obtain ⟨lines', hlines', hrepeats⟩ := exists_tokenLines hscan hcontent
  obtain ⟨units'', htext'', rfl, hsame⟩ := (htext.perm hadmissible hperm hkeeps).renumber
    (hrepeats.imp fun _ _ => TokenLine.Repeats.respells)
  have hperm'' : ((units''.map TextUnit.contribution).map unnumbered).Perm
      ((units.map TextUnit.contribution).map unnumbered) := by
    rw [hsame]
    exact (hperm.map _).map _
  obtain ⟨d'', hd''⟩ : ∃ d'', (Draft.blank catalog).TakesAll
      (units''.map TextUnit.contribution) d'' :=
    Draft.exists_takesAll_iff.mpr (hadmissible.congr hperm''.symm)
  have hdrafts : d.SameUpToOrder d'' := hd.collects.sameUpToOrder hd''.collects hperm''
  obtain ⟨ruleset', hfinishes'⟩ := hdrafts.exists_finishes hfinishes
  refine ⟨ruleset', (parse_eq_ok_iff_takesAll hlines' htext'').mpr
    ⟨d'', hd'', s, names, hdrafts.settings_eq.trans hs, hdrafts.names.trans hnames, hfinishes'⟩, ?_⟩
  exact .of_drafts hdrafts (hd''.dateFormats_eq.trans hd.dateFormats_eq.symm) hfinishes hfinishes'

end Ruleset

/-! ### Two orders of a text -/

/-- A text with a separator and a number that is written with it. -/
def stockText : String :=
  "column names in ['stock']\n" ++
  "thousands separator is ','\n" ++
  "column: stock\n" ++
  "is > 1,000\n"

/-- The text with the column names at its end. -/
def stockTextReordered : String :=
  "thousands separator is ','\n" ++
  "column: stock\n" ++
  "  // at least a crate\n" ++
  "is > 1,000\n" ++
  "\n" ++
  "column names in ['stock']\n"

/-- The unit of the text that names the column. -/
def stockNames : TextUnit :=
  ⟨.declaration (.columnNames ["stock"]), [⟨1, "column names in ['stock']",
    [⟨.word, "column", 1, 1⟩, ⟨.word, "names", 1, 8⟩, ⟨.word, "in", 1, 14⟩,
     ⟨.openBracket, "[", 1, 17⟩, ⟨.string, "stock", 1, 18⟩, ⟨.closeBracket, "]", 1, 25⟩]⟩]⟩

/-- The unit of the text that declares the separator. -/
def stockSeparator : TextUnit :=
  ⟨.declaration (.separator ","), [⟨2, "thousands separator is ','",
    [⟨.word, "thousands", 2, 1⟩, ⟨.word, "separator", 2, 11⟩, ⟨.word, "is", 2, 21⟩,
     ⟨.string, ",", 2, 24⟩]⟩]⟩

/-- The unit of the text with the block of the column; its bound is a given number. -/
def stockBlock (x : Double) : TextUnit :=
  ⟨.block "stock" [⟨.compare .greater (.real x), some 4⟩],
    [⟨3, "column: stock", [⟨.word, "column", 3, 1⟩, ⟨.colon, ":", 3, 7⟩, ⟨.word, "stock", 3, 9⟩]⟩,
     ⟨4, "is > 1,000", [⟨.word, "is", 4, 1⟩, ⟨.operator, ">", 4, 4⟩, ⟨.number, "1,000", 4, 6⟩]⟩]⟩

private theorem isText_stock {x : Double} (hx : parseReal? "1,000" commaSettings = some x) :
    IsText .standard none [stockNames, stockSeparator, stockBlock x] := by
  have hitem : IsItem .standard (.text (.text "stock")) ⟨.string, "stock", 1, 18⟩ :=
    @IsItem.text _ ⟨.string, "stock", 1, 18⟩ rfl
  have hnames : IsUnit .standard .standard stockNames.contribution stockNames.lines :=
    .declaration (.columnNames (.cons ⟨rfl, by decide⟩ (.cons ⟨rfl, by decide⟩
      (.cons ⟨rfl, by decide⟩ .nil))) (.items rfl (.last hitem rfl))) rfl
  have hcomma : IsStatement .standard (.separator ",") ([⟨.word, "thousands", 2, 1⟩,
      ⟨.word, "separator", 2, 11⟩, ⟨.word, "is", 2, 21⟩] ++ [⟨.string, ",", 2, 24⟩]) :=
    @IsStatement.separator _ _ ⟨.string, ",", 2, 24⟩ (.cons ⟨rfl, by decide⟩
      (.cons ⟨rfl, by decide⟩ (.cons ⟨rfl, by decide⟩ .nil))) rfl
  have hseparator : IsUnit .standard .standard stockSeparator.contribution stockSeparator.lines :=
    .declaration hcomma rfl
  have hrule : IsRule commaSettings .standard (.compare .greater (.real x))
      [⟨.word, "is", 4, 1⟩, ⟨.operator, ">", 4, 4⟩, ⟨.number, "1,000", 4, 6⟩] :=
    ⟨.compare (.cons ⟨rfl, by decide⟩ .nil) rfl rfl rfl hx, by simp [Constraint.hasCount]⟩
  have hhead : IsStatement commaSettings (.openBlock "stock") ([⟨.word, "column", 3, 1⟩] ++
      [⟨.colon, ":", 3, 7⟩, ⟨.word, "stock", 3, 9⟩]) :=
    @IsStatement.openBlock _ _ ⟨.colon, ":", 3, 7⟩ ⟨.word, "stock", 3, 9⟩
      (.cons ⟨rfl, by decide⟩ .nil) rfl ⟨.inr rfl, by decide⟩
  have hblock : IsUnit commaSettings .standard (stockBlock x).contribution (stockBlock x).lines :=
    .block hhead (.cons ⟨hrule, rfl⟩ .nil)
  exact .cons rfl hnames (.cons rfl hseparator (.cons (by decide) hblock .nil))

theorem stockText_perm :
    ∃ ruleset ruleset', Ruleset.parse none stockText = .ok ruleset ∧
      Ruleset.parse none stockTextReordered = .ok ruleset' ∧ ruleset.SameUpToOrder ruleset' := by
  have hparsed : (Ruleset.parse none stockText).toOption.any
      (fun r => r.ruleCount == 1) = true := by
    decide +kernel
  have hreal : (parseReal? "1,000" commaSettings).isSome = true := by decide +kernel
  obtain ⟨ruleset, hparse, -⟩ := any_toOption_iff.mp hparsed
  obtain ⟨x, hx⟩ := Option.isSome_iff_exists.mp hreal
  have hlines : tokenLines stockText = .ok
      ([stockNames, stockSeparator, stockBlock (.zero false)].flatMap TextUnit.lines) := by
    decide +kernel
  have hcontent : contentLines stockTextReordered
      = ([stockSeparator, stockBlock (.zero false), stockNames].flatMap TextUnit.lines).map
          TokenLine.text := by
    decide +kernel
  have hkeeps : KeepsSides [stockNames, stockSeparator, stockBlock x]
      [stockSeparator, stockBlock x, stockNames] := by
    have hbefore : beforeSeparator [stockSeparator, stockBlock x, stockNames] = [] := rfl
    have hafter : afterSeparator [stockSeparator, stockBlock x, stockNames]
        = [stockBlock x, stockNames] := rfl
    have hafter' : afterSeparator [stockNames, stockSeparator, stockBlock x]
        = [stockBlock x] := rfl
    have hnone : ¬ HasNumber stockNames.lines := by simp [HasNumber, stockNames]
    intro u _ hnumber
    rw [hbefore, hafter, hafter']
    refine ⟨by simp, fun hu => ?_⟩
    rcases List.mem_cons.mp hu with rfl | hu
    · exact List.mem_singleton_self _
    · exact absurd (List.mem_singleton.mp hu ▸ hnumber) hnone
  have hperm : [stockSeparator, stockBlock x, stockNames].Perm
      [stockNames, stockSeparator, stockBlock x] :=
    @List.perm_append_comm _ [stockSeparator, stockBlock x] [stockNames]
  obtain ⟨ruleset', hparse', hsame⟩ := (Ruleset.parse_perm none stockText ruleset hparse).2
    [stockNames, stockSeparator, stockBlock x] hlines (isText_stock hx)
    [stockSeparator, stockBlock x, stockNames] stockTextReordered hperm hkeeps hcontent
  exact ⟨ruleset, ruleset', hparse, hparse', hsame⟩

end TableRules
