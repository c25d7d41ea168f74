import TableRules.Proofs.RulesText.ArgumentLexemes
import TableRules.Proofs.RulesText.Drafts
import TableRules.Proofs.RulesText.Sections

/-!
# What holds of every reader

`RulesReader.WellFormed` is the invariant of reading: the draft is well formed, an open block is the
last one, and the name of an unfinished conditional rule is new.

* Every step preserves it (`RulesReader.WellFormed.step`).
* What every step preserves holds after every reading (`RulesReader.foldlM_induction`).
-/

namespace TableRules

open Tokens Result

variable {s : Settings} {catalog : Catalog} {r r' : RulesReader} {line : TokenLine}
  {lines : List TokenLine} {source : String}

/-- The clause that a stage of a conditional rule holds, if it holds one. -/
def Stage.antecedent? : Stage → Option ClauseText
  | .afterIf a => some a
  | .inThen a => some a
  | _ => none

/-- A position fits a draft: the open block is the last one, and the name of an unfinished
conditional rule is new and not empty. -/
def Position.Fits (d : Draft) : Position → Prop
  | .inBlock column => ∃ init rules, d.blocks = init ++ [(column, rules)]
  | .inConditional p => p.name ∉ d.conditionals.map Conditional.name ∧ p.name ≠ "" ∧
      ∀ a ∈ p.stage.antecedent?, a.1 ≠ ""
  | _ => True

theorem Stage.Word.antecedent?_eq {stage stage' : Stage} {word : String}
    (h : Word stage word stage') : stage'.antecedent? = stage.antecedent? := by
  cases h <;> rfl

theorem Stage.Leads.antecedent?_eq {stage stage' : Stage} {ws : List Token}
    (h : Leads stage ws stage') : stage'.antecedent? = stage.antecedent? := by
  cases h with
  | word h => exact h.antecedent?_eq
  | none => rfl

theorem IsClause.column_ne {n : Int} {clause : ClauseText} {ts : List Token}
    (h : IsClause s catalog n clause ts) : clause.1 ≠ "" := by
  obtain ⟨-, -, hname, -⟩ := h
  exact hname.2

/-- The precision that a statement declares is finite. -/
theorem IsStatement.isFinite {x : Double} {ts : List Token} (h : IsStatement s (.precision x) ts) :
    x.isFinite = true := by
  generalize hst : Statement.precision x = st at h
  cases h with
  | precision _ _ _ hreal =>
    obtain rfl := Statement.precision.inj hst
    exact isFinite_of_parseReal? hreal
  | flag hform =>
    have hall : ∀ form ∈ flagForms, ∀ x, Statement.precision x ≠ form.2 := by simp [flagForms]
    exact absurd hst (hall _ hform x)
  | _ => simp at hst

/-- The name in the head of a block or of a conditional rule is not empty. -/
theorem IsStatement.name_ne {name : String} {ts : List Token}
    (h : IsStatement s (.openBlock name) ts ∨ IsStatement s (.openConditional name) ts) :
    name ≠ "" := by
  have hflag : ∀ form ∈ flagForms, ∀ name, Statement.openBlock name ≠ form.2 ∧
      Statement.openConditional name ≠ form.2 := by
    simp [flagForms]
  rcases h with h | h
  · generalize hst : Statement.openBlock name = st at h
    cases h with
    | openBlock _ _ hname => exact Statement.openBlock.inj hst ▸ hname.2
    | flag hform => exact absurd hst (hflag _ hform name).1
    | _ => simp at hst
  · generalize hst : Statement.openConditional name = st at h
    cases h with
    | openConditional _ _ hname => exact Statement.openConditional.inj hst ▸ hname.2
    | flag hform => exact absurd hst (hflag _ hform name).2
    | _ => simp at hst

namespace RulesReader

/-- What every reader satisfies. -/
structure WellFormed (r : RulesReader) : Prop where
  draft : r.draft.WellFormed
  place : r.place.Fits r.draft

theorem wellFormed_start (catalog : Option Catalog) : (start catalog).WellFormed :=
  ⟨Draft.wellFormed_empty _, trivial⟩

theorem WellFormed.exists_settings (h : r.WellFormed) : ∃ s, r.settings = .ok s := by
  obtain ⟨s, hs⟩ := h.draft.exists_settings
  exact ⟨s, by rw [settings, hs]⟩

theorem settings_eq_ok_iff : r.settings = .ok s ↔ r.draft.settings = .ok s := by
  rw [settings]
  cases r.draft.settings <;> simp [refuse]

/-- Where a statement leaves the reader fits its draft. -/
private theorem fits_place {st : Statement} {d : Draft} {ts : List Token} {n : Int}
    (hst : IsStatement s st ts) (hd : r.draft.perform st = .ok d) : (st.place n).Fits d := by
  cases st with
  | openBlock column =>
    obtain ⟨-, rfl⟩ := Draft.beginColumn_eq_ok_iff.mp hd
    exact ⟨_, _, rfl⟩
  | openConditional name =>
    obtain ⟨hnew, rfl⟩ := Draft.perform_openConditional_eq_ok_iff.mp hd
    exact ⟨hnew, IsStatement.name_ne (.inr hst), by simp [Stage.antecedent?]⟩
  | _ => trivial

/-- What a rule does to a well-formed reader: it goes to the end of the last block. -/
theorem WellFormed.withRule_eq {column : String} (h : r.WellFormed)
    (hplace : r.place = .inBlock column) (rule : Rule) :
    ∃ init rules, r.draft.blocks = init ++ [(column, rules)] ∧
      r.draft.rules? column = some rules ∧
      r.withRule column rule
        = { r with draft := { r.draft with blocks := init ++ [(column, rules ++ [rule])] } } := by
  have hfits := h.place
  rw [hplace] at hfits
  obtain ⟨init, rules, hblocks⟩ := hfits
  have hnew : column ∉ init.map Prod.fst := by
    have hcolumns := h.draft.columns
    rw [hblocks, List.map_append, List.map_singleton] at hcolumns
    exact fun hmem => (List.nodup_append.mp hcolumns).2.2 _ hmem _ List.mem_cons_self rfl
  refine ⟨init, rules, hblocks, Draft.rules?_concat hnew hblocks, ?_⟩
  rw [withRule, hblocks, Draft.appendRule_concat hnew]

/-- **Every step leaves a reader well formed.** -/
theorem WellFormed.step (h : r.WellFormed) (hstep : Step catalog r line r') : r'.WellFormed := by
  cases hstep with
  | @statement s st d _ _ hst hd =>
    refine ⟨h.draft.perform ?_ ?_ hd, fits_place hst hd⟩
    · rintro x rfl
      exact hst.isFinite
    · rintro column rfl
      exact IsStatement.name_ne (.inl hst)
  | @rule s column c hplace hs hc hroom =>
    obtain ⟨init, rules, hblocks, hrules, heq⟩ := h.withRule_eq hplace ⟨c, some line.number⟩
    rw [heq]
    refine ⟨h.draft.concat_rule hblocks fun htype rule hrule => ?_, ?_⟩
    · rw [HasRoom, hrules, Option.getD_some] at hroom
      exact hroom htype rule hrule
    · change r.place.Fits _
      rw [hplace]
      exact ⟨init, _, rfl⟩
  | @word p word t stage hplace hstage =>
    have hfits := h.place
    rw [hplace] at hfits
    refine ⟨h.draft, hfits.1, hfits.2.1, ?_⟩
    rw [hstage.antecedent?_eq]
    exact hfits.2.2
  | @antecedent p s ws ts clause hplace hs hlead hclause =>
    have hfits := h.place
    rw [hplace] at hfits
    refine ⟨h.draft, hfits.1, hfits.2.1, ?_⟩
    rintro a ⟨⟩
    exact hclause.column_ne
  | consequent _ _ _ _ _ hd => exact ⟨h.draft.addConditional hd, trivial⟩

/-- The lines of a text hold no space in their words. -/
theorem noSpaces_of_tokenLines (h : tokenLines source = .ok lines) :
    ∀ line ∈ lines, NoSpaces line.tokens := fun _ hline =>
  noSpaces_of_cut (scanTokens_eq_ok_iff.mp (isLineOf_of_tokenLines h hline).tokens)

/-- **What every step preserves holds after every reading.** The steps start from well-formed
readers. -/
theorem foldlM_induction {motive : List TokenLine → RulesReader → Prop}
    (hlines : ∀ line ∈ lines, NoSpaces line.tokens) (hr : r.WellFormed)
    (hread : lines.foldlM (readLine catalog) r = .ok r') (hstart : motive [] r)
    (hstep : ∀ before line r r', r.WellFormed → motive before r → Step catalog r line r' →
      motive (before ++ [line]) r') : r'.WellFormed ∧ motive lines r' := by
  -- by induction on the lines that are left, for any lines before them
  have hall : ∀ before, motive before r → r'.WellFormed ∧ motive (before ++ lines) r' := by
    clear hstart
    induction lines generalizing r with
    | nil =>
      intro before hbefore
      obtain rfl := Except.ok.inj hread
      rw [List.append_nil]
      exact ⟨hr, hbefore⟩
    | cons line lines ih =>
      intro before hbefore
      obtain ⟨hspaces, hlines⟩ := List.forall_mem_cons.mp hlines
      rw [List.foldlM_cons] at hread
      obtain ⟨middle, hline, hread⟩ := bind_eq_ok_iff.mp hread
      obtain ⟨s, hs⟩ := hr.exists_settings
      have hone := (readLine_eq_ok_iff hspaces hs).mp hline
      have hrest := ih hlines (hr.step hone) hread (before ++ [line])
        (hstep before line r middle hr hbefore hone)
      rwa [List.append_assoc, List.singleton_append] at hrest
  exact hall [] hstart

/-- A reader stays well formed. -/
theorem WellFormed.foldlM (hr : r.WellFormed) (hlines : ∀ line ∈ lines, NoSpaces line.tokens)
    (hread : lines.foldlM (readLine catalog) r = .ok r') : r'.WellFormed :=
  (foldlM_induction (motive := fun _ _ => True) hlines hr hread trivial
    fun _ _ _ _ _ _ _ => trivial).1

end RulesReader

end TableRules
