import TableRules.Keyed
import TableRules.Proofs.RulesText.Drafts
import TableRules.Ruleset.Calls

/-!
# Calls that are refused leave nothing behind

A call on a draft goes through several steps, and some of its steps come before its last check.
Still it is all or nothing: the steps of a call come to the one operation `Draft.accept`
(`Draft.Call.perform_on`), and a refused call leaves the draft it found. The one case in which this
is not seen from the order of the steps is `putRule`: it opens a block first, but a rule is refused
only for a value type that the block already has, and then there was a block
(`Draft.withBlock_of_any`).

From this step two laws follow for sessions of any length, by induction on the calls:

* without its refused calls a session comes to the same draft (`Draft.Call.session_accepted`);
* every draft is coherent (`Draft.Coherent`), and what can be declared only once is declared by at
  most one call (`Draft.Call.count_accepted`).
-/

namespace TableRules

namespace Drafting

variable {α : Type} {d : Draft}

/-! ### Steps on a draft -/

theorem on_modify (f : Draft → Draft) : Drafting.on (modify f) d = (.ok (), f d) := rfl

theorem on_modify_then (f : Draft → Draft) (next : Unit → Drafting α) :
    (modify f >>= next).on d = (next ()).on (f d) := rfl

theorem on_get_then (next : Draft → Drafting α) : (get >>= next).on d = (next d).on d := rfl

theorem on_refuseIf_then (wrong : Bool) (fault : DraftFault) (next : Unit → Drafting α) :
    (refuseIf wrong fault >>= next).on d = if wrong then (.error fault, d) else (next ()).on d := by
  cases wrong <;> rfl

theorem on_made_then {β : Type} (value : Except (List FieldFault) β) (next : β → Drafting α) :
    (made value >>= next).on d = match value with
      | .ok b => (next b).on d
      | .error faults => (.error (.invalid faults), d) := by
  cases value <;> rfl

end Drafting

namespace Draft

open Drafting

variable {d d' : Draft} {column : String} {rule : Rule} {blocks : List (String × List Rule)}

theorem on_checkNew_then {α : Type} (declaration : Declaration) (next : Unit → Drafting α) :
    (checkNew declaration >>= next).on d =
      if d.declares declaration then (.error (.alreadyDeclared declaration), d)
      else (next ()).on d := by
  rw [checkNew, bind_assoc, on_get_then, on_refuseIf_then]

/-! ### Putting a rule into a block -/

/-- A column without a block has no rules. -/
theorem rules?_eq_none (h : d.hasBlock column = false) : d.rules? column = none := by
  simpa [hasBlock] using h

/-- An opened block has the rules that were there. -/
theorem rules?_withBlock :
    ((d.withBlock column).rules? column).getD [] = (d.rules? column).getD [] := by
  unfold withBlock
  cases hblock : d.hasBlock column with
  | true => rfl
  | false =>
    have hopened : ({ d with blocks := d.blocks ++ [(column, [])] } : Draft).rules? column =
        some [] :=
      rules?_concat (hasBlock_eq_false_iff.mp hblock) rfl
    simp only [Bool.false_eq_true, if_false, hopened, rules?_eq_none hblock, Option.getD_some,
      Option.getD_none]

/-- Where a rule of a column declares a type, its block is open. -/
theorem withBlock_of_any {p : Rule → Bool} (h : ((d.rules? column).getD []).any p = true) :
    d.withBlock column = d := by
  cases hblock : d.hasBlock column with
  | true => simp [withBlock, hblock]
  | false => simp [rules?_eq_none hblock] at h

/-- A rule for a column without a block opens one behind the others. -/
theorem appendRule_of_notMem (h : column ∉ blocks.map Prod.fst) :
    appendRule column rule blocks = blocks ++ [(column, [rule])] := by
  induction blocks with
  | nil => rfl
  | cons e blocks ih =>
    obtain ⟨name, rules⟩ := e
    rw [List.map_cons, List.mem_cons, not_or] at h
    rw [appendRule, if_neg (by simpa using Ne.symm h.1), ih h.2, List.cons_append]

/-- Opening the block beforehand makes no difference to where a rule goes. -/
theorem appendRule_withBlock :
    { d.withBlock column with blocks := appendRule column rule (d.withBlock column).blocks } =
      { d with blocks := appendRule column rule d.blocks } := by
  unfold withBlock
  cases hblock : d.hasBlock column with
  | true => rfl
  | false =>
    have hnew := hasBlock_eq_false_iff.mp hblock
    have hopened : appendRule column rule (d.blocks ++ [(column, [])]) =
        d.blocks ++ [(column, [rule])] :=
      appendRule_concat hnew
    simp only [Bool.false_eq_true, if_false, hopened, appendRule_of_notMem hnew]

/-! ### A call as a whole -/

/-- What steps leave that come to one operation: its draft, or, if it is refused, the draft that was
there. -/
def outcome (d : Draft) : Except DraftFault Draft → Except DraftFault Unit × Draft
  | .ok d' => (.ok (), d')
  | .error fault => (.error fault, d)

/-- Putting a rule comes to adding it. -/
theorem putRule_on (d : Draft) (column : String) (rule : Rule) :
    (putRule column rule).on d = d.outcome (d.addRule column rule) := by
  rw [putRule, on_modify_then, on_get_then, on_refuseIf_then, on_modify, rules?_withBlock, addRule]
  split_ifs with hsecond
  -- The block was opened before the check; where the check fails, it had been there already.
  · rw [Bool.and_eq_true] at hsecond
    rw [withBlock_of_any hsecond.2]
    rfl
  · rw [appendRule_withBlock]
    rfl

namespace Call

/-- **A call is all or nothing**: its steps come to one operation on drafts. -/
theorem perform_on (call : Call) (d : Draft) : call.perform.on d = d.outcome (d.accept call) := by
  cases call with
  | nullValues values =>
    rw [perform, on_checkNew_then, on_modify, accept, declareNullValues, declares]
    cases d.nullValues <;> rfl
  | separator text =>
    rw [perform, on_checkNew_then, on_made_then, accept, declareSeparator, declares]
    cases d.separator with
    | some _ => rfl
    | none => cases Settings.readSeparator text <;> rfl
  | precision epsilon =>
    rw [perform, on_checkNew_then, on_refuseIf_then, on_modify, accept, declarePrecision, declares]
    cases d.precision with
    | some _ => rfl
    | none => cases epsilon.isAtMostZero <;> rfl
  | dateFormats names =>
    rw [perform, on_refuseIf_then, on_modify, accept, restrictFormats]
    cases names.isEmpty <;> rfl
  | columnNames names =>
    rw [perform, on_checkNew_then, on_refuseIf_then, on_modify, accept, declareColumns, declares]
    cases d.names with
    | some _ => rfl
    | none => cases names.isEmpty <;> rfl
  | requireAll => rfl
  | forbidExtra => rfl
  | keepOrder => rfl
  | beginColumn column =>
    rw [perform, on_get_then, on_refuseIf_then, on_modify, accept, Draft.beginColumn]
    cases d.hasBlock column <;> rfl
  | addRule column rule => exact putRule_on d column rule
  | addKind column kind argument line =>
    rw [perform, on_made_then, accept]
    cases Rule.make kind argument line with
    | ok rule => exact putRule_on d column rule
    | error fault => rfl
  | addConditional name antecedent consequent line =>
    rw [perform, on_get_then, on_refuseIf_then, accept, Draft.addConditional]
    simp only [on_made_then, on_modify]
    cases d.hasConditional name with
    | true => rfl
    | false =>
      cases Clause.make antecedent.1 antecedent.2 with
      | error faults => rfl
      | ok a =>
        cases Clause.make consequent.1 consequent.2 with
        | error faults => rfl
        | ok c =>
          simp only [bind, Except.bind]
          cases Conditional.make name a c line <;> rfl

end Call

/-! ### What an accepted call does -/

/-- What a call declares that can be declared only once. -/
def Call.declaration? : Call → Option Declaration
  | .nullValues _ => some .nullValues
  | .separator _ => some .separator
  | .precision _ => some .precision
  | .columnNames _ => some .columnNames
  | _ => none

/-- The drafts that accepted calls lead to. -/
inductive Extends (d : Draft) : Call → Draft → Prop
  | nullValues (values : List String) (h : d.nullValues = none) :
      Extends d (.nullValues values) { d with nullValues := some values }
  | separator (text : Option String) (s : Option Separator) (h : d.separator = none) :
      Extends d (.separator text) { d with separator := some s }
  | precision (epsilon : Number) (h : d.precision = none) :
      Extends d (.precision epsilon) { d with precision := some epsilon }
  | dateFormats (names : List String) :
      Extends d (.dateFormats names) { d with dateFormats := some names }
  | columnNames (names : List String) (h : d.names = none) :
      Extends d (.columnNames names) { d with names := some names }
  | requireAll : Extends d .requireAll d.requireAll
  | forbidExtra : Extends d .forbidExtra d.forbidExtra
  | keepOrder : Extends d .keepOrder d.keepOrder
  | beginColumn (column : String) (h : column ∉ d.blocks.map Prod.fst) :
      Extends d (.beginColumn column) { d with blocks := d.blocks ++ [(column, [])] }
  | addRule (column : String) (rule : Rule) (h : d.HasRoom column rule) :
      Extends d (.addRule column rule) { d with blocks := appendRule column rule d.blocks }
  | addKind (column : String) (kind : RuleKind) (argument : Argument) (line : Option Int)
      (rule : Rule) (h : d.HasRoom column rule) :
      Extends d (.addKind column kind argument line)
        { d with blocks := appendRule column rule d.blocks }
  | addConditional (c : Conditional) (h : c.name ∉ d.conditionals.map Conditional.name) :
      Extends d (.addConditional c.name (c.antecedent.column, c.antecedent.rule)
        (c.consequent.column, c.consequent.rule) c.line) (d.withConditional c)

/-- An accepted call extends the draft. -/
theorem extends_of_accept {call : Call} (h : d.accept call = .ok d') : d.Extends call d' := by
  cases call with
  | nullValues values =>
    obtain ⟨hnone, rfl⟩ := declareNullValues_eq_ok_iff.mp h
    exact .nullValues values hnone
  | separator text =>
    obtain ⟨hnone, s, -, rfl⟩ := declareSeparator_eq_ok_iff.mp h
    exact .separator text s hnone
  | precision epsilon =>
    obtain ⟨hnone, -, rfl⟩ := declarePrecision_eq_ok_iff.mp h
    exact .precision epsilon hnone
  | dateFormats names =>
    obtain ⟨-, rfl⟩ := restrictFormats_eq_ok_iff.mp h
    exact .dateFormats names
  | columnNames names =>
    obtain ⟨hnone, -, rfl⟩ := declareColumns_eq_ok_iff.mp h
    exact .columnNames names hnone
  | requireAll => exact Except.ok.inj h ▸ .requireAll
  | forbidExtra => exact Except.ok.inj h ▸ .forbidExtra
  | keepOrder => exact Except.ok.inj h ▸ .keepOrder
  | beginColumn column =>
    obtain ⟨hnew, rfl⟩ := beginColumn_eq_ok_iff.mp h
    exact .beginColumn column hnew
  | addRule column rule =>
    obtain ⟨hroom, rfl⟩ := addRule_eq_ok_iff.mp h
    exact .addRule column rule hroom
  | addKind column kind argument line =>
    rw [accept] at h
    cases hrule : Rule.make kind argument line with
    | error _ => simp [hrule] at h
    | ok rule =>
      rw [hrule] at h
      obtain ⟨hroom, rfl⟩ := addRule_eq_ok_iff.mp h
      exact .addKind column kind argument line rule hroom
  | addConditional name antecedent consequent line =>
    obtain ⟨hnew, -, -, -, rfl⟩ := addConditional_eq_ok_iff.mp h
    exact .addConditional
      ⟨name, ⟨antecedent.1, antecedent.2⟩, ⟨consequent.1, consequent.2⟩, line⟩ hnew

/-! ### Coherent drafts -/

/-- What holds of a draft after any calls: its blocks are for different columns, each of them
declares at most one value type, and its conditional rules have different names. -/
structure Coherent (d : Draft) : Prop where
  columns : (d.blocks.map Prod.fst).Nodup
  types : ∀ e ∈ d.blocks, (e.2.filter Rule.declaresType).length ≤ 1
  conditionalNames : (d.conditionals.map Conditional.name).Nodup

theorem coherent_empty : empty.Coherent where
  columns := .nil
  types := by simp [empty]
  conditionalNames := .nil

/-- A rule that is added updates the block for its column, or opens it. -/
theorem appendRule_eq_update (column : String) (rule : Rule) (blocks : List (String × List Rule)) :
    appendRule column rule blocks =
      Keyed.update column (fun rules => rules.getD [] ++ [rule]) blocks := by
  induction blocks with
  | nil => rfl
  | cons e blocks ih =>
    rw [appendRule, Keyed.update, ih]
    rfl

/-- The rules of a column that has no block, or a coherent one, declare at most one type. -/
theorem Coherent.rules? (h : d.Coherent) (column : String) :
    (((d.rules? column).getD []).filter Rule.declaresType).length ≤ 1 := by
  cases hrules : d.rules? column with
  | none => simp
  | some rules =>
    obtain ⟨before, after, hblocks, -⟩ := List.lookup_eq_some_iff.mp hrules
    exact h.types (column, rules) (hblocks ▸ List.mem_append_right _ List.mem_cons_self)

/-- A rule with room keeps a draft coherent. -/
theorem Coherent.appendRule (h : d.Coherent) (hroom : d.HasRoom column rule) :
    Coherent { d with blocks := appendRule column rule d.blocks } := by
  rw [appendRule_eq_update]
  refine { h with columns := Keyed.nodup_keys_update h.columns, types := fun e he => ?_ }
  rcases Keyed.mem_of_mem_update he with rfl | he
  · exact length_filter_concat_le (h.rules? column) hroom
  · exact h.types e he

/-- **Every accepted call keeps a draft coherent.** -/
theorem Coherent.of_extends {call : Call} (h : d.Coherent) (hcall : d.Extends call d') :
    d'.Coherent := by
  cases hcall with
  | beginColumn column hnew =>
    refine { h with columns := ?_, types := fun e he => ?_ }
    · rw [List.map_append, List.map_singleton]
      exact List.nodup_append_comm.mpr (List.nodup_cons.mpr ⟨hnew, h.columns⟩)
    · rcases List.mem_append.mp he with he | he
      · exact h.types e he
      · simp [List.mem_singleton.mp he]
  | addRule column rule hroom => exact h.appendRule hroom
  | addKind column kind argument line rule hroom => exact h.appendRule hroom
  | addConditional c hnew =>
    refine { h with conditionalNames := ?_ }
    rw [withConditional, List.map_append, List.map_singleton]
    exact List.nodup_append_comm.mpr (List.nodup_cons.mpr ⟨hnew, h.conditionalNames⟩)
  | _ => exact { h with }

/-- An accepted call declares what had not been declared, and nothing besides. -/
theorem declares_of_extends {call : Call} (h : d.Extends call d') (declaration : Declaration) :
    (if call.declaration? = some declaration then 1 else 0) + (d.declares declaration).toNat =
      (d'.declares declaration).toNat := by
  cases h <;> cases declaration <;> simp_all [Call.declaration?, declares, requireAll, forbidExtra,
    keepOrder, withConditional]

namespace Call

/-! ### Sessions -/

/-- The calls of a session that are accepted, in order. -/
def accepted : List Call → Draft → List Call
  | [], _ => []
  | call :: rest, d =>
    match call.perform.on d with
    | (.ok _, d') => call :: accepted rest d'
    | (.error _, d') => accepted rest d'

variable {call : Call} {calls : List Call} {fault : DraftFault}

/-- The steps of an accepted call. -/
theorem perform_on_of_ok (h : d.accept call = .ok d') : call.perform.on d = (.ok (), d') := by
  rw [perform_on, h, outcome]

/-- A refused call leaves the draft that it found. -/
theorem perform_on_of_error (h : d.accept call = .error fault) :
    call.perform.on d = (.error fault, d) := by
  rw [perform_on, h, outcome]

/-- The accepted calls of a session are accepted again without the others, and they come to the same
draft. -/
theorem session_accepted (calls : List Call) (d : Draft) :
    session (accepted calls d) d =
      ((accepted calls d).map fun _ => .ok (), (session calls d).2) := by
  -- A refused call leaves the same draft to the rest, so it can be left out.
  induction calls generalizing d with
  | nil => rfl
  | cons call calls ih =>
    rw [session, accepted]
    cases hcall : d.accept call with
    | ok d' => simp only [perform_on_of_ok hcall, session, List.map_cons, ih]
    | error fault => simp only [perform_on_of_error hcall, ih]

/-- Every draft of a session is coherent if the first one is. -/
theorem coherent_session (calls : List Call) (hd : d.Coherent) :
    (session calls d).2.Coherent := by
  induction calls generalizing d with
  | nil => exact hd
  | cons call calls ih =>
    rw [session]
    cases hcall : d.accept call with
    | ok d' =>
      rw [perform_on_of_ok hcall]
      exact ih (hd.of_extends (extends_of_accept hcall))
    | error fault =>
      rw [perform_on_of_error hcall]
      exact ih hd

/-- The accepted calls of a kind that is for one declaration are as many as there are such
declarations at the end and were not there at the beginning. -/
theorem count_accepted (declaration : Declaration) (calls : List Call) (d : Draft) :
    ((accepted calls d).countP fun call => call.declaration? = some declaration) +
        (d.declares declaration).toNat =
      ((session calls d).2.declares declaration).toNat := by
  induction calls generalizing d with
  | nil => simp [accepted, session]
  | cons call calls ih =>
    rw [session, accepted]
    cases hcall : d.accept call with
    | ok d' =>
      have hstep := declares_of_extends (extends_of_accept hcall) declaration
      simp only [perform_on_of_ok hcall, List.countP_cons, decide_eq_true_eq, ← ih d', ← hstep]
      omega
    | error fault => simpa only [perform_on_of_error hcall] using ih d

/-- **Calls are atomic.** In the draft that any calls have led to, a further call that is refused
leaves the draft as it is. Without the refused ones the calls are all accepted and come to the same
draft, so that the same ruleset is built. The draft has different columns, each with at most one
value type, and different conditional rules; and nothing that can be declared only once was declared
by more than one of the accepted calls. -/
theorem session_atomic (calls : List Call) :
    (∀ (call : Call) (fault : DraftFault),
      (call.perform.on (session calls empty).2).1 = .error fault →
      (call.perform.on (session calls empty).2).2 = (session calls empty).2) ∧
    session (accepted calls empty) empty =
      ((accepted calls empty).map fun _ => .ok (), (session calls empty).2) ∧
    (session (accepted calls empty) empty).2.build = (session calls empty).2.build ∧
    (session calls empty).2.Coherent ∧
    ∀ declaration : Declaration,
      ((accepted calls empty).countP fun call => call.declaration? = some declaration) ≤ 1 := by
  refine ⟨fun call fault h => ?_, session_accepted calls empty, ?_,
    coherent_session calls coherent_empty, fun declaration => ?_⟩
  · rw [perform_on] at h ⊢
    cases hcall : (session calls empty).2.accept call with
    | ok d' => simp [hcall, outcome] at h
    | error _ => rfl
  · rw [session_accepted]
  · have hcount := count_accepted declaration calls empty
    have hle := Bool.toNat_le ((session calls empty).2.declares declaration)
    omega

/-- A price list that is declared with some mistakes: an unknown separator, columns that are
declared again, a rule whose argument is of the wrong type, and a conditional rule for a column
without a name. A second value type for the price is refused in the end, and all is as without the
mistakes. -/
theorem session_atomic_of_price_list :
    let unique : Rule := ⟨.unique, none⟩
    let columns : Call := .columnNames ["item", "price"]
    let separator : Call := .separator (some ",")
    let decimal : Call := .addKind "price" .typeIs (.text (.typeName .floatingPoint)) none
    let integer : Call := .addKind "price" .typeIs (.text (.typeName .integer)) none
    let calls : List Call :=
      [columns, .separator (some "x"), separator, .columnNames ["item"], decimal,
        .addKind "item" .minLength (.text (.text "2")) none, .addRule "item" unique,
        .addConditional "c" ("item", unique) ("", unique) none]
    let d := (session calls empty).2
    integer.perform.on d = (.error (.secondType "price"), d) ∧
      (session [columns, separator, decimal, .addRule "item" unique] empty).2.build = d.build := by
  intro unique columns separator decimal integer calls d
  obtain ⟨hrefused, -, hbuild, -⟩ := session_atomic calls
  have hanswer : (integer.perform.on d).1 = .error (.secondType "price") := rfl
  exact ⟨Prod.ext hanswer (hrefused integer _ hanswer), hbuild⟩

end Call

end Draft

end TableRules
