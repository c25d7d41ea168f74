import TableRules.Keyed
import TableRules.Rule.Constraint
import TableRules.Settings

/-!
# Rulesets

A **ruleset** is everything a rules text declares: the settings, the declared columns, one **block**
of rules for each column that has any, and the **conditional** rules, which tie a rule for one
column to a rule for another.

`Block.make`, `Clause.make`, `Conditional.make`, `ColumnSpec.make` and `Ruleset.make` check what
such a record has to satisfy:

* names of columns and of conditional rules are not empty, and some column is declared;
* a block declares at most one value type;
* conditional rules have different names, and the key of a block is its column;
* a rule on a date format names a format of the ruleset's catalog.

A ruleset carries that its blocks are for different columns and that its conditional rules have
different names.
-/

namespace TableRules

/-! ### The parts of a ruleset -/

/-- The declared columns and what is asked of a header. -/
structure ColumnSpec where
  names : List String
  allRequired : Bool
  noExtra : Bool
  checkOrder : Bool
  deriving DecidableEq, Repr

/-- The rules for one column, in order of declaration. -/
structure Block where
  column : String
  rules : List Rule

/-- One side of a conditional rule. -/
structure Clause where
  column : String
  rule : Rule

/-- A rule that must hold wherever another one does. -/
structure Conditional where
  name : String
  antecedent : Clause
  consequent : Clause
  line : Option Int

/-- All that a rules text declares. `dateFormats` are the names of the catalog it was read against,
if that was not the standard one. -/
@[ext]
structure Ruleset where
  settings : Settings
  columns : ColumnSpec
  blocks : List Block
  conditionals : List Conditional
  dateFormats : Option (List String)
  blocks_nodup : (blocks.map Block.column).Nodup
  conditionals_nodup : (conditionals.map Conditional.name).Nodup

/-! ### Making the parts -/

/-- The fault of a text that has to be non-empty. -/
def emptyFault (field text : String) : List FieldFault :=
  if text.isEmpty then [.emptyText field] else []

/-- Declared columns; there has to be one. -/
def ColumnSpec.make (names : List String) (allRequired noExtra checkOrder : Bool) :
    Except (List FieldFault) ColumnSpec :=
  if names.isEmpty then .error [.noItems "names"]
  else .ok ⟨names, allRequired, noExtra, checkOrder⟩

namespace Block

/-- The reason for refusing a second value type. -/
def secondType (column : String) : String :=
  "column '" ++ column ++ "' declares more than one value type"

/-- The rules for a column. -/
def make (column : String) (rules : List Rule) : Except (List FieldFault) Block :=
  match emptyFault "column" column with
  | [] =>
    if 1 < (rules.filter Rule.declaresType).length then
      .error [.rejected none (secondType column)]
    else .ok ⟨column, rules⟩
  | faults => .error faults

/-- The declared type of a block, if it declares one. -/
def valueType (b : Block) : Option ValueType :=
  b.rules.findSome? fun r => r.constraint.declaredType?

end Block

namespace Clause

/-- A clause with a given rule. -/
def make (column : String) (rule : Rule) : Except (List FieldFault) Clause :=
  match emptyFault "column" column with
  | [] => .ok ⟨column, rule⟩
  | faults => .error faults

/-- The column and the phrase of the rule; `none` when the rule has no phrase. -/
def describe? (c : Clause) : Option String := c.rule.describe?.map fun t => c.column ++ " " ++ t

end Clause

/-- A conditional rule with given sides. -/
def Conditional.make (name : String) (antecedent consequent : Clause) (line : Option Int) :
    Except (List FieldFault) Conditional :=
  match emptyFault "name" name with
  | [] => .ok ⟨name, antecedent, consequent, line⟩
  | faults => .error faults

/-- The clauses of a conditional rule. -/
def Conditional.clauses (c : Conditional) : List Clause := [c.antecedent, c.consequent]

/-! ### Rulesets -/

namespace Ruleset

/-- The name of a date format that a rule asks for. -/
def formatName? (r : Rule) : Option Wording :=
  match r.constraint with
  | .hasFormat w => some w
  | _ => none

/-- All rules of blocks and conditional rules, in order of declaration. -/
def rulesOf (blocks : List Block) (conditionals : List Conditional) : List Rule :=
  blocks.flatMap Block.rules ++ conditionals.flatMap fun c => c.clauses.map Clause.rule

/-- The first name that a list holds twice, at its second place. -/
def firstRepeated? (seen : List String) : List String → Option String
  | [] => none
  | n :: rest => if seen.contains n then some n else firstRepeated? (n :: seen) rest

/-- The reason for refusing a second conditional rule of a name. -/
def repeatedName (name : String) : String := "duplicate conditional rule name '" ++ name ++ "'"

/-- The reason for refusing a date format. -/
def unknownFormat (name : String) : String := "unsupported date format '" ++ name ++ "'"

/-- Why given blocks and conditional rules do not make a ruleset. -/
def refusal? (blocks : List (String × Block)) (conditionals : List Conditional)
    (dateFormats : Option (List String)) : Option String :=
  match blocks.find? fun e => e.1 != e.2.column with
  | some (key, b) =>
    some ("block key '" ++ key ++ "' does not match column '" ++ b.column ++ "'")
  | none =>
    match firstRepeated? [] (conditionals.map Conditional.name) with
    | some n => some (repeatedName n)
    | none =>
      match dateFormats with
      | none => none
      | some names =>
        let asked := (rulesOf (blocks.map (·.2)) conditionals).filterMap formatName?
        (asked.find? fun w => !names.contains w.value).map fun w => unknownFormat w.shown

/-- No name is listed twice exactly if all are different. -/
theorem firstRepeated?_eq_none_iff {seen names : List String} :
    firstRepeated? seen names = none ↔ names.Nodup ∧ ∀ n ∈ names, n ∉ seen := by
  induction names generalizing seen with
  | nil => simp [firstRepeated?]
  | cons n names ih =>
    rw [firstRepeated?, List.nodup_cons, List.forall_mem_cons]
    split
    · rename_i hseen
      simp [List.contains_iff_mem.mp hseen]
    · rename_i hseen
      have hn : n ∉ seen := fun h => hseen (List.contains_iff_mem.mpr h)
      rw [ih]
      constructor
      · rintro ⟨hnodup, hnew⟩
        refine ⟨⟨fun h => ?_, hnodup⟩, hn, fun m hm h => ?_⟩
        · exact hnew n h List.mem_cons_self
        · exact hnew m hm (List.mem_cons_of_mem n h)
      · rintro ⟨⟨hnotin, hnodup⟩, -, hnew⟩
        refine ⟨hnodup, fun m hm h => ?_⟩
        rcases List.mem_cons.mp h with rfl | h
        · exact hnotin hm
        · exact hnew m hm h

theorem refusal?_eq_none_iff {blocks : List (String × Block)}
    {conditionals : List Conditional} {formats : Option (List String)} :
    refusal? blocks conditionals formats = none ↔
      (∀ e ∈ blocks, e.1 = e.2.column) ∧ (conditionals.map Conditional.name).Nodup ∧
        ∀ known, formats = some known → ∀ rule ∈ rulesOf (blocks.map (·.2)) conditionals, ∀ w,
          formatName? rule = some w → w.value ∈ known := by
  have hkeys : (blocks.find? fun e => e.1 != e.2.column) = none ↔
      ∀ e ∈ blocks, e.1 = e.2.column := by
    simp [List.find?_eq_none]
  have hnames := @firstRepeated?_eq_none_iff [] (conditionals.map Conditional.name)
  simp only [List.not_mem_nil, not_false_eq_true, implies_true, and_true] at hnames
  rw [← hkeys, ← hnames]
  unfold refusal?
  cases blocks.find? fun e => e.1 != e.2.column with
  | some e => simp
  | none =>
    cases firstRepeated? [] (conditionals.map Conditional.name) with
    | some n => simp
    | none =>
      cases formats with
      | none => simp
      | some known =>
        simp only [Option.map_eq_none_iff, List.find?_eq_none, List.mem_filterMap,
          Option.some.injEq, true_and, forall_eq']
        constructor
        · intro h rule hrule w hw
          simpa using h w ⟨rule, hrule, hw⟩
        · rintro h w ⟨rule, hrule, hw⟩
          simpa using h rule hrule w hw

/-- Blocks that are not refused are for different columns. -/
theorem nodup_of_refusal? {blocks : List (String × Block)} {conditionals : List Conditional}
    {formats : Option (List String)} (hkeys : (blocks.map (·.1)).Nodup)
    (h : refusal? blocks conditionals formats = none) :
    ((blocks.map (·.2)).map Block.column).Nodup := by
  rw [List.map_map]
  exact (List.map_congr_left (refusal?_eq_none_iff.mp h).1) ▸ hkeys

/-- A ruleset with given parts. Of two blocks under one key the later one counts. -/
def make (settings : Settings) (columns : ColumnSpec) (blocks : List (String × Block))
    (conditionals : List Conditional) (dateFormats : Option (List String)) :
    Except (List FieldFault) Ruleset :=
  let blocks := Keyed.ofList blocks
  match h : refusal? blocks conditionals dateFormats with
  | some reason => .error [.rejected none reason]
  | none =>
    .ok ⟨settings, columns, blocks.map (·.2), conditionals, dateFormats,
      nodup_of_refusal? (Keyed.nodup_keys_ofList _) h, (refusal?_eq_none_iff.mp h).2.1⟩

/-- Parts make a ruleset exactly if they are not refused. -/
theorem make_eq_ok_iff {settings : Settings} {columns : ColumnSpec}
    {blocks : List (String × Block)} {conditionals : List Conditional}
    {formats : Option (List String)} {ruleset : Ruleset} :
    make settings columns blocks conditionals formats = .ok ruleset ↔
      refusal? (Keyed.ofList blocks) conditionals formats = none ∧ ruleset.settings = settings ∧
        ruleset.columns = columns ∧ ruleset.blocks = (Keyed.ofList blocks).map (·.2) ∧
        ruleset.conditionals = conditionals ∧ ruleset.dateFormats = formats := by
  unfold make
  dsimp only
  split
  · rename_i reason hrefused
    simp [hrefused]
  · rename_i hnone
    rw [Except.ok.injEq, eq_comm, Ruleset.ext_iff]
    exact ⟨fun hparts => ⟨hnone, hparts⟩, fun h => h.2⟩

/-- All rules of a ruleset, those of its blocks first. -/
def allRules (r : Ruleset) : List Rule := rulesOf r.blocks r.conditionals

/-- The number of rules of a ruleset; a conditional rule counts as two. -/
def ruleCount (r : Ruleset) : Nat :=
  (r.blocks.flatMap Block.rules).length + 2 * r.conditionals.length

/-- The block for a column, if there is one. -/
def block? (r : Ruleset) (column : String) : Option Block :=
  r.blocks.find? fun b => b.column == column

/-- The type that a column declares. -/
def declaredType (r : Ruleset) (column : String) : Option ValueType :=
  (r.block? column).bind Block.valueType

/-- The rules are counted one by one. -/
theorem ruleCount_eq_length (r : Ruleset) : r.ruleCount = r.allRules.length := by
  have h : ∀ cs : List Conditional,
      (cs.flatMap fun c => [c.antecedent.rule, c.consequent.rule]).length = 2 * cs.length := by
    intro cs
    induction cs with
    | nil => rfl
    | cons c cs ih =>
      simp only [List.flatMap_cons, List.length_append, ih, List.length_cons, List.length_nil]
      omega
  simp only [ruleCount, allRules, rulesOf, Conditional.clauses, List.map_cons, List.map_nil,
    List.length_append, h, List.length_flatMap]

end Ruleset

end TableRules
