import TableRules.Ruleset.Draft

/-!
# Declaring a ruleset call by call

A program may declare a ruleset without a rules text, by calls on a draft. A call changes the draft
in place or is refused with a fault, and the program may go on with further calls after a refusal.

`Call.perform` says what a call does, one step after another. What was changed by a step stays
changed when a later one is refused: a rule, for instance, has its block opened before it is
compared with the rules that are there (`putRule`). `Draft.accept` is the same call as one operation
on drafts.
-/

namespace TableRules

/-- Steps on a draft that may be refused. A refusal does not undo the steps before it. -/
abbrev Drafting := ExceptT DraftFault (StateM Draft)

namespace Drafting

/-- The answer to some steps on a draft, and the draft they leave. -/
def on {α : Type} (steps : Drafting α) (d : Draft) : Except DraftFault α × Draft :=
  (steps.run.run d).run

/-- A check that refuses if it finds something wrong. -/
def refuseIf (wrong : Bool) (fault : DraftFault) : Drafting Unit :=
  if wrong then throw fault else pure ()

/-- A value that is made from what is declared; the faults of a field are those of a record. -/
def made {α : Type} (value : Except (List FieldFault) α) : Drafting α :=
  match value with
  | .ok a => pure a
  | .error faults => throw (.invalid faults)

end Drafting

namespace Draft

open Drafting

/-- Whether something has been declared. -/
def declares (d : Draft) : Declaration → Bool
  | .nullValues => d.nullValues.isSome
  | .separator => d.separator.isSome
  | .precision => d.precision.isSome
  | .columnNames => d.names.isSome

/-- The check that something has not been declared before. -/
def checkNew (declaration : Declaration) : Drafting Unit := do
  refuseIf ((← get).declares declaration) (.alreadyDeclared declaration)

/-- A draft with a block for a column; it is empty if there was none. -/
def withBlock (d : Draft) (column : String) : Draft :=
  if d.hasBlock column then d else { d with blocks := d.blocks ++ [(column, [])] }

/-- Puts a rule into the block for a column. The block is opened before the rule is looked at. -/
def putRule (column : String) (rule : Rule) : Drafting Unit := do
  modify fun d => d.withBlock column
  let rules := ((← get).rules? column).getD []
  refuseIf (rule.declaresType && rules.any Rule.declaresType) (.secondType column)
  modify fun d => { d with blocks := appendRule column rule d.blocks }

/-- A call that declares something. A rule is passed on as it is, or as its kind and argument. -/
inductive Call
  | nullValues (values : List String)
  | separator (text : Option String)
  | precision (epsilon : Number)
  | dateFormats (names : List String)
  | columnNames (names : List String)
  | requireAll
  | forbidExtra
  | keepOrder
  | beginColumn (column : String)
  | addRule (column : String) (rule : Rule)
  | addKind (column : String) (kind : RuleKind) (argument : Argument) (line : Option Int)
  | addConditional (name : String) (antecedent consequent : String × Rule) (line : Option Int)

namespace Call

/-- What a call does, step by step. -/
def perform : Call → Drafting Unit
  | .nullValues values => do
    checkNew .nullValues
    modify fun d => { d with nullValues := some values }
  | .separator text => do
    checkNew .separator
    let s ← made ((Settings.readSeparator text).mapError fun fault => [fault])
    modify fun d => { d with separator := some s }
  | .precision epsilon => do
    checkNew .precision
    refuseIf epsilon.isAtMostZero (.notPositive epsilon)
    modify fun d => { d with precision := some epsilon }
  | .dateFormats names => do
    refuseIf names.isEmpty .noDateFormats
    modify fun d => { d with dateFormats := some names }
  | .columnNames names => do
    checkNew .columnNames
    refuseIf names.isEmpty .noColumnNames
    modify fun d => { d with names := some names }
  | .requireAll => modify Draft.requireAll
  | .forbidExtra => modify Draft.forbidExtra
  | .keepOrder => modify Draft.keepOrder
  | .beginColumn column => do
    refuseIf ((← get).hasBlock column) (.repeatedBlock column)
    modify fun d => { d with blocks := d.blocks ++ [(column, [])] }
  | .addRule column rule => putRule column rule
  | .addKind column kind argument line => do
    let rule ← made ((Rule.make kind argument line).mapError fun fault => [fault])
    putRule column rule
  | .addConditional name antecedent consequent line => do
    refuseIf ((← get).hasConditional name) (.repeatedConditional name)
    let a ← made (Clause.make antecedent.1 antecedent.2)
    let c ← made (Clause.make consequent.1 consequent.2)
    let conditional ← made (Conditional.make name a c line)
    modify fun d => { d with conditionals := d.conditionals ++ [conditional] }

/-- Calls one after another, whether they are refused or not: the answers, and the draft that is
left. -/
def session : List Call → Draft → List (Except DraftFault Unit) × Draft
  | [], d => ([], d)
  | call :: rest, d =>
    let (answer, d') := call.perform.on d
    let (answers, last) := session rest d'
    (answer :: answers, last)

end Call

/-- A call as one operation on a draft. -/
def accept (d : Draft) : Call → Except DraftFault Draft
  | .nullValues values => d.declareNullValues values
  | .separator text => d.declareSeparator text
  | .precision epsilon => d.declarePrecision epsilon
  | .dateFormats names => d.restrictFormats names
  | .columnNames names => d.declareColumns names
  | .requireAll => .ok d.requireAll
  | .forbidExtra => .ok d.forbidExtra
  | .keepOrder => .ok d.keepOrder
  | .beginColumn column => d.beginColumn column
  | .addRule column rule => d.addRule column rule
  | .addKind column kind argument line =>
    match Rule.make kind argument line with
    | .ok rule => d.addRule column rule
    | .error fault => .error (.invalid [fault])
  | .addConditional name antecedent consequent line =>
    d.addConditional name antecedent consequent line

end Draft

end TableRules
