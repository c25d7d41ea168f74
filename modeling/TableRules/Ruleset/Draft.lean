import TableRules.Ruleset.Basic

/-!
# Drafts of rulesets

A draft is a ruleset that is still being declared, one declaration after another. Every declaration
either extends the draft or is refused, and a refused one leaves nothing behind: the operations
return a new draft or the reason (`DraftFault`).

* Null values, separator, precision and column names can each be declared once.
* Blocks and conditional rules keep the order in which they were opened.
* `settings` are the settings declared so far, `build` is the finished ruleset.
-/

namespace TableRules

/-- What can be declared once only. -/
inductive Declaration
  | nullValues
  | separator
  | precision
  | columnNames
  deriving DecidableEq, Repr

/-- The reason for refusing a second declaration. -/
def Declaration.refusal : Declaration → String
  | .nullValues => "null values are already declared"
  | .separator => "thousands separator is already declared"
  | .precision => "precision is already declared"
  | .columnNames => "column names are already declared"

/-- Why a declaration is refused. -/
inductive DraftFault
  | alreadyDeclared (d : Declaration)
  | notPositive (epsilon : Number)
  | noDateFormats
  | noColumnNames
  | repeatedBlock (column : String)
  | secondType (column : String)
  | repeatedConditional (name : String)
  | columnsMissing
  | invalid (faults : List FieldFault)
  deriving DecidableEq

/-- The text of a number in a message. -/
def Number.text : Number → String
  | .integer n => Text.decimalInt n
  | .real x => x.text

namespace DraftFault

/-- The reason for refusing a second block. -/
def repeatedBlockReason (column : String) : String :=
  "duplicate block for column '" ++ column ++ "'"

/-- The wording of a fault; for a record with several faults, of the first one. -/
def message : DraftFault → String
  | .alreadyDeclared d => d.refusal
  | .notPositive e => "precision must be positive, got " ++ e.text
  | .noDateFormats => "date formats list cannot be empty"
  | .noColumnNames => "column names list cannot be empty"
  | .repeatedBlock c => repeatedBlockReason c
  | .secondType c => Block.secondType c
  | .repeatedConditional n => Ruleset.repeatedName n
  | .columnsMissing => "missing mandatory 'column names in [...]' declaration"
  | .invalid faults => (faults.head?.map FieldFault.message).getD ""

end DraftFault

/-- A ruleset that is being declared. An absent field has not been declared; the separator may be
declared to be none. -/
structure Draft where
  nullValues : Option (List String)
  separator : Option (Option Separator)
  precision : Option Number
  names : Option (List String)
  allRequired : Bool
  noExtra : Bool
  checkOrder : Bool
  blocks : List (String × List Rule)
  conditionals : List Conditional
  dateFormats : Option (List String)

/-- Whether a number is zero or less. -/
def Number.isAtMostZero : Number → Bool
  | .integer n => n ≤ 0
  | .real x => x.lt (Double.zero false) || x.eq (Double.zero false)

namespace Draft

/-- A draft without any declaration. -/
def empty : Draft := ⟨none, none, none, none, false, false, false, [], [], none⟩

/-! ### Settings -/

/-- Declares the null values. -/
def declareNullValues (d : Draft) (values : List String) : Except DraftFault Draft :=
  match d.nullValues with
  | some _ => .error (.alreadyDeclared .nullValues)
  | none => .ok { d with nullValues := some values }

/-- Declares the separator, or that there is none. -/
def declareSeparator (d : Draft) (separator : Option String) : Except DraftFault Draft :=
  match d.separator with
  | some _ => .error (.alreadyDeclared .separator)
  | none =>
    match Settings.readSeparator separator with
    | .error e => .error (.invalid [e])
    | .ok s => .ok { d with separator := some s }

/-- Declares the precision. -/
def declarePrecision (d : Draft) (epsilon : Number) : Except DraftFault Draft :=
  match d.precision with
  | some _ => .error (.alreadyDeclared .precision)
  | none =>
    if epsilon.isAtMostZero then .error (.notPositive epsilon)
    else .ok { d with precision := some epsilon }

/-- Names the date formats that rules may ask for. -/
def restrictFormats (d : Draft) (names : List String) : Except DraftFault Draft :=
  if names.isEmpty then .error .noDateFormats else .ok { d with dateFormats := some names }

/-- The declared precision, or the standard one; `none` where it is too large for a double. -/
def precisionValue? (d : Draft) : Option Double :=
  match d.precision with
  | none => some Settings.defaultPrecision
  | some n => n.toDouble?

/-- The settings declared so far. -/
def settings (d : Draft) : Except (List FieldFault) Settings :=
  match Settings.readPrecision d.precisionValue? with
  | .error fault => .error [fault]
  | .ok p => .ok (Settings.ofPrecision (d.nullValues.getD []) d.separator.join p)

/-! ### Columns -/

/-- Declares the columns. -/
def declareColumns (d : Draft) (names : List String) : Except DraftFault Draft :=
  match d.names with
  | some _ => .error (.alreadyDeclared .columnNames)
  | none => if names.isEmpty then .error .noColumnNames else .ok { d with names := some names }

/-- Asks for all declared columns. -/
def requireAll (d : Draft) : Draft := { d with allRequired := true }

/-- Asks for no column that is not declared. -/
def forbidExtra (d : Draft) : Draft := { d with noExtra := true }

/-- Asks for the declared order of columns. -/
def keepOrder (d : Draft) : Draft := { d with checkOrder := true }

/-! ### Rules -/

/-- The rules of the block for a column, if it is open. -/
def rules? (d : Draft) (column : String) : Option (List Rule) := d.blocks.lookup column

/-- Whether there is a block for a column. -/
def hasBlock (d : Draft) (column : String) : Bool := (d.rules? column).isSome

/-- Opens an empty block. -/
def beginColumn (d : Draft) (column : String) : Except DraftFault Draft :=
  if d.hasBlock column then .error (.repeatedBlock column)
  else .ok { d with blocks := d.blocks ++ [(column, [])] }

/-- Adds a rule to the block for a column, after those it has; opens the block if need be. -/
def appendRule (column : String) (rule : Rule) :
    List (String × List Rule) → List (String × List Rule)
  | [] => [(column, [rule])]
  | (c, rules) :: rest =>
    if c == column then (c, rules ++ [rule]) :: rest else (c, rules) :: appendRule column rule rest

/-- Adds a rule for a column. -/
def addRule (d : Draft) (column : String) (rule : Rule) : Except DraftFault Draft :=
  if rule.declaresType && ((d.rules? column).getD []).any Rule.declaresType then
    .error (.secondType column)
  else .ok { d with blocks := appendRule column rule d.blocks }

/-- Whether there is a conditional rule of a name. -/
def hasConditional (d : Draft) (name : String) : Bool := d.conditionals.any fun c => c.name == name

/-- Adds a conditional rule. -/
def addConditional (d : Draft) (name : String) (antecedent consequent : String × Rule)
    (line : Option Int) : Except DraftFault Draft :=
  if d.hasConditional name then .error (.repeatedConditional name)
  else
    let made : Except (List FieldFault) Conditional := do
      let a ← Clause.make antecedent.1 antecedent.2
      let c ← Clause.make consequent.1 consequent.2
      Conditional.make name a c line
    match made with
    | .error faults => .error (.invalid faults)
    | .ok c => .ok { d with conditionals := d.conditionals ++ [c] }

/-! ### The finished ruleset -/

/-- The parts of the finished ruleset, checked one after another. -/
def assemble (d : Draft) (names : List String) : Except (List FieldFault) Ruleset := do
  let settings ← d.settings
  let columns ← ColumnSpec.make names d.allRequired d.noExtra d.checkOrder
  let blocks ← d.blocks.mapM fun (column, rules) =>
    (Block.make column rules).map fun b => (column, b)
  Ruleset.make settings columns blocks d.conditionals d.dateFormats

/-- The finished ruleset. -/
def build (d : Draft) : Except DraftFault Ruleset :=
  match d.names with
  | none => .error .columnsMissing
  | some names => (d.assemble names).mapError .invalid

end Draft

end TableRules
