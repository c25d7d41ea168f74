import TableRules.Check.Basic
import TableRules.Ruleset.Basic

/-!
# Engines

An engine is a ruleset together with the catalog that its cells are read with. It can only be made
if the catalog has every date format that a rule asks for.
-/

namespace TableRules

/-- Why a ruleset and a catalog do not make an engine. -/
inductive EngineFault
  | badCatalog (fault : CatalogFault)
  | missingFormats (names : List String)
  deriving DecidableEq, Repr

/-- The wording of a fault. -/
def EngineFault.message : EngineFault → String
  | .badCatalog f => f.message
  | .missingFormats names => "Date formats missing from catalog: " ++ Text.joinWith ", " names

/-- A ruleset ready for evaluation. With more than one worker, columns and conditional rules are
evaluated side by side. -/
structure Engine where
  ruleset : Ruleset
  catalog : Catalog
  workers : Nat

namespace Engine

/-- The catalog that a ruleset was read against. -/
def ownCatalog (r : Ruleset) : Except CatalogFault Catalog :=
  match r.dateFormats with
  | none => .ok Catalog.standard
  | some [] => .ok Catalog.standard
  | some names => Catalog.ofNames names

/-- The date formats that rules ask for and a catalog lacks. -/
def missingFormats (r : Ruleset) (c : Catalog) : List String :=
  let asked := (r.allRules.filterMap Ruleset.formatName?).map Wording.value
  Text.sortedDistinct (asked.filter fun n => !c.contains n)

/-- The engine of a ruleset, with a catalog or with the ruleset's own one. -/
def make (ruleset : Ruleset) (catalog : Option Catalog) (workers : Int) :
    Except EngineFault Engine :=
  let chosen : Except CatalogFault Catalog := match catalog with
    | some c => .ok c
    | none => ownCatalog ruleset
  match chosen with
  | .error f => .error (.badCatalog f)
  | .ok c =>
    match missingFormats ruleset c with
    | [] => .ok ⟨ruleset, c, (max 1 workers).toNat⟩
    | names => .error (.missingFormats names)

/-- The settings under which cells are read. -/
def settings (e : Engine) : Settings := e.ruleset.settings

/-- The cells of a column, read with a type. -/
def cells (e : Engine) (table : Table) (column : String) (type : Option ValueType) :
    Except NumberFault (List Cell) :=
  Cell.readColumn e.settings e.catalog type table column

/-- The check of a rule. -/
def check (e : Engine) (rule : Rule) : Except CheckFault Check :=
  Check.ofConstraint e.catalog rule.constraint

/-- The number of null cells in each column of a table. -/
def missingValues (e : Engine) (table : Table) : List (String × Nat) :=
  (Text.distinct table.header).map fun c =>
    (c, ((table.column c).filter fun raw => isNull raw e.settings).length)

/-- The kinds of the rules in blocks and how often each occurs, in order of first occurrence. -/
def kindCounts (r : Ruleset) : List (RuleKind × Nat) :=
  let kinds := (r.blocks.flatMap Block.rules).map Rule.kind
  (Text.distinct kinds).map fun k => (k, kinds.count k)

end Engine

end TableRules
