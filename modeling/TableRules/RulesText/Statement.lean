import TableRules.RulesText.Phrase

/-!
# Statements

A statement is a line that stands on its own, outside the blocks: a setting, the column names, a
demand on the header, or the head of a block or of a conditional rule. `Statement.read?` recognizes
statements by their first words and leaves what follows the arguments to the caller.
-/

namespace TableRules

open Tokens

/-- The statements of a rules text. -/
inductive Statement
  | columnNames (names : List String)
  | nullValues (values : List String)
  | separator (text : String)
  | precision (epsilon : Double)
  | requireAll
  | forbidExtra
  | keepOrder
  | openBlock (column : String)
  | openConditional (name : String)
  deriving DecidableEq

namespace Statement

/-- The tokens after `column:`, if a line starts so. -/
def columnHead? (ts : List Token) : Option (List Token) :=
  ((dropWords? ["column"] ts).bind (accept? .colon)).map (·.2)

/-- The phrases of statements, except the head of a block. -/
def phrases (settings : Settings) : List (Phrase Statement) :=
  let precisionOf (ts : List Token) : Scan Statement :=
    (readReal settings ts).map fun (x, rest) => (.precision x, rest)
  [⟨["column", "names", "in"], fun ts =>
      (readTexts "column names" settings ts).map fun (names, rest) => (.columnNames names, rest)⟩,
   ⟨["conditional", "rule"], fun ts =>
      (expect .colon "':'" ts).bind fun (_, rest) =>
        (readName "a conditional rule name" rest).map fun (name, after) =>
          (.openConditional name, after)⟩,
   ⟨["allowed", "null", "values", "in"], fun ts =>
      (readTexts "null values" settings ts).map fun (values, rest) => (.nullValues values, rest)⟩,
   ⟨["thousands", "separator", "is"], fun ts =>
      (expect .string "a quoted separator" ts).map fun (s, rest) => (.separator s, rest)⟩,
   ⟨["precision", "is"], precisionOf⟩,
   ⟨["numeric", "precision", "is"], precisionOf⟩,
   .bare ["all", "columns", "required"] .requireAll,
   .bare ["no", "extra", "columns", "allowed"] .forbidExtra,
   .bare ["check", "column", "order"] .keepOrder]

/-- Reads a statement and the tokens after it; `none` when the line is no statement. -/
def read? (settings : Settings) (ts : List Token) : Option (Scan Statement) :=
  match columnHead? ts with
  | some rest =>
    some ((readName "a column name" rest).map fun (name, after) => (.openBlock name, after))
  | none => Phrase.readFirst? (phrases settings) ts

end Statement

end TableRules
