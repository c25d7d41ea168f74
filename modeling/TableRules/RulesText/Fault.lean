import TableRules.Pattern.Fault
import TableRules.Ruleset.Draft
import TableRules.RulesText.Lexer

/-!
# Faults of a rules text

A rules text is refused at the first line that breaks its form. `RulesCause` says what is wrong
there, `RulesFault` adds the line. Two kinds of faults carry no line: a count with more digits than
are read, and a pattern that breaks a limit rather than the form of patterns.
-/

namespace TableRules

/-- What is wrong with a line of a rules text, or with the text as a whole. -/
inductive RulesCause
  | lexical (fault : LexFault)
  | expected (what : String) (found : Option String)
  | unexpected (value : String) (column : Nat)
  | nameExpected (what : String)
  | nameEmpty (what : String)
  | notTexts (what : String)
  | refused (fault : DraftFault)
  | outsideBlock
  | headerContinues
  | clauseRepeated (name : String)
  | thenExpected (name : String)
  | ifRepeated (name : String)
  | thenBeforeIf (name : String)
  | notConditional (name : String)
  | ifExpected (name : String)
  | incomplete (name : String) (clause : String)
  | clauseExpected
  | ruleMissing (column : String)
  | unknownFormat (name : String)
  | unknownType (name : String)
  | unknownRule
  | invalidNumber (text : String)
  | notWhole (text : String)
  | invalidPattern (text : String) (fault : PatternFault)
  deriving DecidableEq

namespace RulesCause

/-- A conditional rule, by its name. -/
def conditionalRule (name : String) : String := "conditional rule '" ++ name ++ "'"

/-- The wording of a cause. -/
def reason : RulesCause → String
  | .lexical f => f.reason
  | .expected what (some v) => "expected " ++ what ++ ", found '" ++ v ++ "'"
  | .expected what none => "expected " ++ what ++ ", found end of line"
  | .unexpected v column => "unexpected '" ++ v ++ "' at column " ++ Text.decimal column
  | .nameExpected what => "expected " ++ what
  | .nameEmpty what => what ++ " cannot be empty"
  | .notTexts what => what ++ " must be string literals"
  | .refused f => f.message
  | .outsideBlock => "value rule outside a column block"
  | .headerContinues => "a column block header takes only the column name"
  | .clauseRepeated n => conditionalRule n ++ " takes exactly one clause per section"
  | .thenExpected n =>
    conditionalRule n ++ " takes exactly one clause per section; expected 'then'"
  | .ifRepeated n => conditionalRule n ++ " has more than one 'if'"
  | .thenBeforeIf n => conditionalRule n ++ " needs an 'if' clause before 'then'"
  | .notConditional n =>
    "expected 'if', 'then' or a 'column:' clause in " ++ conditionalRule n
  | .ifExpected n => conditionalRule n ++ " must start with 'if'"
  | .incomplete n clause => conditionalRule n ++ " is missing its '" ++ clause ++ "' clause"
  | .clauseExpected => "expected a 'column:' clause"
  | .ruleMissing c => "clause for column '" ++ c ++ "' is missing its rule"
  | .unknownFormat n => Ruleset.unknownFormat n
  | .unknownType n =>
    "unknown value type '" ++ n ++ "' (expected one of: " ++
      Text.joinWith ", " (ValueType.all.map ValueType.name) ++ ")"
  | .unknownRule => "unrecognized rule"
  | .invalidNumber t => "invalid number literal '" ++ t ++ "'"
  | .notWhole t => "expected a non-negative whole number, found '" ++ t ++ "'"
  | .invalidPattern t f => "invalid regular expression /" ++ t ++ "/: " ++ f.message

end RulesCause

/-- Why a rules text is refused. -/
inductive RulesFault
  | malformed (cause : RulesCause) (line : Option Int) (text : Option String)
  | tooManyDigits
  | pattern (fault : PatternFault)
  deriving DecidableEq

namespace RulesFault

/-- A reason with the line it was found on. -/
def located (line : Option Int) (reason : String) (text : Option String) : String :=
  let place := match line with
    | some n => "line " ++ Text.decimalInt n ++ ": "
    | none => ""
  let detail := match text with
    | some t => if t.isEmpty then "" else " -> " ++ Text.quoted (Text.trim t)
    | none => ""
  place ++ reason ++ detail

/-- The wording of a fault. -/
def message : RulesFault → String
  | .malformed cause line text => located line cause.reason text
  | .tooManyDigits => "too many digits"
  | .pattern f => f.message

end RulesFault

end TableRules
