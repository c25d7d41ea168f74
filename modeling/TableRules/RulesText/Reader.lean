import TableRules.RulesText.RulePhrase
import TableRules.RulesText.Statement

/-!
# Reading a rules text

A rules text is read line by line (`RulesReader.readLine`). What a line may be depends on where it
stands (`Position`):

* inside an unfinished conditional rule only its sections may follow: `if` with one clause, then
  `then` with one clause, each clause on the line of its section or on the next one;
* anywhere else a line may be a statement;
* inside a block it may also be a rule for the block's column.

`Ruleset.parse` reads a whole text. The lines are cut into tokens first, so that a text with a
line that holds no tokens is refused for that line, whatever the lines before it say.
-/

namespace TableRules

open Tokens

/-! ### Lines -/

/-- Numbers lines from `n` on and cuts those into tokens that hold any. -/
def tokenLinesFrom (n : Nat) : List String → Except RulesFault (List TokenLine)
  | [] => .ok []
  | text :: rest =>
    if isSkipped text then tokenLinesFrom (n + 1) rest
    else
      match scanTokens n text with
      | .error f => .error (.malformed (.lexical f) (some n) (some text))
      | .ok ts => (tokenLinesFrom (n + 1) rest).map (⟨n, text, ts⟩ :: ·)

/-- The lines of a text that hold tokens. -/
def tokenLines (source : String) : Except RulesFault (List TokenLine) :=
  tokenLinesFrom 1 (Text.splitLines source)

/-! ### Positions -/

/-- A column and a rule for it, as a clause of a conditional rule states them. -/
abbrev ClauseText : Type := String × Rule

/-- How far a conditional rule has been read. -/
inductive Stage
  | opened
  | inIf
  | afterIf (antecedent : ClauseText)
  | inThen (antecedent : ClauseText)

/-- The clause that a conditional rule lacks. -/
def Stage.missing : Stage → String
  | .opened => "if"
  | .inIf => "if"
  | .afterIf _ => "then"
  | .inThen _ => "then"

/-- A conditional rule that is not complete: its name and the line of its head. -/
structure Pending where
  name : String
  line : Int
  stage : Stage

/-- Where a line stands. -/
inductive Position
  | outside
  | inBlock (column : String)
  | inConditional (pending : Pending)
  | afterConditional (name : String)

/-- What has been read of a rules text. -/
structure RulesReader where
  draft : Draft
  place : Position

namespace RulesReader

/-- The settings in force. -/
def settings (r : RulesReader) : Except LineFault Settings :=
  match r.draft.settings with
  | .ok s => .ok s
  | .error faults => refuse (.refused (.invalid faults))

/-- A declaration that the draft accepts or refuses. -/
def declare (d : Except DraftFault Draft) : Except LineFault Draft :=
  match d with
  | .ok draft => .ok draft
  | .error f => refuse (.refused f)

/-! ### Conditional rules -/

/-- The stage that the words at the start of a line lead to, and the tokens after those words. -/
def enterSection (p : Pending) (ts : List Token) : Scan Stage :=
  match dropWords? ["if"] ts with
  | some rest =>
    match p.stage with
    | .opened => .ok (.inIf, rest)
    | _ => refuse (.ifRepeated p.name)
  | none =>
    match dropWords? ["then"] ts with
    | some rest =>
      match p.stage with
      | .afterIf a => .ok (.inThen a, rest)
      | .inThen a => .ok (.inThen a, rest)
      | _ => refuse (.thenBeforeIf p.name)
    | none =>
      if (Statement.columnHead? ts).isSome then .ok (p.stage, ts)
      else refuse (.notConditional p.name)

/-- Reads a clause. -/
def readClause (settings : Settings) (catalog : Catalog) (line : Int) (ts : List Token) :
    Except LineFault ClauseText :=
  match dropWords? ["column"] ts with
  | none => refuse .clauseExpected
  | some rest => do
    let (_, rest) ← expect .colon "':'" rest
    let (column, rest) ← readName "a column name" rest
    if rest.isEmpty then refuse (.ruleMissing column)
    else
      let rule ← readRule settings catalog line rest
      return (column, rule)

/-- Reads a line of an unfinished conditional rule. -/
def readSection (r : RulesReader) (catalog : Catalog) (p : Pending) (line : TokenLine) :
    Except LineFault RulesReader := do
  let (stage, rest) ← enterSection p line.tokens
  if rest.isEmpty then return { r with place := .inConditional { p with stage := stage } }
  else
    match stage with
    | .opened => refuse (.ifExpected p.name)
    | .afterIf _ => refuse (.thenExpected p.name)
    | .inIf =>
      let clause ← readClause (← r.settings) catalog line.number rest
      return { r with place := .inConditional { p with stage := .afterIf clause } }
    | .inThen antecedent =>
      let clause ← readClause (← r.settings) catalog line.number rest
      let draft ← declare (r.draft.addConditional p.name antecedent clause (some p.line))
      return ⟨draft, .afterConditional p.name⟩

/-! ### Statements and rules -/

/-- Opens a block. -/
def openBlock (r : RulesReader) (column : String) (rest : List Token) :
    Except LineFault RulesReader :=
  if rest.isEmpty then do
    let draft ← declare (r.draft.beginColumn column)
    return ⟨draft, .inBlock column⟩
  else
    match r.place with
    | .afterConditional name => refuse (.clauseRepeated name)
    | _ => refuse .headerContinues

/-- Opens a conditional rule. -/
def openConditional (r : RulesReader) (line : Int) (name : String) (rest : List Token) :
    Except LineFault RulesReader := do
  expectEnd rest
  if r.draft.hasConditional name then refuse (.refused (.repeatedConditional name))
  else return { r with place := .inConditional ⟨name, line, .opened⟩ }

/-- Makes a declaration and ends the statement. -/
def declareAll (r : RulesReader) (declared : Except DraftFault Draft) (rest : List Token) :
    Except LineFault RulesReader := do
  let draft ← declare declared
  expectEnd rest
  return { r with draft := draft, place := .outside }

/-- Performs a statement; `rest` is what follows it on its line. -/
def perform (r : RulesReader) (line : Int) (s : Statement) (rest : List Token) :
    Except LineFault RulesReader :=
  match s with
  | .columnNames names => r.declareAll (r.draft.declareColumns names) rest
  | .nullValues values => r.declareAll (r.draft.declareNullValues values) rest
  | .separator text => r.declareAll (r.draft.declareSeparator (some text)) rest
  | .precision x => r.declareAll (r.draft.declarePrecision (.real x)) rest
  | .requireAll => r.declareAll (.ok r.draft.requireAll) rest
  | .forbidExtra => r.declareAll (.ok r.draft.forbidExtra) rest
  | .keepOrder => r.declareAll (.ok r.draft.keepOrder) rest
  | .openBlock column => r.openBlock column rest
  | .openConditional name => r.openConditional line name rest

/-- Reads a line as a rule of the open block. -/
def readBlockRule (r : RulesReader) (catalog : Catalog) (settings : Settings) (line : TokenLine) :
    Except LineFault RulesReader :=
  match r.place with
  | .inBlock column => do
    let rule ← readRule settings catalog line.number line.tokens
    let draft ← declare (r.draft.addRule column rule)
    return { r with draft := draft }
  | _ => refuse .outsideBlock

/-- Reads a line that stands outside unfinished conditional rules. -/
def readPlainLine (r : RulesReader) (catalog : Catalog) (line : TokenLine) :
    Except LineFault RulesReader := do
  let settings ← r.settings
  match Statement.read? settings line.tokens with
  | some (.error e) => .error e
  | some (.ok (statement, rest)) => r.perform line.number statement rest
  | none => r.readBlockRule catalog settings line

/-- Reads one line. -/
def readLine (catalog : Catalog) (r : RulesReader) (line : TokenLine) :
    Except RulesFault RulesReader :=
  let result := match r.place with
    | .inConditional p => r.readSection catalog p line
    | _ => r.readPlainLine catalog line
  result.mapError (LineFault.onLine line)

/-- Finishes a text after its last line. -/
def finish (r : RulesReader) : Except RulesFault Ruleset :=
  match r.place with
  | .inConditional p => .error (.malformed (.incomplete p.name p.stage.missing) (some p.line) none)
  | _ => r.draft.build.mapError fun f => .malformed (.refused f) none none

/-- The reader before the first line. A catalog other than the standard one becomes part of the
ruleset. -/
def start (catalog : Option Catalog) : RulesReader :=
  ⟨{ Draft.empty with dateFormats := catalog.map Catalog.names }, .outside⟩

end RulesReader

/-- Reads a rules text against a catalog of date formats, by default the standard one. -/
def Ruleset.parse (catalog : Option Catalog) (source : String) : Except RulesFault Ruleset := do
  let lines ← tokenLines source
  let step := RulesReader.readLine (catalog.getD Catalog.standard)
  let r ← lines.foldlM step (RulesReader.start catalog)
  r.finish

end TableRules
