import TableRules.RulesText.Fault
import TableRules.Value.Coercion

/-!
# Phrases

A phrase is a fixed sequence of words followed by arguments. `Phrase.readFirst?` looks for the first
phrase of a table whose words start a line; from then on the line has to be that phrase. Words are
compared without regard to letter case.

Arguments are read by the functions of the namespace `Tokens`: a token of a given kind, a name, a
number under the settings in force, and a bracketed list of strings and numbers.
-/

namespace TableRules

/-- What is wrong with a line. -/
inductive LineFault
  | malformed (cause : RulesCause)
  | tooManyDigits
  | pattern (fault : PatternFault)
  deriving DecidableEq

namespace LineFault

/-- The fault of a text one of whose lines has a fault. -/
def onLine (line : TokenLine) : LineFault → RulesFault
  | .malformed cause => .malformed cause (some line.number) (some line.text)
  | .tooManyDigits => .tooManyDigits
  | .pattern f => .pattern f

end LineFault

/-- A result of reading some tokens, and the tokens that follow. -/
abbrev Scan (α : Type) : Type := Except LineFault (α × List Token)

/-- A failed reading. -/
def refuse {α : Type} (cause : RulesCause) : Except LineFault α := .error (.malformed cause)

namespace Tokens

/-- Whether a token is a given word, in any letter case. -/
def isWord (t : Token) (word : String) : Bool :=
  t.kind == .word && Text.lowerAscii t.value == word

/-- The tokens after given words, if the words come first. -/
def dropWords? : List String → List Token → Option (List Token)
  | [], ts => some ts
  | _ :: _, [] => none
  | w :: ws, t :: ts => if isWord t w then dropWords? ws ts else none

/-- Reads a token of a given kind, if it comes first. -/
def accept? (kind : TokenKind) : List Token → Option (String × List Token)
  | [] => none
  | t :: ts => if t.kind == kind then some (t.value, ts) else none

/-- The fault of a missing argument. -/
def missing {α : Type} (what : String) (ts : List Token) : Except LineFault α :=
  refuse (.expected what (ts.head?.map Token.value))

/-- Reads a token of a given kind. -/
def expect (kind : TokenKind) (what : String) (ts : List Token) : Scan String :=
  match accept? kind ts with
  | some r => .ok r
  | none => missing what ts

/-- Refuses tokens that are left over. -/
def expectEnd : List Token → Except LineFault Unit
  | [] => .ok ()
  | t :: _ => refuse (.unexpected t.value t.column)

/-- Reads a name, as a string or a bare word. -/
def readName (what : String) (ts : List Token) : Scan String :=
  match (accept? .string ts).or (accept? .word ts) with
  | none => refuse (.nameExpected what)
  | some (name, rest) => if name.isEmpty then refuse (.nameEmpty what) else .ok (name, rest)

/-- Reads the words that are left, all in lower case. -/
def readWords : List Token → Except LineFault (List String)
  | [] => .ok []
  | t :: ts =>
    if t.kind == .word then (readWords ts).map (Text.lowerAscii t.value :: ·)
    else missing "a word" (t :: ts)

/-- Reads a number. -/
def readReal (settings : Settings) (ts : List Token) : Scan Double :=
  match expect .number "a number" ts with
  | .error e => .error e
  | .ok (text, rest) =>
    match parseReal? text settings with
    | none => refuse (.invalidNumber text)
    | some x => .ok (x, rest)

/-- Reads a whole number that is not negative. -/
def readCount (settings : Settings) (ts : List Token) : Scan Nat :=
  match expect .number "a whole number" ts with
  | .error e => .error e
  | .ok (text, rest) =>
    match parseNumber text settings .integer with
    | .error _ => .error .tooManyDigits
    | .ok (some (.integer n, _)) => if 0 ≤ n then .ok (n.toNat, rest) else refuse (.notWhole text)
    | .ok _ => refuse (.notWhole text)

/-- Reads one item of a list. -/
def readItem (settings : Settings) (ts : List Token) : Scan SetItem :=
  match accept? .string ts with
  | some (s, rest) => .ok (.text (.text s), rest)
  | none => (readReal settings ts).map fun (x, rest) => (.number (.real x), rest)

/-- Reads items, each but the last followed by a comma, up to the closing bracket; `fuel` bounds
their number. -/
def readItems (settings : Settings) : Nat → List Token → Scan (List SetItem)
  | 0, ts => missing "',' or ']'" ts
  | fuel + 1, ts =>
    match readItem settings ts with
    | .error e => .error e
    | .ok (item, rest) =>
      match accept? .closeBracket rest with
      | some (_, after) => .ok ([item], after)
      | none =>
        match expect .comma "',' or ']'" rest with
        | .error e => .error e
        | .ok (_, after) =>
          (readItems settings fuel after).map fun (items, left) => (item :: items, left)

/-- Reads a bracketed list. -/
def readList (settings : Settings) (ts : List Token) : Scan (List SetItem) :=
  match expect .openBracket "'['" ts with
  | .error e => .error e
  | .ok (_, rest) =>
    match accept? .closeBracket rest with
    | some (_, after) => .ok ([], after)
    | none => readItems settings (rest.length + 1) rest

/-- Reads a bracketed list of strings. -/
def readTexts (what : String) (settings : Settings) (ts : List Token) : Scan (List String) :=
  match readList settings ts with
  | .error e => .error e
  | .ok (items, rest) =>
    let text? : SetItem → Option String
      | .text w => some w.value
      | .number _ => none
    match items.mapM text? with
    | some texts => .ok (texts, rest)
    | none => refuse (.notTexts what)

end Tokens

/-- Words and the arguments that follow them. -/
structure Phrase (α : Type) where
  words : List String
  arguments : List Token → Scan α

namespace Phrase

/-- Reads the first phrase of a table whose words come first; `none` if there is no such phrase. -/
def readFirst? {α : Type} (table : List (Phrase α)) (ts : List Token) : Option (Scan α) :=
  table.findSome? fun p => (Tokens.dropWords? p.words ts).map p.arguments

/-- A phrase without arguments. -/
def bare {α : Type} (words : List String) (result : α) : Phrase α :=
  ⟨words, fun ts => .ok (result, ts)⟩

end Phrase

end TableRules
