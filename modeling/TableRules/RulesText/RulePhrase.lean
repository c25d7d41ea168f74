import TableRules.Calendar.Catalog
import TableRules.RulesText.Phrase

/-!
# Phrases of rules

`rulePhrases` is the table of all phrases that state a rule. `readRule` reads a whole line as a
rule. A date format has to be in the catalog, a count is a whole number, and a pattern has to be
well formed.
-/

namespace TableRules

open Tokens

/-- Reads the name of a value type, up to the end of the line. -/
def readTypeName (ts : List Token) : Scan Constraint :=
  (readWords ts).bind fun words =>
    let name := Text.joinWith " " words
    match ValueType.ofPhrase? name with
    | some t => .ok (.hasType t, [])
    | none => refuse (.unknownType name)

/-- Reads the name of a date format of a catalog. -/
def readFormatName (catalog : Catalog) (ts : List Token) : Scan Constraint :=
  (expect .string "a quoted date format" ts).bind fun (name, rest) =>
    if catalog.contains name then .ok (.hasFormat (.text name), rest)
    else refuse (.unknownFormat name)

/-- Reads a string as an argument. -/
def readText (make : Wording → Constraint) (ts : List Token) : Scan Constraint :=
  (expect .string "a quoted string" ts).map fun (s, rest) => (make (.text s), rest)

/-- The comparison with a given operator. -/
def Comparison.ofOperator? (s : String) : Option Comparison :=
  [.equal, .notEqual, .greater, .less, .greaterOrEqual, .lessOrEqual].find?
    fun op => op.operator == s

/-- Reads what follows `is`: an operator and a number, or a string. -/
def readIs (settings : Settings) (ts : List Token) : Scan Constraint :=
  match accept? .operator ts with
  | some (op, rest) =>
    match Comparison.ofOperator? op with
    | some c => (readReal settings rest).map fun (x, after) => (.compare c (.real x), after)
    | none => missing "a quoted string or comparison" ts
  | none =>
    (expect .string "a quoted string or comparison" ts).map fun (s, rest) =>
      (.text true (.text s), rest)

/-- Reads a pattern; the word `pattern` may precede it. -/
def readPattern (ts : List Token) : Scan Constraint :=
  (expect .pattern "a /pattern/" ((dropWords? ["pattern"] ts).getD ts)).bind fun (text, rest) =>
    match Pattern.compile text with
    | .ok p => .ok (.pattern p, rest)
    | .error (.invalid cause pos) => refuse (.invalidPattern text (.invalid cause pos))
    | .error f => .error (.pattern f)

/-- The phrase of a count. -/
def countPhrase (settings : Settings) (words : List String) (make : Nat → Constraint) :
    Phrase Constraint :=
  ⟨words, fun ts => (readCount settings ts).map fun (n, rest) => (make n, rest)⟩

/-- The phrase of a set. -/
def setPhrase (settings : Settings) (words : List String) (allowed : Bool) : Phrase Constraint :=
  ⟨words, fun ts => (readList settings ts).map fun (items, rest) => (.member allowed items, rest)⟩

/-- The phrases that state a rule. A phrase whose words start another one comes after it. -/
def rulePhrases (settings : Settings) (catalog : Catalog) : List (Phrase Constraint) :=
  [⟨["has", "value", "type"], readTypeName⟩,
   ⟨["has", "format"], readFormatName catalog⟩,
   countPhrase settings ["has", "length"] (.length .exactly),
   countPhrase settings ["has", "min", "length"] (.length .atLeast),
   countPhrase settings ["has", "max", "length"] (.length .atMost),
   countPhrase settings ["has", "significant", "digits"] (.digits .significant),
   countPhrase settings ["has", "decimal", "places"] (.digits .decimalPlaces),
   .bare ["is", "not", "null"] .notNull,
   .bare ["is", "required"] .required,
   .bare ["is", "unique"] .unique,
   .bare ["is", "null"] .null,
   setPhrase settings ["is", "not", "in"] false,
   setPhrase settings ["is", "in"] true,
   ⟨["is", "not"], readText (.text false)⟩,
   ⟨["is"], readIs settings⟩,
   ⟨["matches"], readPattern⟩,
   ⟨["starts", "with"], readText (.part .starts)⟩,
   ⟨["ends", "with"], readText (.part .ends)⟩,
   ⟨["includes"], readText (.part .includes)⟩,
   ⟨["excludes"], readText (.part .excludes)⟩]

/-- Reads a whole sequence of tokens as a constraint. -/
def readConstraint (settings : Settings) (catalog : Catalog) (ts : List Token) :
    Except LineFault Constraint :=
  match Phrase.readFirst? (rulePhrases settings catalog) ts with
  | none => refuse .unknownRule
  | some (.error e) => .error e
  | some (.ok (c, rest)) => (expectEnd rest).map fun _ => c

/-- Reads a whole sequence of tokens as a rule declared on a line. -/
def readRule (settings : Settings) (catalog : Catalog) (line : Int) (ts : List Token) :
    Except LineFault Rule :=
  (readConstraint settings catalog ts).map fun c => ⟨c, some line⟩

end TableRules
