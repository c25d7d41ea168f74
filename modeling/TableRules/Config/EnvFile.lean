import TableRules.Config.Environment
import TableRules.Text.Blank

/-!
# Environment files

An environment file assigns values to variables, one assignment after the other: a key, an equals
sign and a value. A key may follow the word `export`, and may stand in single quotes. A value is

* in single or double quotes, where it may go on over several lines and a backslash escapes the
  quote (and, in double quotes, stands for control characters with a letter), or
* the rest of the line without the white space around it, up to a `#` after white space.

A key without an equals sign assigns nothing. What is not an assignment is passed over to the end of
its line. In values, `${name}` and `${name:-default}` stand for other variables.
-/

namespace TableRules.EnvFile

/-- Whether a character ends a line of the file. -/
def endsLine (c : Char) : Bool := c == '\n' || c == '\r'

/-- White space inside a line. -/
def isGap (c : Char) : Bool := Text.isBlank c && !endsLine c

/-- The text after white space inside a line. -/
def skipGap (cs : List Char) : List Char := cs.dropWhile isGap

/-- The text after the rest of a line. -/
def skipLine (cs : List Char) : List Char :=
  match cs.dropWhile fun c => !endsLine c with
  | [] => []
  | _ :: rest => rest

/-! ### Values in quotes -/

/-- Reads up to the first quote that no backslash stands before. -/
def upToQuote (quote : Char) : List Char → Option (List Char × List Char)
  | [] => none
  | '\\' :: c :: rest =>
    if c == quote then (upToQuote quote rest).map fun (v, after) => ('\\' :: c :: v, after)
    else (upToQuote quote (c :: rest)).map fun (v, after) => ('\\' :: v, after)
  | c :: rest =>
    if c == quote then some ([], rest)
    else (upToQuote quote rest).map fun (v, after) => (c :: v, after)

/-- Reads up to the last quote. -/
def upToLastQuote (quote : Char) (cs : List Char) : Option (List Char × List Char) :=
  let after := (cs.reverse.takeWhile (· != quote)).reverse
  if after.length == cs.length then none else some (cs.take (cs.length - after.length - 1), after)

/-- Reads a value behind its opening quote. If every quote is escaped, the last one closes. -/
def readQuoted (quote : Char) (cs : List Char) : Option (List Char × List Char) :=
  match upToQuote quote cs with
  | some found => some found
  | none => upToLastQuote quote cs

/-- What a backslash and a character stand for in double quotes. -/
def escapes : List (Char × Char) :=
  [('\\', '\\'), ('\'', '\''), ('"', '"'), ('a', '\x07'), ('b', '\x08'), ('f', '\x0c'),
   ('n', '\n'), ('r', '\r'), ('t', '\t'), ('v', '\x0b')]

/-- What a backslash and a character stand for in single quotes. -/
def singleEscapes : List (Char × Char) := [('\\', '\\'), ('\'', '\'')]

/-- The text of a value in quotes. -/
def unescape (table : List (Char × Char)) : List Char → List Char
  | [] => []
  | '\\' :: c :: rest =>
    match table.lookup c with
    | some d => d :: unescape table rest
    | none => '\\' :: unescape table (c :: rest)
  | c :: rest => c :: unescape table rest

/-! ### Values without quotes -/

/-- The part of a line before a `#` after white space. -/
def beforeComment : List Char → List Char
  | [] => []
  | c :: rest =>
    if Text.isBlank c && (rest.dropWhile Text.isBlank).head? == some '#' then []
    else c :: beforeComment rest

/-- Drops the white space at the end. -/
def trimEnd (cs : List Char) : List Char := (cs.reverse.dropWhile Text.isBlank).reverse

/-- Reads a value. -/
def readValue : List Char → Option (List Char × List Char)
  | '\'' :: rest => (readQuoted '\'' rest).map fun (v, after) => (unescape singleEscapes v, after)
  | '"' :: rest => (readQuoted '"' rest).map fun (v, after) => (unescape escapes v, after)
  | cs =>
    let (line, after) := cs.span fun c => !endsLine c
    some (trimEnd (beforeComment line), after)

/-! ### Assignments -/

/-- A key and its value; none is given for a key without an equals sign. -/
structure Assignment where
  key : String
  value : Option String
  deriving DecidableEq, Repr

/-- The text after the word that may stand before a key. -/
def skipExport (cs : List Char) : List Char :=
  match Text.dropPrefix? "export".toList cs with
  | none => cs
  | some rest => if (rest.head?.map isGap).getD false then skipGap rest else cs

/-- Reads a key; in front of a comment there is none. -/
def readKey : List Char → Option (Option (List Char) × List Char)
  | '#' :: rest => some (none, '#' :: rest)
  | '\'' :: rest =>
    match rest.span (· != '\'') with
    | ([], _) => none
    | (_, []) => none
    | (key, _ :: after) => some (some key, after)
  | cs =>
    match cs.span fun c => !(Text.isBlank c || c == '=' || c == '#') with
    | ([], _) => none
    | (key, after) => some (some key, after)

/-- Whether only a comment stands before the end of a line, and the text after the line. -/
def finishLine (cs : List Char) : Bool × List Char :=
  let rest := match skipGap cs with
    | '#' :: comment => comment.dropWhile fun c => !endsLine c
    | rest => rest
  match rest with
  | [] => (true, [])
  | '\r' :: '\n' :: after => (true, after)
  | c :: after => if endsLine c then (true, after) else (false, skipLine rest)

/-- Reads what comes after the white space between assignments: an assignment, if there is one, and
the text after it. -/
def readAssignment (cs : List Char) : Option Assignment × List Char :=
  let start := skipExport cs
  match readKey start with
  | none => (none, skipLine start)
  | some (key, rest) =>
    let finish (value : Option String) (rest : List Char) : Option Assignment × List Char :=
      let (ended, after) := finishLine rest
      (if ended then key.map fun k => ⟨String.ofList k, value⟩ else none, after)
    match skipGap rest with
    | '=' :: rest =>
      match readValue (skipGap rest) with
      | none => (none, skipLine (skipGap rest))
      | some (v, after) => finish (some (String.ofList v)) after
    | rest => finish none rest

/-- Reads the assignments of a text; every step passes over some of it, so its length is fuel
enough. -/
def readAll : Nat → List Char → List Assignment
  | 0, _ => []
  | fuel + 1, cs =>
    match cs.dropWhile Text.isBlank with
    | [] => []
    | start =>
      match readAssignment start with
      | (some a, rest) => a :: readAll fuel rest
      | (none, rest) => readAll fuel rest

/-- The assignments of a file. -/
def assignments (text : String) : List Assignment := readAll text.length text.toList

/-! ### Variables in values -/

/-- Reads a reference to a variable behind its `$`: the name, the default, and the text after it. -/
def readReference : List Char → Option (List Char × List Char × List Char)
  | '\x7b' :: cs =>
    match cs.span fun c => c != '\x7d' && c != ':' with
    | (name, '\x7d' :: after) => some (name, [], after)
    | (name, ':' :: '-' :: rest) =>
      match rest.span (· != '\x7d') with
      | (value, _ :: after) => some (name, value, after)
      | _ => none
    | _ => none
  | _ => none

/-- The text of a value, where `lookUp` gives the values of variables; `skip` counts the characters
of a reference that are still to be passed over. -/
def expandFrom (lookUp : String → Option String) : Nat → List Char → List Char
  | _, [] => []
  | skip + 1, _ :: cs => expandFrom lookUp skip cs
  | 0, c :: cs =>
    match if c == '$' then readReference cs else none with
    | some (name, value, after) =>
      ((lookUp (String.ofList name)).map String.toList).getD value ++
        expandFrom lookUp (cs.length - after.length) cs
    | none => c :: expandFrom lookUp 0 cs

/-- The value of a variable while a file is read: the environment's, or else the one that the file
gave it. A key without a value stands for nothing. -/
def known (e : Environment) (given : List (String × Option String)) (name : String) :
    Option String :=
  match e.value? name with
  | some v => some v
  | none => (given.lookup name).map fun v => v.getD ""

/-- The variables that a file gives, with their values. -/
def assigned (e : Environment) (text : String) : List (String × Option String) :=
  (assignments text).foldl (fun given a =>
    let value := a.value.map fun v =>
      String.ofList (expandFrom (known e given) 0 v.toList)
    Keyed.put a.key value given) []

end TableRules.EnvFile

namespace TableRules

/-- Why a variable cannot be set. -/
inductive VariableFault
  | nulInText
  | equalsInName
  deriving DecidableEq, Repr

/-- The wording of a fault. -/
def VariableFault.message : VariableFault → String
  | .nulInText => "embedded null byte"
  | .equalsInName => "illegal environment variable name"

namespace Environment

/-- Sets a variable. -/
def set (e : Environment) (name value : String) : Except VariableFault Environment :=
  if (name ++ value).toList.contains '\x00' then .error .nulInText
  else if name.toList.contains '=' then .error .equalsInName
  else .ok (Keyed.put name value e)

/-- Sets the variables of an environment file that are not set yet. -/
def load (e : Environment) (file : String) : Except VariableFault Environment :=
  (EnvFile.assigned e file).foldlM (fun env v =>
    match env.value? v.1, v.2 with
    | none, some value => env.set v.1 value
    | _, _ => .ok env) e

end Environment

end TableRules
