import TableRules.Pattern.Fault

/-!
# Reading the text of a pattern

A pattern is read symbol by symbol (`Symbol`): a backslash and the character after it are one
symbol, every other character is one of its own. `Source` is the unread text with its position.
A backslash that ends the text is refused as soon as it would come up next.
-/

namespace TableRules

/-- A symbol of the text of a pattern. -/
inductive Symbol
  | plain (c : Char)
  | escaped (c : Char)
  deriving DecidableEq, Repr

namespace Symbol

/-- The characters of a symbol. -/
def chars : Symbol → List Char
  | .plain c => [c]
  | .escaped c => ['\\', c]

/-- The text of a symbol. -/
def text (s : Symbol) : String := String.ofList s.chars

/-- How many characters a symbol takes. -/
def length (s : Symbol) : Nat := s.chars.length

end Symbol

/-- The unread part of a pattern's text, and its position in the text. -/
structure Source where
  rest : List Char
  pos : Nat
  deriving Repr

namespace Source

/-- The fault with a cause at a position. -/
def fault {α : Type} (cause : PatternCause) (position : Nat) : Except PatternFault α :=
  .error (.invalid cause (some position))

/-- Refuses a text that is down to a lone backslash. -/
def checked (s : Source) : Except PatternFault Source :=
  if s.rest = ['\\'] then fault .escapeAtEnd s.pos else .ok s

/-- The source of a pattern's text. -/
def ofChars (cs : List Char) : Except PatternFault Source := checked ⟨cs, 0⟩

/-- The next symbol. -/
def next? (s : Source) : Option Symbol :=
  match s.rest with
  | [] => none
  | '\\' :: c :: _ => some (.escaped c)
  | c :: _ => some (.plain c)

/-- The next symbol and the source after it. -/
def get (s : Source) : Except PatternFault (Option Symbol × Source) :=
  match s.rest with
  | [] => .ok (none, s)
  | '\\' :: c :: rest => (checked ⟨rest, s.pos + 2⟩).map fun t => (some (.escaped c), t)
  | c :: rest => (checked ⟨rest, s.pos + 1⟩).map fun t => (some (.plain c), t)

/-- Whether the next symbol is a given plain character. -/
def nextIs (s : Source) (c : Char) : Bool := s.next? == some (.plain c)

/-- Passes over a given plain character, if it comes next. -/
def accept (s : Source) (c : Char) : Except PatternFault (Bool × Source) :=
  if s.nextIs c then s.get.map fun (_, t) => (true, t) else .ok (false, s)

/-- Reads up to `n` plain characters of a class. -/
def getWhile (p : Char → Bool) : Nat → Source → Except PatternFault (List Char × Source)
  | 0, s => .ok ([], s)
  | n + 1, s =>
    match s.next? with
    | some (.plain c) =>
      if p c then do
        let (_, t) ← s.get
        let (cs, u) ← getWhile p n t
        return (c :: cs, u)
      else .ok ([], s)
    | _ => .ok ([], s)

/-- Reads a name up to its terminator; `what` says what the name is for. `fuel` bounds the number
of symbols. -/
def getUntil (terminator : Char) (what : String) :
    Nat → List Char → Source → Except PatternFault (List Char × Source)
  | 0, name, s => .ok (name, s)
  | fuel + 1, name, s => do
    let (symbol, t) ← s.get
    match symbol with
    | none =>
      if name.isEmpty then fault (.missing what) t.pos
      else fault (.unterminatedName terminator) (t.pos - name.length)
    | some x =>
      if x = .plain terminator then
        if name.isEmpty then fault (.missing what) (t.pos - 1) else return (name, t)
      else getUntil terminator what fuel (name ++ x.chars) t

/-- Reads a name up to its terminator. -/
def getName (terminator : Char) (what : String) (s : Source) :
    Except PatternFault (List Char × Source) :=
  getUntil terminator what (s.rest.length + 1) [] s

/-- Passes over a comment of the extended notation, up to the end of its line. -/
def skipLine : Nat → Source → Except PatternFault Source
  | 0, s => .ok s
  | fuel + 1, s => do
    let (symbol, t) ← s.get
    match symbol with
    | none => return t
    | some (.plain '\n') => return t
    | some _ => skipLine fuel t

/-- Passes over a comment group that started at a position, up to its parenthesis. -/
def skipComment (start : Nat) : Nat → Source → Except PatternFault Source
  | 0, s => .ok s
  | fuel + 1, s =>
    match s.next? with
    | none => fault .unterminatedComment start
    | some x => do
      let (_, t) ← s.get
      if x = .plain ')' then return t else skipComment start fuel t

end Source

end TableRules
