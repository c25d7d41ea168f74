/-!
# Places in a YAML text

A cursor is a place in a text: what follows it, and its index, line and column, all counted from
zero. The line breaks of YAML are the line feed, the carriage return, both together, U+0085, U+2028
and U+2029; all but the last two are read as a line feed.
-/

namespace TableRules.Yaml

/-- A place in a text. -/
structure Cursor where
  rest : List Char
  index : Nat
  line : Nat
  column : Nat
  deriving Repr

/-- Whether a character breaks a line. -/
def isBreak (c : Char) : Bool :=
  let n := c.toNat
  n == 0x0A || n == 0x0D || n == 0x85 || n == 0x2028 || n == 0x2029

/-- Whether a character is a space or a tab. -/
def isSpacing (c : Char) : Bool := c == ' ' || c == '\t'

/-- Whether a text is at an end, a line break or white space. -/
def atGap : List Char → Bool
  | [] => true
  | c :: _ => isBreak c || isSpacing c

/-- Whether a text is at an end or a line break. -/
def atLineEnd : List Char → Bool
  | [] => true
  | c :: _ => isBreak c

namespace Cursor

/-- The cursor at the start of a text. -/
def start (text : List Char) : Cursor := ⟨text, 0, 0, 0⟩

/-- The next character. -/
def next? (c : Cursor) : Option Char := c.rest.head?

/-- Whether the next character satisfies a test. -/
def nextIs (c : Cursor) (p : Char → Bool) : Bool := c.next?.any p

/-- The cursor after the next character. -/
def advance (c : Cursor) : Cursor :=
  match c.rest with
  | [] => c
  | x :: rest =>
    let breaks := isBreak x && !(x == '\r' && rest.head? == some '\n')
    if breaks then ⟨rest, c.index + 1, c.line + 1, 0⟩
    else if x.toNat == 0xFEFF then ⟨rest, c.index + 1, c.line, c.column⟩
    else ⟨rest, c.index + 1, c.line, c.column + 1⟩

/-- The cursor after some characters. -/
def advanceBy (n : Nat) (c : Cursor) : Cursor := n.repeat advance c

/-- The characters that satisfy a test, and the cursor after them. -/
def takeWhile (p : Char → Bool) (c : Cursor) : List Char × Cursor :=
  let cs := c.rest.takeWhile p
  (cs, c.advanceBy cs.length)

/-- The cursor after characters that satisfy a test. -/
def skipWhile (p : Char → Bool) (c : Cursor) : Cursor := (c.takeWhile p).2

/-- The line break at a cursor and the cursor after it; nothing if there is none. -/
def lineBreak (c : Cursor) : List Char × Cursor :=
  match c.rest with
  | '\r' :: '\n' :: _ => (['\n'], c.advanceBy 2)
  | x :: _ =>
    if isBreak x then ([if x.toNat < 0x2028 then '\n' else x], c.advance) else ([], c)
  | [] => ([], c)

/-- Whether a mark that starts or ends a document stands at a cursor. -/
def atDocumentMark (c : Cursor) : Bool :=
  match c.rest with
  | '-' :: '-' :: '-' :: rest => atGap rest
  | '.' :: '.' :: '.' :: rest => atGap rest
  | _ => false

end Cursor

end TableRules.Yaml
