import TableRules.Yaml.Quoted

/-!
# Tokens of YAML documents

`scanTokens?` cuts a text into tokens. Indentation becomes explicit: the tokens `sequenceStart`,
`mappingStart` and `blockEnd` enclose what is indented alike.

A scalar may turn out to be a key only when the `:` after it is read. Until then it is **pending**
(`Pending`): its place among the tokens is remembered, and the token `key` is put there once the
`:` comes. It has to come on the same line and soon enough; a pending key that starts a line of a
block mapping must not be given up.

Anchors, aliases, tags and directives are not read.
-/

namespace TableRules.Yaml

/-- The tokens of a document. -/
inductive Token
  | scalar (content : String) (plain : Bool)
  | documentStart
  | documentEnd
  | sequenceStart
  | mappingStart
  | blockEnd
  | flowSequenceStart
  | flowSequenceEnd
  | flowMappingStart
  | flowMappingEnd
  | entry
  | comma
  | key
  | value
  deriving DecidableEq, Repr

/-- A scalar or collection that may be a key. -/
structure Pending where
  place : Nat
  required : Bool
  index : Nat
  line : Nat
  column : Nat

/-- The state of cutting a text into tokens. `indent` is the column of the innermost open block
collection, `-1` outside all of them, and `outer` those around it; `depth` flow collections are
open; `keyAllowed` says whether a key may start here. -/
structure Scan where
  cursor : Cursor
  tokens : List Token
  indent : Int
  outer : List Int
  depth : Nat
  keyAllowed : Bool
  pending : List (Nat × Pending)

namespace Scan

/-- The state at the start of a text. -/
def start (text : List Char) : Scan := ⟨Cursor.start text, [], -1, [], 0, true, []⟩

/-- Adds a token. -/
def push (s : Scan) (t : Token) : Scan := { s with tokens := s.tokens ++ [t] }

/-- Passes over characters. -/
def skip (s : Scan) (n : Nat) : Scan := { s with cursor := s.cursor.advanceBy n }

/-! ### Indentation -/

/-- Closes the block collections that are indented more than a column. -/
def unwind (column : Int) : Nat → Scan → Scan
  | 0, s => s
  | fuel + 1, s =>
    if s.depth = 0 && column < s.indent then
      unwind column fuel
        { s.push .blockEnd with indent := s.outer.headD (-1), outer := s.outer.tail }
    else s

/-- Closes all block collections that are indented more than a column. -/
def unwindTo (s : Scan) (column : Int) : Scan := unwind column (s.outer.length + 1) s

/-- Opens a block collection at a column unless one is open there; its token is put at a place. -/
def openBlock (s : Scan) (column place : Nat) (t : Token) : Scan :=
  if s.indent < column then
    { s with
      tokens := s.tokens.take place ++ t :: s.tokens.drop place
      indent := column
      outer := s.indent :: s.outer }
  else s

/-! ### Pending keys -/

/-- The pending key of the innermost flow collection, or of the block. -/
def pending? (s : Scan) : Option Pending := s.pending.lookup s.depth

/-- The state without the pending key of the innermost collection. -/
def forget (s : Scan) : Scan := { s with pending := s.pending.filter fun e => e.1 != s.depth }

/-- Gives up the pending key of the innermost collection, if it may be given up. -/
def giveUp? (s : Scan) : Option Scan :=
  match s.pending? with
  | some p => if p.required then none else some s.forget
  | none => some s

/-- Gives up the pending keys that can no longer be keys. -/
def dropStale? (s : Scan) : Option Scan :=
  let stale (p : Pending) : Bool := p.line != s.cursor.line || p.index + 1024 < s.cursor.index
  if s.pending.any fun e => stale e.2 && e.2.required then none
  else some { s with pending := s.pending.filter fun e => !stale e.2 }

/-- Remembers that a key may start here. -/
def mayBeKey? (s : Scan) : Option Scan :=
  if s.keyAllowed then
    s.giveUp?.map fun s =>
      let c := s.cursor
      let p : Pending :=
        ⟨s.tokens.length, s.depth = 0 && s.indent = c.column, c.index, c.line, c.column⟩
      { s with pending := (s.depth, p) :: s.pending }
  else some s

/-! ### Tokens -/

/-- Passes over spaces, comments and line breaks. -/
def skipGap : Nat → Scan → Scan
  | 0, s => s
  | fuel + 1, s =>
    let c := s.cursor.skipWhile (· == ' ')
    let c := if c.nextIs (· == '#') then c.skipWhile fun x => !isBreak x else c
    match c.lineBreak with
    | ([], _) => { s with cursor := c }
    | (_, after) =>
      skipGap fuel { s with cursor := after, keyAllowed := s.keyAllowed || s.depth = 0 }

/-- Reads a mark that starts or ends a document. -/
def documentMark? (s : Scan) (t : Token) : Option Scan :=
  (s.unwindTo (-1)).giveUp?.map fun s => { (s.push t).skip 3 with keyAllowed := false }

/-- Reads the start of a flow collection. -/
def flowStart? (s : Scan) (t : Token) : Option Scan :=
  s.mayBeKey?.map fun s => { (s.push t).skip 1 with depth := s.depth + 1, keyAllowed := true }

/-- Reads the end of a flow collection. -/
def flowEnd? (s : Scan) (t : Token) : Option Scan :=
  s.giveUp?.map fun s => { (s.push t).skip 1 with depth := s.depth - 1, keyAllowed := false }

/-- Reads a comma in a flow collection. -/
def flowComma? (s : Scan) : Option Scan :=
  s.giveUp?.map fun s => { (s.push .comma).skip 1 with keyAllowed := true }

/-- Reads the mark of an entry of a sequence. -/
def blockEntry? (s : Scan) : Option Scan :=
  if s.depth = 0 && !s.keyAllowed then none
  else
    let s := if s.depth = 0 then s.openBlock s.cursor.column s.tokens.length .sequenceStart else s
    s.giveUp?.map fun s => { (s.push .entry).skip 1 with keyAllowed := true }

/-- Reads the mark of an explicit key. -/
def explicitKey? (s : Scan) : Option Scan :=
  if s.depth = 0 && !s.keyAllowed then none
  else
    let s := if s.depth = 0 then s.openBlock s.cursor.column s.tokens.length .mappingStart else s
    s.giveUp?.map fun s => { (s.push .key).skip 1 with keyAllowed := s.depth == 0 }

/-- Reads the mark of a value. What is pending becomes its key. -/
def value? (s : Scan) : Option Scan :=
  match s.pending? with
  | some p =>
    let tokens := s.tokens.take p.place ++ .key :: s.tokens.drop p.place
    let s : Scan := { s.forget with tokens := tokens, keyAllowed := false }
    let s := if s.depth = 0 then s.openBlock p.column p.place .mappingStart else s
    some ((s.push .value).skip 1)
  | none =>
    if s.depth = 0 && !s.keyAllowed then none
    else
      let s := if s.depth = 0 then s.openBlock s.cursor.column s.tokens.length .mappingStart else s
      s.giveUp?.map fun s => { (s.push .value).skip 1 with keyAllowed := s.depth == 0 }

/-- Adds a scalar that was read. -/
def pushScalar (s : Scan) (content : List Char) (plain : Bool) (after : Cursor)
    (keyAllowed : Bool) : Scan :=
  { s.push (.scalar (String.ofList content) plain) with
    cursor := after
    keyAllowed := keyAllowed }

/-- Reads a quoted scalar. -/
def quoted? (s : Scan) (double : Bool) : Option Scan :=
  s.mayBeKey?.bind fun s =>
    let c := s.cursor.advance
    (quotedBody double (c.rest.length + 1) c).map fun (content, after) =>
      s.pushScalar content false after false

/-- Reads a plain scalar. -/
def plain? (s : Scan) : Option Scan :=
  s.mayBeKey?.map fun s =>
    let c := s.cursor
    let (content, after, crossed) :=
      plainBody (0 < s.depth) (s.indent + 1) (c.rest.length + 1) [] c false
    s.pushScalar content true after crossed

/-- Reads a block scalar. -/
def block? (s : Scan) (folded : Bool) : Option Scan :=
  s.giveUp?.bind fun s =>
    (blockScalar folded s.indent s.cursor.advance).map fun (content, after) =>
      s.pushScalar content false after true

/-- Whether a plain scalar can start with the given characters. -/
def startsPlain (inFlow : Bool) : List Char → Bool
  | [] => false
  | c :: rest =>
    let special := "-?:,[]\x7b\x7d#&*!|>'\"%@`".toList
    !(isBreak c || isSpacing c || special.contains c) ||
      (!atGap rest && (c == '-' || (!inFlow && (c == '?' || c == ':'))))

/-- Reads the token at the cursor, which is not at the end of the text. -/
def token? (s : Scan) : Option Scan :=
  let inFlow := decide (0 < s.depth)
  match s.cursor.rest with
  | [] => none
  | c :: rest =>
    if s.cursor.column = 0 && s.cursor.atDocumentMark then
      s.documentMark? (if c == '-' then .documentStart else .documentEnd)
    else if c == '[' then s.flowStart? .flowSequenceStart
    else if c == '\x7b' then s.flowStart? .flowMappingStart
    else if c == ']' then s.flowEnd? .flowSequenceEnd
    else if c == '\x7d' then s.flowEnd? .flowMappingEnd
    else if c == ',' then s.flowComma?
    else if c == '-' && atGap rest then s.blockEntry?
    else if c == '?' && (inFlow || atGap rest) then s.explicitKey?
    else if c == ':' && (inFlow || atGap rest) then s.value?
    else if c == '|' && !inFlow then s.block? false
    else if c == '>' && !inFlow then s.block? true
    else if c == '\x27' then s.quoted? false
    else if c == '\x22' then s.quoted? true
    else if startsPlain inFlow (c :: rest) then s.plain?
    else none

/-- Reads all tokens of a text. -/
def run : Nat → Scan → Option (List Token)
  | 0, _ => none
  | fuel + 1, s =>
    let s := skipGap (s.cursor.rest.length + 1) s
    match s.dropStale? with
    | none => none
    | some s =>
      let s := s.unwindTo s.cursor.column
      if s.cursor.rest.isEmpty then (s.unwindTo (-1)).giveUp?.map Scan.tokens
      else (s.token?).bind (run fuel)

end Scan

/-- Whether a character may stand in a document. -/
def isAllowed (c : Char) : Bool :=
  let n := c.toNat
  n == 0x09 || n == 0x0A || n == 0x0D || (0x20 ≤ n && n ≤ 0x7E) || n == 0x85 ||
    (0xA0 ≤ n && n ≤ 0xFFFD) || 0x10000 ≤ n

/-- The tokens of a text, if it can be cut into tokens. -/
def scanTokens? (text : String) : Option (List Token) :=
  let cs := text.toList
  let cs := if cs.head? == some '\uFEFF' then cs.tail else cs
  if cs.all isAllowed then (Scan.start cs).run (cs.length + 2) else none

end TableRules.Yaml
