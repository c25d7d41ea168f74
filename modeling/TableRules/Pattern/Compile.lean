import TableRules.Pattern.Escape
import TableRules.Pattern.Flags
import TableRules.Pattern.Match
import TableRules.Text.Identifier

/-!
# Reading a pattern

`Pattern.compile` reads the text of a pattern from left to right with a stack of open groups
(`Frame`); every step reads at least one symbol. An open group holds the choices completed so far
and the items of the choice being read, both latest first.

The first fault met is reported. Two conditions are checked only on a complete pattern: the text
before a look-behind must have one length, and a conditional must refer to a group that exists.
-/

namespace TableRules

/-- What an open group becomes when it is closed. -/
inductive FrameKind
  | whole
  | group (index : Option Nat)
  | atomic
  | look (ahead negated : Bool) (outer : Option Nat)
  | conditional (index : Nat) (yes : Option Node)
  deriving Repr

/-- An open group: its kind, the position of its parenthesis, and what has been read of it. -/
structure Frame where
  kind : FrameKind
  start : Nat
  flags : Flags
  choices : List Node
  items : List Node

namespace Frame

/-- A group of which nothing has been read. -/
def opened (kind : FrameKind) (start : Nat) (flags : Flags) : Frame := ⟨kind, start, flags, [], []⟩

/-- Adds an item to the choice being read. -/
def push (f : Frame) (n : Node) : Frame := { f with items := n :: f.items }

/-- The choice being read. -/
def current (f : Frame) : Node := Node.ofList f.items.reverse

/-- What has been read of the group. -/
def body (f : Frame) : Node := Node.choice (f.current :: f.choices).reverse

end Frame

/-- A pattern in the course of being read. `references` holds the groups that conditionals refer
to by number, with positions. -/
structure Reader where
  source : Source
  groups : Escape.GroupTable
  references : List (Nat × Nat)
  outer : List Frame
  frame : Frame

namespace Reader

/-- The greatest count of a repetition, which no pattern may ask for. -/
def countLimit : Nat := 4294967295

/-- Adds an item to the group being read. -/
def push (r : Reader) (n : Node) (s : Source) : Reader :=
  { r with frame := r.frame.push n, source := s }

/-- A single character or class under flags. -/
def classNode (flags : Flags) (negated : Bool) (items : List ClassItem) : Node :=
  .char ⟨negated, flags.folding, items⟩

/-- An item that an escape stands for. -/
def escapeNode (flags : Flags) (groups : Escape.GroupTable) : Escape → Node
  | .code n => classNode flags false [.char n]
  | .named cls negated => classNode flags false [.named cls flags.ascii negated]
  | .anchor 'A' => .anchor .textStart
  | .anchor 'Z' => .anchor .textEnd
  | .anchor 'b' => .anchor (.boundary flags.ascii)
  | .anchor _ => .anchor (.nonBoundary flags.ascii)
  | .reference i => .backreference i flags.folding ((groups.width? i).getD ⟨0, 0⟩)

/-! ### Character classes -/

/-- One end of a range, or an item of a class. -/
def readClassAtom (flags : Flags) (x : Symbol) (s : Source) :
    Except PatternFault (ClassItem × Source) :=
  match x with
  | .plain c => .ok (.char c.toNat, s)
  | .escaped c => do
    let (e, t) ← Escape.readInClass c s
    match e with
    | .code n => return (.char n, t)
    | .named cls negated => return (.named cls flags.ascii negated, t)
    | _ => return (.char c.toNat, t)

/-- Reads the items of a class that started at a position. -/
def readClass (flags : Flags) (start : Nat) :
    Nat → List ClassItem → Source → Except PatternFault (List ClassItem × Source)
  | 0, items, s => .ok (items, s)
  | fuel + 1, items, s => do
    let (symbol, t) ← s.get
    match symbol with
    | none => Source.fault .unterminatedClass start
    | some x =>
      if x = .plain ']' ∧ items ≠ [] then return (items, t)
      else do
        let (low, t) ← readClassAtom flags x t
        let (dash, t) ← t.accept '-'
        if !dash then readClass flags start fuel (items ++ [low]) t
        else do
          let (symbol, t) ← t.get
          match symbol with
          | none => Source.fault .unterminatedClass start
          | some y =>
            if y = .plain ']' then return (items ++ [low, .char '-'.toNat], t)
            else do
              let (high, t) ← readClassAtom flags y t
              let bad := Source.fault (.badRange x.text y.text) (t.pos - (x.length + 1 + y.length))
              match low, high with
              | .char m, .char n =>
                if n < m then bad
                else readClass flags start fuel (items ++ [.range m n]) t
              | _, _ => bad

/-! ### Repetition -/

/-- Reads a count, in at most the number of digits that are read. -/
def countOf (ds : List Char) : Except PatternFault Nat :=
  if 4300 < ds.length then .error .tooManyDigits
  else if countLimit ≤ Escape.value 10 ds then .error .repetitionTooLarge
  else .ok (Escape.value 10 ds)

/-- Reads the counts between braces; `none` when the brace stands for itself. -/
def readCounts (s : Source) : Except PatternFault (Option (Nat × Option Nat × Source)) :=
  if s.nextIs '\x7d' then .ok none
  else do
    let fuel := s.rest.length
    let (low, t) ← s.getWhile Escape.isDigit fuel
    let (comma, t) ← t.accept ','
    let (high, t) ← if comma then t.getWhile Escape.isDigit fuel else pure (low, t)
    let (closed, t) ← t.accept '\x7d'
    if !closed then return none
    else do
      let least ← if low.isEmpty then pure 0 else countOf low
      let most ← if high.isEmpty then pure none else (countOf high).map some
      if most.any (· < least) then Source.fault .leastAboveMost s.pos
      else return some (least, most, t)

/-- Repeats the last item; the repetition sign starts at a position. -/
def repeatLast (r : Reader) (start least : Nat) (most : Option Nat) (s : Source) :
    Except PatternFault Reader :=
  match r.frame.items with
  | [] => Source.fault .nothingToRepeat start
  | n :: items =>
    if n.isAnchor then Source.fault .nothingToRepeat start
    else if n.isRepetition then Source.fault .multipleRepeat start
    else do
      let (lazy, s) ← s.accept '?'
      let (possessive, s) ← if lazy then pure (false, s) else s.accept '+'
      let greed := if lazy then .lazy else if possessive then .possessive else .greedy
      return { r with
        frame := { r.frame with items := .rep greed least most n :: items }, source := s }

/-! ### Groups -/

/-- Opens a group. -/
def openFrame (r : Reader) (kind : FrameKind) (start : Nat) (flags : Flags) (s : Source) : Reader :=
  { r with outer := r.frame :: r.outer, frame := Frame.opened kind start flags, source := s }

/-- Opens a group that remembers its match. -/
def openCapture (r : Reader) (name : Option (List Char)) (start : Nat) (s : Source) :
    Except PatternFault Reader :=
  let index := r.groups.count
  let named := name.map String.ofList
  match named.bind r.groups.named? with
  | some old =>
    let name := named.getD ""
    Source.fault (.redefinedName name index old) (s.pos - (name.length + 1))
  | none =>
    let names := match named with
      | some name => r.groups.names ++ [(name, index)]
      | none => r.groups.names
    let r := { r with groups := { r.groups with count := index + 1, names := names } }
    .ok (r.openFrame (.group (some index)) start r.frame.flags s)

/-- A name that a group is referred to by must be an identifier. -/
def checkName (name : List Char) (s : Source) : Except PatternFault Unit :=
  if Text.isIdentifier name then .ok ()
  else Source.fault (.badGroupName (String.ofList name)) (s.pos - (name.length + 1))

/-- Digits with single underscores between them. -/
def isGrouped : List Char → Bool
  | [] => false
  | [c] => Text.isDigit c
  | c :: '_' :: cs => Text.isDigit c && isGrouped cs
  | c :: cs => Text.isDigit c && isGrouped cs

/-- The number of a group as a conditional may write it. -/
def groupNumber? (name : List Char) : Option Nat :=
  let cs := Text.trimChars name
  let (negative, ds) := match cs with
    | '-' :: ds => (true, ds)
    | '+' :: ds => (false, ds)
    | ds => (false, ds)
  let n := Text.digitsValue (ds.filter (· != '_'))
  if isGrouped ds && (!negative || n == 0) then some n else none

/-- Reads the group after `(?P`. -/
def readNamed (r : Reader) (start : Nat) (s : Source) : Except PatternFault Reader := do
  let (isGroup, s) ← s.accept '<'
  if isGroup then do
    let (name, s) ← s.getName '>' "group name"
    checkName name s
    r.openCapture (some name) start s
  else do
    let (isReference, s) ← s.accept '='
    if isReference then do
      let (name, s) ← s.getName ')' "group name"
      checkName name s
      let text := String.ofList name
      match r.groups.named? text with
      | none => Source.fault (.unknownGroupName text) (s.pos - (name.length + 1))
      | some i =>
        if (r.groups.width? i).isNone then
          Source.fault .openGroup (s.pos - (name.length + 1))
        else do
          r.groups.checkLookbehind i s.pos
          return r.push (escapeNode r.frame.flags r.groups (.reference i)) s
    else do
      let (symbol, s) ← s.get
      match symbol with
      | none => Source.fault .unexpectedEnd s.pos
      | some x => Source.fault (.unknownExtension ("P" ++ x.text)) (s.pos - (x.length + 2))

/-- Opens a group that looks around. -/
def openLook (r : Reader) (ahead negated : Bool) (start : Nat) (s : Source) : Reader :=
  let outer := r.groups.lookbehind
  let lookbehind := if ahead then outer else outer.or (some r.groups.count)
  { r with groups := { r.groups with lookbehind := lookbehind } }.openFrame
    (.look ahead negated outer) start r.frame.flags s

/-- Reads the group after `(?(`. -/
def readConditional (r : Reader) (start : Nat) (s : Source) : Except PatternFault Reader := do
  let (name, s) ← s.getName ')' "group name"
  let text := String.ofList name
  let namePos := s.pos - (name.length + 1)
  if Text.isIdentifier name then
    match r.groups.named? text with
    | none => Source.fault (.unknownGroupName text) namePos
    | some i => do
      r.groups.checkLookbehind i s.pos
      return r.openFrame (.conditional i none) start r.frame.flags s
  else
    match groupNumber? name with
    | none => Source.fault (.badGroupName text) namePos
    | some 0 => Source.fault .badGroupNumber namePos
    | some i =>
      if 1073741823 ≤ i then Source.fault (.invalidReference i) namePos
      else do
        r.groups.checkLookbehind i s.pos
        let known := r.references.any fun e => e.1 == i
        let references := if known then r.references else r.references ++ [(i, namePos)]
        return { r with references := references }.openFrame (.conditional i none) start
          r.frame.flags s

/-- Reads the start of a group; the source is after its parenthesis, which is at a position. -/
def readGroup (r : Reader) (start : Nat) (s : Source) : Except PatternFault Reader := do
  let flags := r.frame.flags
  let (special, s) ← s.accept '?'
  if !special then r.openCapture none start s
  else do
    let (symbol, s) ← s.get
    match symbol with
    | none => Source.fault .unexpectedEnd s.pos
    | some (.plain 'P') => r.readNamed start s
    | some (.plain ':') => return r.openFrame (.group none) start flags s
    | some (.plain '#') => do
      let s ← Source.skipComment start (s.rest.length + 1) s
      return { r with source := s }
    | some (.plain '=') => return r.openLook true false start s
    | some (.plain '!') => return r.openLook true true start s
    | some (.plain '<') => do
      let (symbol, s) ← s.get
      match symbol with
      | none => Source.fault .unexpectedEnd s.pos
      | some (.plain '=') => return r.openLook false false start s
      | some (.plain '!') => return r.openLook false true start s
      | some x => Source.fault (.unknownExtension ("<" ++ x.text)) (s.pos - (x.length + 2))
    | some (.plain '(') => r.readConditional start s
    | some (.plain '>') => return r.openFrame .atomic start flags s
    | some (.plain c) =>
      if c == '-' || (Flags.ofLetter? c).isSome then do
        let (change, s) ← Flags.read c s
        match change with
        | .inside added removed =>
          return r.openFrame (.group none) start (flags.inside added removed) s
        | .whole added =>
          if r.outer.isEmpty && r.frame.choices.isEmpty && r.frame.items.isEmpty then
            return { r with frame := { r.frame with flags := flags.union added }, source := s }
          else Source.fault .misplacedFlags start
      else Source.fault (.unknownExtension (String.ofList [c])) (s.pos - 2)
    | some x => Source.fault (.unknownExtension x.text) (s.pos - (x.length + 1))

/-- Closes the group being read at its parenthesis. -/
def close (r : Reader) (s : Source) : Reader :=
  match r.outer with
  | [] => { r with source := s }
  | f :: outer =>
    let body := r.frame.body
    let (node, groups) := match r.frame.kind with
      | .group (some i) =>
        (.group (some i) body, { r.groups with widths := (i, body.width) :: r.groups.widths })
      | .group none => (.group none body, r.groups)
      | .atomic => (.atomic body, r.groups)
      | .look ahead negated outer =>
        (.look ahead negated body,
          if ahead then r.groups else { r.groups with lookbehind := outer })
      | .conditional i none => (.conditional i r.frame.current .empty, r.groups)
      | .conditional i (some yes) => (.conditional i yes r.frame.current, r.groups)
      | .whole => (body, r.groups)
    { r with source := s, groups := groups, outer := outer, frame := f.push node }

/-- Starts the next choice of the group being read, at a bar before the source `s`. -/
def nextChoice (r : Reader) (s : Source) : Except PatternFault Reader :=
  match r.frame.kind with
  | .conditional i none =>
    let frame := { r.frame with kind := .conditional i (some r.frame.current), items := [] }
    .ok { r with source := s, frame := frame }
  | .conditional _ (some _) => Source.fault .tooManyBranches (s.pos - 1)
  | _ =>
    let frame := { r.frame with choices := r.frame.current :: r.frame.choices, items := [] }
    .ok { r with source := s, frame := frame }

/-! ### Steps -/

/-- The blanks that the extended notation passes over. -/
def isVerboseBlank (c : Char) : Bool := c == ' ' || (0x09 ≤ c.toNat && c.toNat ≤ 0x0D)

/-- Reads the item that starts with a plain character, which is before the source `s`. -/
def readPlain (r : Reader) (c : Char) (s : Source) : Except PatternFault Reader := do
  let flags := r.frame.flags
  let start := s.pos - 1
  if flags.verbose && isVerboseBlank c then return { r with source := s }
  else if flags.verbose && c == '#' then do
    let s ← Source.skipLine (s.rest.length + 1) s
    return { r with source := s }
  else
    match c with
    | '.' => return r.push (.any flags.dotAll) s
    | '^' => return r.push (.anchor (if flags.multiline then .lineStart else .textStart)) s
    | '$' => return r.push (.anchor (if flags.multiline then .lineEnd else .finalLineEnd)) s
    | '[' => do
      let (negated, s) ← s.accept '^'
      let (items, s) ← readClass flags start (s.rest.length + 1) [] s
      return r.push (classNode flags negated items) s
    | '(' => r.readGroup start s
    | '|' => r.nextChoice s
    | '*' => r.repeatLast start 0 none s
    | '+' => r.repeatLast start 1 none s
    | '?' => r.repeatLast start 0 (some 1) s
    | '\x7b' => do
      match ← readCounts s with
      | none => return r.push (classNode flags false [.char c.toNat]) s
      | some (least, most, s) => r.repeatLast start least most s
    | _ => return r.push (classNode flags false [.char c.toNat]) s

/-- Reads one more symbol or item. -/
def step (r : Reader) : Except PatternFault Reader := do
  let (symbol, s) ← r.source.get
  match symbol with
  | none => return r
  | some (.plain ')') => return r.close s
  | some (.plain c) => r.readPlain c s
  | some (.escaped c) => do
    let (e, s) ← Escape.read c r.groups s
    return r.push (escapeNode r.frame.flags r.groups e) s

/-- Reads to the end of the text, or to a parenthesis that closes nothing. -/
def run : Nat → Reader → Except PatternFault Reader
  | 0, r => .ok r
  | fuel + 1, r =>
    match r.source.next? with
    | none => .ok r
    | some x =>
      if x = .plain ')' ∧ r.outer = [] then .ok r
      else r.step >>= run fuel

end Reader

/-! ### Complete patterns -/

namespace Node

/-- The text that names a repetition in a fault. -/
def operatorName : Greed → String
  | .greedy => "MAX_REPEAT"
  | .lazy => "MIN_REPEAT"
  | .possessive => "POSSESSIVE_REPEAT"

/-- The first part, in reading order, that a complete pattern may not have: a look-behind of
varying or excessive length, or a repetition where none is allowed. -/
def fault? (noRepeat : Bool) : Node → Option PatternCause
  | .seq a b => (a.fault? noRepeat).or (b.fault? noRepeat)
  | .alt a b => (a.fault? noRepeat).or (b.fault? noRepeat)
  | .rep greed _ _ body =>
    if noRepeat then some (.forbiddenRepeat (operatorName greed)) else body.fault? noRepeat
  | .group _ body => body.fault? noRepeat
  | .atomic body => body.fault? noRepeat
  | .look ahead _ body =>
    let w := body.width
    if !ahead && Reader.countLimit < w.low then some .longLookbehind
    else if !ahead && w.low != w.high then some .variableLookbehind
    else body.fault? noRepeat
  | .conditional _ yes no => (yes.fault? noRepeat).or (no.fault? noRepeat)
  | _ => none

end Node

/-- A pattern: its text and what the text stands for. -/
structure Pattern where
  text : String
  node : Node

namespace Pattern

/-- Reads the text of a pattern. -/
def compileNode (cs : List Char) : Except PatternFault Node := do
  let source ← Source.ofChars cs
  let start : Reader :=
    { source := source
      groups := ⟨1, [], [], none⟩
      references := []
      outer := []
      frame := Frame.opened .whole 0 Flags.none }
  let r ← Reader.run (cs.length + 1) start
  if !r.outer.isEmpty then Source.fault .unterminatedGroup r.frame.start
  else if r.frame.flags.ascii && r.frame.flags.unicode then .error .conflictingFlags
  else if r.source.next?.isSome then Source.fault .unbalancedParenthesis r.source.pos
  else
    match r.references.find? fun e => r.groups.count ≤ e.1 with
    | some (i, pos) => Source.fault (.invalidReference i) pos
    | none =>
      let node := r.frame.body
      match node.fault? r.frame.flags.template with
      | some cause => .error (.invalid cause none)
      | none => .ok node

/-- The pattern with a given text. -/
def compile (text : String) : Except PatternFault Pattern :=
  (compileNode text.toList).map fun n => ⟨text, n⟩

/-- Whether a pattern matches a whole text. -/
def matchesText (p : Pattern) (s : String) : Bool := p.node.matches s.toList

end Pattern

end TableRules
