import TableRules.Pattern.Node

/-!
# Matching

`Node.run` matches a pattern from a place in a text (`Place`) and hands each place it can reach, in
order of preference, to the rest of the match; it gives the first final place that the rest
accepts. Backtracking is the return from that call.

* Optional rounds of a repetition stop as soon as a round starts where the one before it started,
  so a repetition of the empty text ends. The rounds are counted by `fuel`, which the length of the
  text bounds.
* Looking around and atomic parts run on their own with a rest that accepts at once.

`Node.matches` asks for a match of the whole text.
-/

namespace TableRules

/-- A place in a text: the characters before it (nearest first) and after it, and what the groups
have matched on the way there. -/
structure Place where
  before : List Char
  after : List Char
  groups : List (Nat × List Char)
  deriving DecidableEq, Repr

namespace Place

/-- The start of a text. -/
def start (cs : List Char) : Place := ⟨[], cs, []⟩

/-- The place after the next character. -/
def next? (p : Place) : Option (Char × Place) :=
  match p.after with
  | [] => none
  | c :: rest => some (c, ⟨c :: p.before, rest, p.groups⟩)

/-- The place some characters back. -/
def back? : Nat → Place → Option Place
  | 0, p => some p
  | n + 1, ⟨c :: before, after, groups⟩ => back? n ⟨before, c :: after, groups⟩
  | _ + 1, ⟨[], _, _⟩ => none

/-- What a group has matched last. -/
def group? (p : Place) (index : Nat) : Option (List Char) :=
  (p.groups.find? fun g => g.1 == index).map (·.2)

/-- The place with a group's match recorded: the characters since an earlier place. -/
def record (p : Place) (index : Nat) (since : Place) : Place :=
  { p with groups := (index, since.after.take (since.after.length - p.after.length)) :: p.groups }

/-- The place after some given characters, compared up to case. -/
def skip? (f : Folding) : List Char → Place → Option Place
  | [], p => some p
  | c :: cs, p =>
    match p.next? with
    | some (d, q) => if f.equal c d then skip? f cs q else none
    | none => none

end Place

/-- Whether a character belongs to a word. -/
def isWordAt (asciiOnly : Bool) : List Char → Bool
  | [] => false
  | c :: _ => NamedClass.contains asciiOnly c .word

/-- Whether a place is where an anchor asks for. -/
def Anchor.holds (p : Place) : Anchor → Bool
  | .textStart => p.before.isEmpty
  | .textEnd => p.after.isEmpty
  | .lineStart => p.before.isEmpty || p.before.head? == some '\n'
  | .lineEnd => p.after.isEmpty || p.after.head? == some '\n'
  | .finalLineEnd => p.after.isEmpty || p.after == ['\n']
  | .boundary asciiOnly => isWordAt asciiOnly p.before != isWordAt asciiOnly p.after
  | .nonBoundary asciiOnly =>
    !(p.before.isEmpty && p.after.isEmpty) &&
      isWordAt asciiOnly p.before == isWordAt asciiOnly p.after

/-- What comes after a part of a match. -/
abbrev Rest := Place → Option Place

/-- Matches a body a given number of times. -/
def repeatExactly (body : Place → Rest → Option Place) : Nat → Place → Rest → Option Place
  | 0, p, k => k p
  | n + 1, p, k => body p fun q => repeatExactly body n q k

/-- Whether another optional round may start: rounds are left, and the last one moved on. -/
def mayRepeat (left : Option Nat) (last : Option Nat) (p : Place) : Bool :=
  left != some 0 && last != some p.after.length

/-- Matches as many further rounds as possible first. -/
def repeatGreedily (body : Place → Rest → Option Place) (k : Rest) :
    Nat → Option Nat → Option Nat → Place → Option Place
  | 0, _, _, p => k p
  | fuel + 1, left, last, p =>
    if mayRepeat left last p then
      (body p fun q =>
        repeatGreedily body k fuel (left.map (· - 1)) (some p.after.length) q).or (k p)
    else k p

/-- Matches as few further rounds as possible first. -/
def repeatLazily (body : Place → Rest → Option Place) (k : Rest) :
    Nat → Option Nat → Option Nat → Place → Option Place
  | 0, _, _, p => k p
  | fuel + 1, left, last, p =>
    (k p).or <|
      if mayRepeat left last p then
        body p fun q => repeatLazily body k fuel (left.map (· - 1)) (some p.after.length) q
      else none

/-- Matches rounds until one fails and never gives one back. -/
def repeatPossessively (body : Place → Rest → Option Place) :
    Nat → Option Nat → Option Nat → Place → Place
  | 0, _, _, p => p
  | fuel + 1, left, last, p =>
    if mayRepeat left last p then
      match body p some with
      | some q => repeatPossessively body fuel (left.map (· - 1)) (some p.after.length) q
      | none => p
    else p

/-- Matches a body one round at a time, each round for good. -/
def repeatForGood (body : Place → Rest → Option Place) : Nat → Place → Option Place
  | 0, p => some p
  | n + 1, p =>
    match body p some with
    | some q => repeatForGood body n q
    | none => none

/-- Matches a pattern from a place and then the rest. -/
def Node.run : Node → Place → Rest → Option Place
  | .empty, p, k => k p
  | .char cls, p, k =>
    match p.next? with
    | some (c, q) => if cls.contains c then k q else none
    | none => none
  | .any lineBreaks, p, k =>
    match p.next? with
    | some (c, q) => if lineBreaks || c != '\n' then k q else none
    | none => none
  | .anchor a, p, k => if a.holds p then k p else none
  | .seq a b, p, k => a.run p fun q => b.run q k
  | .alt a b, p, k => (a.run p k).or (b.run p k)
  | .rep greed least most body, p, k =>
    let left := most.map (· - least)
    match greed with
    | .greedy =>
      repeatExactly body.run least p fun q =>
        repeatGreedily body.run k (q.after.length + 2) left none q
    | .lazy =>
      repeatExactly body.run least p fun q =>
        repeatLazily body.run k (q.after.length + 2) left none q
    | .possessive =>
      match repeatForGood body.run least p with
      | some q => k (repeatPossessively body.run (q.after.length + 2) left none q)
      | none => none
  | .group none body, p, k => body.run p k
  | .group (some i) body, p, k => body.run p fun q => k (q.record i p)
  | .atomic body, p, k =>
    match body.run p some with
    | some q => k q
    | none => none
  | .look ahead negated body, p, k =>
    let from? := if ahead then some p else p.back? body.width.low
    match from? with
    | none => if negated then k p else none
    | some q =>
      match body.run q some with
      | some r => if negated then none else k { p with groups := r.groups }
      | none => if negated then k p else none
  | .backreference i folding _, p, k =>
    match p.group? i with
    | none => none
    | some cs =>
      match p.skip? folding cs with
      | some q => k q
      | none => none
  | .conditional i yes no, p, k =>
    match p.group? i with
    | some _ => yes.run p k
    | none => no.run p k

/-- Whether a pattern matches a whole text. -/
def Node.matches (n : Node) (cs : List Char) : Bool :=
  (n.run (Place.start cs) fun p => if p.after.isEmpty then some p else none).isSome

end TableRules
