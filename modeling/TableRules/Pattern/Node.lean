import TableRules.Pattern.CharClass

/-!
# Patterns

The syntax of patterns (`Node`) and the lengths of the texts a pattern can match (`Node.width`).

A pattern describes texts by characters, sequence, choice and repetition. Besides these it can
remember what a part has matched (`group`, `backreference`, `conditional`), ask for a position
(`anchor`), look around without moving (`look`), and forbid to come back to a choice (`atomic`,
possessive repetition).
-/

namespace TableRules

/-- The positions an anchor asks for. -/
inductive Anchor
  | textStart
  | textEnd
  | lineStart
  | lineEnd
  | finalLineEnd
  | boundary (asciiOnly : Bool)
  | nonBoundary (asciiOnly : Bool)
  deriving DecidableEq, Repr

/-- In which order a repetition tries its lengths. -/
inductive Greed
  | greedy
  | lazy
  | possessive
  deriving DecidableEq, Repr

/-- A least and a greatest length. -/
structure Width where
  low : Nat
  high : Nat
  deriving DecidableEq, Repr

/-- A pattern. A repetition without a greatest count has `none`. -/
inductive Node
  | empty
  | char (cls : CharClass)
  | any (lineBreaks : Bool)
  | anchor (a : Anchor)
  | seq (first second : Node)
  | alt (first second : Node)
  | rep (greed : Greed) (least : Nat) (most : Option Nat) (body : Node)
  | group (index : Option Nat) (body : Node)
  | atomic (body : Node)
  | look (ahead negated : Bool) (body : Node)
  | backreference (index : Nat) (folding : Folding) (width : Width)
  | conditional (index : Nat) (yes no : Node)
  deriving Repr

/-- Lengths from here on are not told apart. -/
def Width.limit : Nat := Nat.pow 2 64

namespace Node

/-- The sequence of some patterns. -/
def ofList : List Node → Node
  | [] => .empty
  | [n] => n
  | n :: rest => .seq n (ofList rest)

/-- The choice between some patterns. -/
def choice : List Node → Node
  | [] => .empty
  | [n] => n
  | n :: rest => .alt n (choice rest)

/-- The least and greatest length of a matched text. -/
def width : Node → Width
  | .empty => ⟨0, 0⟩
  | .char _ => ⟨1, 1⟩
  | .any _ => ⟨1, 1⟩
  | .anchor _ => ⟨0, 0⟩
  | .seq a b =>
    let v := a.width
    let w := b.width
    ⟨min (v.low + w.low) Width.limit, min (v.high + w.high) Width.limit⟩
  | .alt a b =>
    let v := a.width
    let w := b.width
    ⟨min v.low w.low, max v.high w.high⟩
  | .rep _ least most body =>
    let w := body.width
    let high := match most with
      | some m => w.high * m
      | none => if w.high = 0 then 0 else Width.limit
    ⟨min (w.low * least) Width.limit, min high Width.limit⟩
  | .group _ body => body.width
  | .atomic body => body.width
  | .look _ _ _ => ⟨0, 0⟩
  | .backreference _ _ w => w
  | .conditional _ yes no =>
    let v := yes.width
    let w := no.width
    ⟨min v.low w.low, max v.high w.high⟩

/-- Whether a pattern is an anchor. -/
def isAnchor : Node → Bool
  | .anchor _ => true
  | _ => false

/-- Whether a pattern is a repetition. -/
def isRepetition : Node → Bool
  | .rep _ _ _ _ => true
  | _ => false

end Node

end TableRules
