import TableRules.Yaml.Scalar
import TableRules.Yaml.Token

/-!
# YAML documents

A document is a tree of sequences, mappings and scalars. `Node.ofText` reads a text that holds at
most one document; a text without a document stands for nothing.

In a mapping a later entry replaces an earlier one with the same key. A sequence or a mapping cannot
be a key.
-/

namespace TableRules.Yaml

/-- A document or a part of one. -/
inductive Node
  | scalar (s : Scalar)
  | sequence (items : List Node)
  | mapping (entries : List (Node × Node))

namespace Node

/-- The name of the type of a node. -/
def typeName : Node → String
  | .scalar s => s.typeName
  | .sequence _ => "list"
  | .mapping _ => "dict"

/-- The value of the last entry of a mapping whose key is a given text. -/
def find? (key : String) : Node → Option Node
  | .mapping entries =>
    (entries.reverse.find? fun e =>
      match e.1 with
      | .scalar (.text s) => s == key
      | _ => false).map (·.2)
  | _ => none

/-! ### Building documents from tokens -/

/-- Nothing, where a node is left out. -/
def empty : Node := .scalar .null

/-- A text of ill-formed structure. -/
def bad {α : Type} : Except Fault α := .error .malformed

/-- Whether a node can be a key. -/
def isKey : Node → Bool
  | .scalar _ => true
  | _ => false

/-- An entry of a mapping. -/
def pair (k v : Node) : Except Fault (Node × Node) := if isKey k then .ok (k, v) else bad

/-- Whether the first token is one of some tokens, or there is none. -/
def nextIn (ts : List Token) (stop : List Token) : Bool :=
  match ts with
  | [] => true
  | t :: _ => stop.contains t

/-- A node that may be left out before some tokens. -/
def orEmpty (read : List Token → Except Fault (Node × List Token)) (stop ts : List Token) :
    Except Fault (Node × List Token) :=
  if nextIn ts stop then .ok (empty, ts) else read ts

mutual

/-- Reads a node of a block, or of a flow collection; `indentless` says whether a sequence may stand
without indentation of its own. -/
def readNode (fuel : Nat) (block indentless : Bool) (ts : List Token) :
    Except Fault (Node × List Token) :=
  match fuel with
  | 0 => bad
  | fuel + 1 =>
    match ts with
    | .scalar content plain :: rest =>
      if plain then (Scalar.ofPlain content).map fun s => (.scalar s, rest)
      else .ok (.scalar (.text content), rest)
    | .flowSequenceStart :: rest =>
      (readFlowItems fuel true rest).map fun (items, rest) => (.sequence items, rest)
    | .flowMappingStart :: rest =>
      (readFlowEntries fuel true rest).map fun (entries, rest) => (.mapping entries, rest)
    | .entry :: rest =>
      if indentless then
        (readEntries fuel [.entry, .key, .value, .blockEnd] (.entry :: rest)).map
          fun (items, rest) => (.sequence items, rest)
      else bad
    | .sequenceStart :: rest =>
      if block then do
        let (items, rest) ← readEntries fuel [.entry, .blockEnd] rest
        match rest with
        | .blockEnd :: rest => return (.sequence items, rest)
        | _ => bad
      else bad
    | .mappingStart :: rest =>
      if block then (readBlockEntries fuel rest).map fun (entries, rest) => (.mapping entries, rest)
      else bad
    | _ => bad

/-- Reads the entries of a block sequence. -/
def readEntries (fuel : Nat) (stop : List Token) (ts : List Token) :
    Except Fault (List Node × List Token) :=
  match fuel with
  | 0 => bad
  | fuel + 1 =>
    match ts with
    | .entry :: rest => do
      let (item, rest) ← orEmpty (readNode fuel true false) stop rest
      let (items, rest) ← readEntries fuel stop rest
      return (item :: items, rest)
    | _ => .ok ([], ts)

/-- Reads the entries of a block mapping up to its end. -/
def readBlockEntries (fuel : Nat) (ts : List Token) :
    Except Fault (List (Node × Node) × List Token) :=
  match fuel with
  | 0 => bad
  | fuel + 1 =>
    let stop : List Token := [.key, .value, .blockEnd]
    let value (k : Node) (ts : List Token) :
    Except Fault (List (Node × Node) × List Token) := do
      let (v, rest) ← match ts with
        | .value :: rest => orEmpty (readNode fuel true true) stop rest
        | _ => .ok (empty, ts)
      let e ← pair k v
      let (entries, rest) ← readBlockEntries fuel rest
      return (e :: entries, rest)
    match ts with
    | .key :: rest => do
      let (k, rest) ← orEmpty (readNode fuel true true) stop rest
      value k rest
    | .value :: _ => value empty ts
    | .blockEnd :: rest => .ok ([], rest)
    | _ => bad

/-- Reads the items of a flow sequence up to its end. -/
def readFlowItems (fuel : Nat) (first : Bool) (ts : List Token) :
    Except Fault (List Node × List Token) :=
  match fuel with
  | 0 => bad
  | fuel + 1 =>
    let item (ts : List Token) : Except Fault (List Node × List Token) :=
      match ts with
      | .flowSequenceEnd :: rest => .ok ([], rest)
      | .key :: rest => do
        let stop : List Token := [.value, .comma, .flowSequenceEnd]
        let (k, rest) ← orEmpty (readNode fuel false false) stop rest
        let (v, rest) ← match rest with
          | .value :: rest => orEmpty (readNode fuel false false) [.comma, .flowSequenceEnd] rest
          | _ => .ok (empty, rest)
        let e ← pair k v
        let (items, rest) ← readFlowItems fuel false rest
        return (.mapping [e] :: items, rest)
      | _ => do
        let (node, rest) ← readNode fuel false false ts
        let (items, rest) ← readFlowItems fuel false rest
        return (node :: items, rest)
    match first, ts with
    | true, _ => item ts
    | false, .flowSequenceEnd :: rest => .ok ([], rest)
    | false, .comma :: rest => item rest
    | false, _ => bad

/-- Reads the entries of a flow mapping up to its end. -/
def readFlowEntries (fuel : Nat) (first : Bool) (ts : List Token) :
    Except Fault (List (Node × Node) × List Token) :=
  match fuel with
  | 0 => bad
  | fuel + 1 =>
    let entry (ts : List Token) : Except Fault (List (Node × Node) × List Token) :=
      match ts with
      | .flowMappingEnd :: rest => .ok ([], rest)
      | .key :: rest => do
        let stop : List Token := [.value, .comma, .flowMappingEnd]
        let (k, rest) ← orEmpty (readNode fuel false false) stop rest
        let (v, rest) ← match rest with
          | .value :: rest => orEmpty (readNode fuel false false) [.comma, .flowMappingEnd] rest
          | _ => .ok (empty, rest)
        let e ← pair k v
        let (entries, rest) ← readFlowEntries fuel false rest
        return (e :: entries, rest)
      | _ => do
        let (k, rest) ← readNode fuel false false ts
        let e ← pair k empty
        let (entries, rest) ← readFlowEntries fuel false rest
        return (e :: entries, rest)
    match first, ts with
    | true, _ => entry ts
    | false, .flowMappingEnd :: rest => .ok ([], rest)
    | false, .comma :: rest => entry rest
    | false, _ => bad

end

/-- Drops the marks that end documents. -/
def dropEnds (ts : List Token) : List Token := ts.dropWhile (· == .documentEnd)

/-- Reads the only document of a sequence of tokens. -/
def ofTokens (ts : List Token) : Except Fault Node := do
  let ts := dropEnds ts
  let ts := if ts.head? == some .documentStart then ts.tail else ts
  if ts.isEmpty then return empty
  else
    let (node, rest) ← orEmpty (readNode (2 * ts.length + 2) true false)
      [.documentStart, .documentEnd] ts
    if (dropEnds rest).isEmpty then return node else bad

/-- Reads a text that holds at most one document. -/
def ofText (text : String) : Except Fault Node :=
  match scanTokens? text with
  | none => .error .malformed
  | some ts => ofTokens ts

end Node

end TableRules.Yaml
