import TableRules.Pattern.Source
import TableRules.Pattern.Node

/-!
# Escapes in patterns

What a backslash and the characters after it stand for: a character given by its code, a named
class, an anchor, or the text that a group has matched. Inside a character class only the first
two are allowed.
-/

namespace TableRules

/-- What an escape stands for. -/
inductive Escape
  | code (n : Nat)
  | named (cls : NamedClass) (negated : Bool)
  | anchor (symbol : Char)
  | reference (index : Nat)
  deriving DecidableEq, Repr

namespace Escape

/-- An ASCII digit. -/
def isDigit (c : Char) : Bool := '0' ≤ c && c ≤ '9'

/-- An octal digit. -/
def isOctal (c : Char) : Bool := '0' ≤ c && c ≤ '7'

/-- The value of a hexadecimal digit. -/
def hexValue? (c : Char) : Option Nat :=
  if isDigit c then some (c.toNat - 0x30)
  else if 'a' ≤ c && c ≤ 'f' then some (c.toNat - 0x57)
  else if 'A' ≤ c && c ≤ 'F' then some (c.toNat - 0x37)
  else none

/-- The number that digits spell in a base. -/
def value (base : Nat) (cs : List Char) : Nat :=
  cs.foldl (fun n c => base * n + (hexValue? c).getD 0) 0

/-- The control characters with an escape of their own. -/
def control? (c : Char) : Option Nat :=
  match c with
  | 'a' => some 7
  | 'f' => some 12
  | 'n' => some 10
  | 'r' => some 13
  | 't' => some 9
  | 'v' => some 11
  | '\\' => some 0x5C
  | _ => none

/-- The named classes with an escape of their own. -/
def named? (c : Char) : Option Escape :=
  match c with
  | 'd' => some (.named .digit false)
  | 'D' => some (.named .digit true)
  | 's' => some (.named .space false)
  | 'S' => some (.named .space true)
  | 'w' => some (.named .word false)
  | 'W' => some (.named .word true)
  | _ => none

/-- Reads the digits of an escape with a fixed number of hexadecimal digits. -/
def readHex (kind : Char) (count : Nat) (s : Source) : Except PatternFault (Escape × Source) := do
  let (ds, t) ← s.getWhile (fun c => (hexValue? c).isSome) count
  let spelled := '\\' :: kind :: ds
  if ds.length ≠ count then
    Source.fault (.incompleteEscape (String.ofList spelled)) (t.pos - spelled.length)
  else if 0x10FFFF < value 16 ds then
    Source.fault (.badEscape (String.ofList spelled)) (t.pos - spelled.length)
  else return (.code (value 16 ds), t)

/-- Reads the name of an escape for a named character. No names are known. -/
def readName (s : Source) : Except PatternFault (Escape × Source) := do
  let (found, t) ← s.accept '\x7b'
  if !found then Source.fault (.missing "\x7b") t.pos
  else
    let (name, u) ← t.getName '\x7d' "character name"
    Source.fault (.undefinedCharacter (String.ofList name)) (u.pos - (name.length + 4))

/-- Reads the escapes that are the same inside and outside a character class. -/
def readCommon? (c : Char) (s : Source) : Option (Except PatternFault (Escape × Source)) :=
  match c with
  | 'x' => some (readHex 'x' 2 s)
  | 'u' => some (readHex 'u' 4 s)
  | 'U' => some (readHex 'U' 8 s)
  | 'N' => some (readName s)
  | _ => none

/-- An escape that stands for its own character, unless that is an ASCII letter or digit. -/
def readPlain (c : Char) (s : Source) : Except PatternFault (Escape × Source) :=
  if Text.isAsciiAlphanumeric c then
    Source.fault (.badEscape (String.ofList ['\\', c])) (s.pos - 2)
  else .ok (.code c.toNat, s)

/-- Refuses an octal code above 255. -/
def octal (ds : List Char) (s : Source) : Except PatternFault (Escape × Source) :=
  if 0o377 < value 8 ds then
    Source.fault (.octalTooLarge (String.ofList ('\\' :: ds))) (s.pos - (ds.length + 1))
  else .ok (.code (value 8 ds), s)

/-- Reads an escape in a character class; the source is after its first two characters. -/
def readInClass (c : Char) (s : Source) : Except PatternFault (Escape × Source) :=
  match control? c, named? c, readCommon? c s with
  | some n, _, _ => .ok (.code n, s)
  | none, some e, _ => .ok (e, s)
  | none, none, some r => r
  | none, none, none =>
    if c == 'b' then .ok (.code 8, s)
    else if isOctal c then do
      let (ds, t) ← s.getWhile isOctal 2
      octal (c :: ds) t
    else readPlain c s

/-- What is known about the groups opened so far. -/
structure GroupTable where
  count : Nat
  names : List (String × Nat)
  widths : List (Nat × Width)
  lookbehind : Option Nat

/-- The width of a group, once it is closed. -/
def GroupTable.width? (g : GroupTable) (index : Nat) : Option Width :=
  (g.widths.find? fun e => e.1 == index).map (·.2)

/-- The number of a named group. -/
def GroupTable.named? (g : GroupTable) (name : String) : Option Nat :=
  (g.names.find? fun e => e.1 == name).map (·.2)

/-- A look-behind may only refer to groups closed before it. -/
def GroupTable.checkLookbehind (g : GroupTable) (index pos : Nat) : Except PatternFault Unit :=
  match g.lookbehind with
  | none => .ok ()
  | some first =>
    if (g.width? index).isNone then Source.fault .openGroup pos
    else if first ≤ index then Source.fault .groupInSameLookbehind pos
    else .ok ()

/-- Reads a reference to a group, or an octal code of three digits. -/
def readReference (c : Char) (g : GroupTable) (s : Source) :
    Except PatternFault (Escape × Source) := do
  let (ds, t) ← s.getWhile isDigit 1
  let (more, u) ←
    if isOctal c && ds.all isOctal && !ds.isEmpty then t.getWhile isOctal 1
    else pure ([], t)
  if !more.isEmpty then octal (c :: ds ++ more) u
  else
    let index := value 10 (c :: ds)
    if index < g.count then
      if (g.width? index).isNone then Source.fault .openGroup (t.pos - (ds.length + 2))
      else do
        g.checkLookbehind index t.pos
        return (.reference index, t)
    else Source.fault (.invalidReference index) (t.pos - (ds.length + 1))

/-- Reads an escape outside a character class; the source is after its first two characters. -/
def read (c : Char) (g : GroupTable) (s : Source) : Except PatternFault (Escape × Source) :=
  if c == 'A' || c == 'b' || c == 'B' || c == 'Z' then .ok (.anchor c, s)
  else
    match named? c, control? c, readCommon? c s with
    | some e, _, _ => .ok (e, s)
    | none, some n, _ => .ok (.code n, s)
    | none, none, some r => r
    | none, none, none =>
      if c == '0' then do
        let (ds, t) ← s.getWhile isOctal 2
        return (.code (value 8 (c :: ds)), t)
      else if isDigit c then readReference c g s
      else readPlain c s

end Escape

end TableRules
