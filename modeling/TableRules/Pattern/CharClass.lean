import TableRules.Text.Blank
import TableRules.Text.Digit
import TableRules.Text.Letter
import TableRules.Text.LetterCase

/-!
# Character classes

What one position of a pattern asks of a character: membership in a list of characters, ranges and
named classes (`ClassItem`), possibly negated, and possibly up to letter case (`CharClass`).

**Letter case.** Two characters are equal up to case when they have the same small letter, or
small letters that share a capital. A range contains a character up to case when it contains some
character equal to it (`foldPreimages` lists them).
-/

namespace TableRules

/-- How letter case is treated: it matters, or it does not among ASCII letters or all letters. -/
inductive Folding
  | exact
  | ascii
  | full
  deriving DecidableEq, Repr

/-- The named classes. -/
inductive NamedClass
  | digit
  | space
  | word
  deriving DecidableEq, Repr

/-- An item of a character class. Characters are given by their code points, since a class may
name a code point that is no character. -/
inductive ClassItem
  | char (code : Nat)
  | range (low high : Nat)
  | named (cls : NamedClass) (asciiOnly negated : Bool)
  deriving DecidableEq, Repr

/-- Whether a character is in a named class. -/
def NamedClass.contains (asciiOnly : Bool) (c : Char) : NamedClass → Bool
  | .digit => if asciiOnly then c.toNat < 0x80 && Text.isDigit c else Text.isDigit c
  | .space =>
    if asciiOnly then c == ' ' || (0x09 ≤ c.toNat && c.toNat ≤ 0x0D) else Text.isBlank c
  | .word =>
    (if asciiOnly then Text.isAsciiAlphanumeric c else Text.isAlphanumeric c) || c == '_'

namespace Folding

/-- The small letter of an ASCII capital. -/
def lowerAsciiCode (n : Nat) : Nat := if 0x41 ≤ n && n ≤ 0x5A then n + 0x20 else n

/-- The code point that stands for a character up to case. -/
def lowerCode (f : Folding) (n : Nat) : Nat :=
  match f with
  | .exact => n
  | .ascii => lowerAsciiCode n
  | .full => Text.lowerCode n

/-- The code points whose small letter is a given one. -/
def capitalsOf (n : Nat) : List Nat :=
  (if 0x61 ≤ n && n ≤ 0x7A then [n - 0x20] else []) ++
    Text.caseRuns.filterMap fun r =>
      let m := ((n : Int) - r.offset).toNat
      if r.first ≤ m && m ≤ r.last && (m - r.first) % r.step == 0 && Text.lowerCode m == n
      then some m else none

/-- The code points equal to a small letter up to case. -/
def foldPreimages (f : Folding) (n : Nat) : List Nat :=
  match f with
  | .exact => [n]
  | .ascii => if 0x61 ≤ n && n ≤ 0x7A then [n, n - 0x20] else [n]
  | .full =>
    let smalls := n :: (Text.caseCompanions (Char.ofNat n)).map Char.toNat
    smalls ++ smalls.flatMap capitalsOf

end Folding

/-- Whether a character satisfies an item up to case. -/
def ClassItem.contains (f : Folding) (c : Char) : ClassItem → Bool
  | .char n => (f.foldPreimages (f.lowerCode c.toNat)).contains n
  | .range low high =>
    (f.foldPreimages (f.lowerCode c.toNat)).any fun n => low ≤ n && n ≤ high
  | .named cls asciiOnly negated => cls.contains asciiOnly c != negated

/-- A set of characters. -/
structure CharClass where
  negated : Bool
  folding : Folding
  items : List ClassItem
  deriving DecidableEq, Repr

/-- Whether a character is in a class. -/
def CharClass.contains (k : CharClass) (c : Char) : Bool :=
  (k.items.any (ClassItem.contains k.folding c)) != k.negated

/-- Whether two characters are equal up to case. -/
def Folding.equal (f : Folding) (a b : Char) : Bool := f.lowerCode a.toNat == f.lowerCode b.toNat

end TableRules
