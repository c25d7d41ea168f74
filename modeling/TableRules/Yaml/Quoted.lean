import TableRules.Text.Digit
import TableRules.Yaml.Cursor

/-!
# Scalars that span lines

Readers for the scalars of YAML that may span lines, each returning the content and the cursor after
it:

* **quoted** scalars: in single quotes a quote is written twice; in double quotes a backslash starts
  an escape. A line break is read as a space, and further ones as themselves.
* **plain** scalars, which end at a comment, at `: `, at a mark of a flow collection, or where a
  line is not indented enough.
* **block** scalars, whose lines are taken as they are or folded.
-/

namespace TableRules.Yaml

/-- Content and the cursor after it. -/
abbrev Piece : Type := List Char × Cursor

/-! ### Quoted scalars -/

/-- The characters that a backslash and one letter stand for. -/
def simpleEscapes : List (Char × Nat) :=
  [('0', 0), ('a', 7), ('b', 8), ('t', 9), ('\t', 9), ('n', 10), ('v', 11), ('f', 12), ('r', 13),
   ('e', 27), (' ', 32), ('\x22', 34), ('\\', 92), ('/', 47), ('N', 0x85), ('_', 0xA0),
   ('L', 0x2028), ('P', 0x2029)]

/-- The numbers of digits of the numeric escapes. -/
def numericEscapes : List (Char × Nat) := [('x', 2), ('u', 4), ('U', 8)]

/-- The value of a hexadecimal digit. -/
def hexDigit? (c : Char) : Option Nat :=
  let n := c.toNat
  if 0x30 ≤ n && n ≤ 0x39 then some (n - 0x30)
  else if 0x41 ≤ n && n ≤ 0x46 then some (n - 0x37)
  else if 0x61 ≤ n && n ≤ 0x66 then some (n - 0x57)
  else none

/-- The character with a given hexadecimal code. -/
def hexChar? (digits : List Char) : Option Char :=
  (digits.mapM hexDigit?).bind fun ds =>
    let n := ds.foldl (fun n d => 16 * n + d) 0
    if h : n.isValidChar then some ⟨n.toUInt32, by
      have hlt : n < UInt32.size := by
        rcases h with h | h <;> simp only [UInt32.size] <;> omega
      simpa [UInt32.isValidChar, Nat.toUInt32, UInt32.toNat_ofNat_of_lt' hlt] using h⟩
    else none

/-- Blank lines inside a quoted scalar: their breaks, and the cursor after them. -/
def quotedBreaks : Nat → Cursor → Option Piece
  | 0, _ => none
  | fuel + 1, c =>
    if c.atDocumentMark then none
    else
      let c := c.skipWhile isSpacing
      match c.lineBreak with
      | ([], _) => some ([], c)
      | (br, after) => (quotedBreaks fuel after).map fun (more, d) => (br ++ more, d)

/-- What a line break and the blank lines after it are read as. -/
def foldBreak (br breaks : List Char) : List Char :=
  (if br != ['\n'] then br else if breaks.isEmpty then [' '] else []) ++ breaks

/-- White space inside a quoted scalar. -/
def quotedGap (fuel : Nat) (c : Cursor) : Option Piece :=
  let (blanks, c) := c.takeWhile isSpacing
  if c.rest.isEmpty then none
  else match c.lineBreak with
    | ([], _) => some (blanks, c)
    | (br, after) => (quotedBreaks fuel after).map fun (breaks, d) => (foldBreak br breaks, d)

/-- An escape, after its backslash. -/
def quotedEscape (fuel : Nat) (c : Cursor) : Option Piece :=
  match c.rest with
  | [] => none
  | x :: rest =>
    match simpleEscapes.lookup x, numericEscapes.lookup x with
    | some n, _ => some ([Char.ofNat n], c.advance)
    | none, some width =>
      if (rest.take width).length < width then none
      else (hexChar? (rest.take width)).map fun y => ([y], c.advanceBy (width + 1))
    | none, none => if isBreak x then quotedBreaks fuel c.lineBreak.2 else none

/-- The rest of a quoted scalar, after its first quote. -/
def quotedBody (double : Bool) : Nat → Cursor → Option Piece
  | 0, _ => none
  | fuel + 1, c =>
    let join (p : Piece) : Option Piece :=
      (quotedBody double fuel p.2).map fun (more, d) => (p.1 ++ more, d)
    match c.rest with
    | [] => none
    | x :: rest =>
      if x == '\x27' && !double then
        if rest.head? == some '\x27' then join (['\x27'], c.advanceBy 2) else some ([], c.advance)
      else if x == '\x22' && double then some ([], c.advance)
      else if x == '\\' && double then (quotedEscape fuel c.advance).bind join
      else if isSpacing x || isBreak x then (quotedGap fuel c).bind join
      else join ([x], c.advance)

/-! ### Plain scalars -/

/-- A gap inside a plain scalar, and whether it crossed a line break; no gap before a document
mark. -/
structure PlainGap where
  content : List Char
  cursor : Cursor
  crossed : Bool

/-- Blank lines and indentation inside a plain scalar. -/
def plainBreaks : Nat → Cursor → Option Piece
  | 0, c => some ([], c)
  | fuel + 1, c =>
    let c := c.skipWhile (· == ' ')
    match c.lineBreak with
    | ([], _) => some ([], c)
    | (br, after) =>
      if after.atDocumentMark then none
      else (plainBreaks fuel after).map fun (more, d) => (br ++ more, d)

/-- The gap at a cursor inside a plain scalar. -/
def plainGap (fuel : Nat) (c : Cursor) : PlainGap :=
  let (blanks, c) := c.takeWhile (· == ' ')
  match c.lineBreak with
  | ([], _) => ⟨blanks, c, false⟩
  | (br, after) =>
    if after.atDocumentMark then ⟨[], after, true⟩
    else match plainBreaks fuel after with
      | none => ⟨[], after, true⟩
      | some (breaks, d) => ⟨foldBreak br breaks, d, true⟩

/-- Whether a plain scalar ends before the given characters. -/
def plainEnds (inFlow : Bool) : List Char → Bool
  | [] => true
  | c :: rest =>
    isBreak c || isSpacing c ||
      (c == ':' && (atGap rest ||
        (inFlow && rest.head?.any fun d => ",[]\x7b\x7d".toList.contains d))) ||
      (inFlow && ",?[]\x7b\x7d".toList.contains c)

/-- The length of the part of a plain scalar at the start of a text. -/
def plainLength (inFlow : Bool) : List Char → Nat
  | [] => 0
  | c :: rest => if plainEnds inFlow (c :: rest) then 0 else 1 + plainLength inFlow rest

/-- A plain scalar whose lines have to be indented by `indent`; `gap` precedes the next part.
Says also whether the scalar was followed by a line break. -/
def plainBody (inFlow : Bool) (indent : Int) : Nat → List Char → Cursor → Bool →
    List Char × Cursor × Bool
  | 0, _, c, crossed => ([], c, crossed)
  | fuel + 1, gap, c, crossed =>
    let n := if c.nextIs (· == '#') then 0 else plainLength inFlow c.rest
    if n = 0 then ([], c, crossed)
    else
      let part := gap ++ c.rest.take n
      let g := plainGap fuel (c.advanceBy n)
      if g.content.isEmpty || g.cursor.nextIs (· == '#') ||
          (!inFlow && (g.cursor.column : Int) < indent) then (part, g.cursor, g.crossed)
      else
        let (more, d, after) := plainBody inFlow indent fuel g.content g.cursor g.crossed
        (part ++ more, d, after)

/-! ### Block scalars -/

/-- What happens to the line breaks at the end of a block scalar. -/
inductive Chomping
  | clip
  | strip
  | keep
  deriving DecidableEq

/-- The indicators of a block scalar: chomping and an explicit indentation. -/
def blockIndicators (cs : List Char) : Option (Chomping × Option Nat × Nat) :=
  let chomping? (c : Char) : Option Chomping :=
    if c == '+' then some .keep else if c == '-' then some .strip else none
  let indent? (c : Char) : Option Nat := if '1' ≤ c && c ≤ '9' then Text.digitValue? c else none
  match (cs.takeWhile fun c => !isBreak c && c != ' ') with
  | [] => some (.clip, none, 0)
  | [a] =>
    match chomping? a, indent? a with
    | some k, _ => some (k, none, 1)
    | none, some n => some (.clip, some n, 1)
    | none, none => none
  | [a, b] =>
    match chomping? a, indent? b, indent? a, chomping? b with
    | some k, some n, _, _ => some (k, some n, 2)
    | _, _, some n, some k => some (k, some n, 2)
    | _, _, _, _ => none
  | _ => none

/-- Blank lines before a block scalar and the greatest indentation among them. -/
def blockIndentation : Nat → Nat → Cursor → List Char × Nat × Cursor
  | 0, widest, c => ([], widest, c)
  | fuel + 1, widest, c =>
    let c := c.skipWhile (· == ' ')
    let widest := max widest c.column
    match c.lineBreak with
    | ([], _) => ([], widest, c)
    | (br, after) =>
      let (more, w, d) := blockIndentation fuel widest after
      (br ++ more, w, d)

/-- The cursor after spaces, up to a column. -/
def skipIndent (indent : Nat) (c : Cursor) : Cursor :=
  c.advanceBy (min (indent - c.column) (c.rest.takeWhile (· == ' ')).length)

/-- Blank lines inside a block scalar. -/
def blockBreaks (indent : Nat) : Nat → Cursor → Piece
  | 0, c => ([], c)
  | fuel + 1, c =>
    let c := skipIndent indent c
    match c.lineBreak with
    | ([], _) => ([], c)
    | (br, after) =>
      let (more, d) := blockBreaks indent fuel after
      (br ++ more, d)

/-- The lines of a block scalar after the blank lines `breaks`. -/
def blockLines (folded : Bool) (chomping : Chomping) (indent : Nat) :
    Nat → List Char → List Char → Cursor → Piece
  | 0, _, _, c => ([], c)
  | fuel + 1, lastBreak, breaks, c =>
    if c.column = indent && !c.rest.isEmpty then
      let leading := !c.nextIs isSpacing
      let (line, d) := c.takeWhile fun x => !isBreak x
      let (br, d) := d.lineBreak
      let (blank, d) := blockBreaks indent fuel d
      let goesOn := d.column = indent && !d.rest.isEmpty
      let between :=
        if !goesOn then []
        else if folded && br == ['\n'] && leading && !d.nextIs isSpacing then
          if blank.isEmpty then [' '] else []
        else br
      let (more, e) := blockLines folded chomping indent fuel br blank d
      (breaks ++ line ++ between ++ more, e)
    else
      ((if chomping = .strip then [] else lastBreak) ++
        (if chomping = .keep then breaks else []), c)

/-- A block scalar after its mark, in a collection with a given indentation. -/
def blockScalar (folded : Bool) (outer : Int) (c : Cursor) : Option Piece :=
  match blockIndicators c.rest with
  | none => none
  | some (chomping, increment, n) =>
    let c := (c.advanceBy n).skipWhile (· == ' ')
    let c := if c.nextIs (· == '#') then c.skipWhile fun x => !isBreak x else c
    if !atLineEnd c.rest then none
    else
      let c := c.lineBreak.2
      let fuel := c.rest.length + 1
      let least := max 1 (outer + 1).toNat
      match increment with
      | none =>
        let (breaks, widest, c) := blockIndentation fuel 0 c
        some (blockLines folded chomping (max least widest) fuel [] breaks c)
      | some k =>
        let indent := least + k - 1
        let (breaks, c) := blockBreaks indent fuel c
        some (blockLines folded chomping indent fuel [] breaks c)

end TableRules.Yaml
