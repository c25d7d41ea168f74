import TableRules.RulesText.Token
import TableRules.Text.Blank
import TableRules.Text.Digit
import TableRules.Text.Letter
import TableRules.Text.Quoted
import TableRules.Text.Search

/-!
# Reading tokens

`scanTokens` cuts a line into tokens. Between tokens there may be white space, and a token ends
where no longer one of its form can be read.

* A **word** starts with a letter or `_` and goes on with letters, digits, `_` and `-`, all ASCII.
* A **string** stands between two quotes of one kind. A backslash takes the next character
  literally; it cannot stand before a line feed.
* A **pattern** stands between slashes and is not empty. A backslash takes the next character with
  it, and in what has been read every `\/` is replaced by a slash.
* A **number** has an optional sign, digits in groups, and an optional exponent. Groups are
  separated by any of `.`, `,`, `_` and `'`, but inside brackets a comma separates items instead
  (`numberLength?`). Which of these are allowed is decided when the number is read.
* An **operator** is one of `==`, `!=`, `>=`, `<=`, `>` and `<`.

A reader of a lexeme says how many characters follow its first one (`Lexeme.more`), so that what
remains is always shorter.
-/

namespace TableRules

open Text

/-! ### Lexemes -/

/-- A token without its place: its kind, its value, and the number of characters after the first
one. -/
structure Lexeme where
  kind : TokenKind
  value : List Char
  more : Nat
  deriving DecidableEq, Repr

/-- Why no token can be read. -/
inductive LexCause
  | openString
  | openPattern
  | unexpected (c : Char)
  deriving DecidableEq, Repr

/-- Why no token can be read, and the column of the first unread character. -/
structure LexFault where
  cause : LexCause
  column : Nat
  deriving DecidableEq, Repr

/-- The wording of a fault. -/
def LexFault.reason (f : LexFault) : String :=
  let what := match f.cause with
    | .openString => "unterminated string"
    | .openPattern => "unterminated pattern"
    | .unexpected c => "unexpected character " ++ quoted (String.ofList [c])
  what ++ " at column " ++ decimal f.column

/-- Reads a string after its first quote: its value, and the number of characters up to its last
quote. -/
def stringBody? (quote : Char) : List Char → Option (List Char × Nat)
  | [] => none
  | '\\' :: [] => none
  | '\\' :: c :: cs =>
    if c == '\n' then none else (stringBody? quote cs).map fun (v, n) => (c :: v, n + 2)
  | c :: cs =>
    if c == quote then some ([], 1)
    else (stringBody? quote cs).map fun (v, n) => (c :: v, n + 1)

/-- Reads a pattern after its first slash: what stands before its last slash, as written. -/
def patternBody? : List Char → Option (List Char)
  | [] => none
  | '\\' :: [] => none
  | '\\' :: c :: cs =>
    if c == '\n' then none else (patternBody? cs).map fun body => '\\' :: c :: body
  | c :: cs => if c == '/' then some [] else (patternBody? cs).map (c :: ·)

/-- The signs of a number. -/
def isSign (c : Char) : Bool := c == '+' || c == '-'

/-- Whether a character may stand inside the groups of digits of a number. -/
def isGroupChar (inList : Bool) (c : Char) : Bool :=
  isDigit c || c == '.' || c == '_' || c == '\x27' || (c == ',' && !inList)

/-- The number of digits at the start of a text. -/
def leadingDigits (cs : List Char) : Nat := (cs.takeWhile isDigit).length

/-- The length of the groups of digits at the start of a text; they end with a digit. -/
def groupsLength (inList : Bool) (cs : List Char) : Nat :=
  ((cs.takeWhile (isGroupChar inList)).reverse.dropWhile fun c => !isDigit c).length

/-- The length of an unsigned number without exponent at the start of a text. -/
def mantissaLength? (inList : Bool) : List Char → Option Nat
  | [] => none
  | c :: cs =>
    if isDigit c then some (groupsLength inList (c :: cs))
    else if c == '.' && 0 < leadingDigits cs then some (1 + leadingDigits cs)
    else none

/-- The length of an exponent at the start of a text, zero if there is none. -/
def exponentLength : List Char → Nat
  | [] => 0
  | c :: cs =>
    if c == 'e' || c == 'E' then
      let sign := (cs.take 1).filter isSign |>.length
      let digits := leadingDigits (cs.drop sign)
      if 0 < digits then 1 + sign + digits else 0
    else 0

/-- The length of a number at the start of a text. -/
def numberLength? (inList : Bool) (cs : List Char) : Option Nat :=
  let sign := (cs.take 1).filter isSign |>.length
  (mantissaLength? inList (cs.drop sign)).map fun n =>
    sign + n + exponentLength (cs.drop (sign + n))

/-- The punctuation marks. -/
def punctuation? (c : Char) : Option TokenKind :=
  if c == ':' then some .colon
  else if c == '[' then some .openBracket
  else if c == ']' then some .closeBracket
  else if c == ',' then some .comma
  else none

/-- The length of an operator at the start of a text. -/
def operatorLength? : List Char → Option Nat
  | '=' :: '=' :: _ => some 2
  | '!' :: '=' :: _ => some 2
  | '>' :: '=' :: _ => some 2
  | '<' :: '=' :: _ => some 2
  | '>' :: _ => some 1
  | '<' :: _ => some 1
  | _ => none

/-- Whether a character can start a word. -/
def isWordStart (c : Char) : Bool := isAsciiLetter c || c == '_'

/-- Whether a character can go on with a word. -/
def isWordChar (c : Char) : Bool := isAsciiAlphanumeric c || c == '_' || c == '-'

/-- A lexeme of a given length whose value is the lexeme as written. -/
def Lexeme.asWritten (kind : TokenKind) (cs : List Char) (length : Nat) : Lexeme :=
  ⟨kind, cs.take length, length - 1⟩

/-- Reads the lexeme that starts with `c` and goes on in `cs`. -/
def Lexeme.read (inList : Bool) (c : Char) (cs : List Char) : Except LexCause Lexeme :=
  match punctuation? c with
  | some kind => .ok ⟨kind, [c], 0⟩
  | none =>
    if c == '\x22' || c == '\x27' then
      match stringBody? c cs with
      | some (value, n) => .ok ⟨.string, value, n⟩
      | none => .error .openString
    else if c == '/' then
      match patternBody? cs with
      | some (b :: body) =>
        .ok ⟨.pattern, replaceAll ['\\', '/'] ['/'] (b :: body), (b :: body).length + 1⟩
      | _ => .error .openPattern
    else
      match numberLength? inList (c :: cs) with
      | some n => .ok (asWritten .number (c :: cs) n)
      | none =>
        match operatorLength? (c :: cs) with
        | some n => .ok (asWritten .operator (c :: cs) n)
        | none =>
          if isWordStart c then
            .ok (asWritten .word (c :: cs) (1 + (cs.takeWhile isWordChar).length))
          else .error (.unexpected c)

/-! ### Lines -/

/-- The number of open brackets after a token. -/
def depthAfter (depth : Nat) : TokenKind → Nat
  | .openBracket => depth + 1
  | .closeBracket => depth - 1
  | _ => depth

/-- Cuts a text on a line into tokens; `depth` brackets are open before it, and its first character
stands in `column`. -/
def scanFrom (line : Int) (depth column : Nat) (cs : List Char) : Except LexFault (List Token) :=
  match cs with
  | [] => .ok []
  | c :: cs =>
    if isBlank c then scanFrom line depth (column + 1) cs
    else
      match Lexeme.read (0 < depth) c cs with
      | .error cause => .error ⟨cause, column⟩
      | .ok l =>
        (scanFrom line (depthAfter depth l.kind) (column + 1 + l.more) (cs.drop l.more)).map
          (⟨l.kind, String.ofList l.value, line, column⟩ :: ·)
termination_by cs.length
decreasing_by
  · simp
  · simp only [List.length_cons, List.length_drop]
    omega

/-- The tokens of a line with a number. -/
def scanTokens (line : Int) (text : String) : Except LexFault (List Token) :=
  scanFrom line 0 1 text.toList

/-- Whether the first characters of a line that are no white space are `//`. -/
def isComment (text : String) : Bool :=
  match dropBlanks text.toList with
  | '/' :: '/' :: _ => true
  | _ => false

/-- Whether a line holds no tokens: it is blank or a comment. -/
def isSkipped (text : String) : Bool := (trim text).isEmpty || isComment text

end TableRules
