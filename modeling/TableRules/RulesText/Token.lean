/-!
# Tokens of a rules text

A line of a rules text is a sequence of tokens. A token has a kind, a value, the number of its line
and the column of its first character, both counted from one. The value of a string or a pattern is
its content without quotes, slashes and escapes; the value of every other token is the token as
written.
-/

namespace TableRules

/-- The kinds of tokens. -/
inductive TokenKind
  | word
  | string
  | number
  | pattern
  | operator
  | colon
  | openBracket
  | closeBracket
  | comma
  deriving DecidableEq, Repr

/-- The name of a kind of token. -/
def TokenKind.name : TokenKind → String
  | .word => "word"
  | .string => "string"
  | .number => "number"
  | .pattern => "pattern"
  | .operator => "operator"
  | .colon => "colon"
  | .openBracket => "lbracket"
  | .closeBracket => "rbracket"
  | .comma => "comma"

/-- A token and its place in a text. -/
structure Token where
  kind : TokenKind
  value : String
  line : Int
  column : Nat
  deriving DecidableEq, Repr

/-- A line with its number and its tokens. -/
structure TokenLine where
  number : Int
  text : String
  tokens : List Token
  deriving DecidableEq, Repr

end TableRules
