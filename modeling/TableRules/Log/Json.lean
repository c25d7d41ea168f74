import TableRules.Number.Notation
import TableRules.Text.Quoted

/-!
# JSON texts

The values of JSON and their texts on one line. All characters beyond ASCII, and all control
characters, are escaped: in units of sixteen bits, two for a character above U+FFFF.
-/

namespace TableRules

/-- A value of JSON. -/
inductive JsonValue
  | null
  | boolean (b : Bool)
  | integer (n : Int)
  | real (x : Double)
  | text (s : String)
  | list (items : List JsonValue)
  | object (entries : List (String × JsonValue))
  deriving Inhabited

namespace JsonValue

/-- A unit of sixteen bits, escaped. -/
def unitText (n : Nat) : String := "\\u" ++ String.ofList (Text.hexadecimal 4 n)

/-- A character inside a quoted text. -/
def charText (c : Char) : String :=
  let n := c.toNat
  match c with
  | '"' => "\\\""
  | '\\' => "\\\\"
  | '\n' => "\\n"
  | '\r' => "\\r"
  | '\t' => "\\t"
  | _ =>
    if n == 0x08 then "\\b"
    else if n == 0x0C then "\\f"
    else if 0x20 ≤ n && n < 0x7F then String.ofList [c]
    else if n < 0x10000 then unitText n
    else unitText (0xD800 + (n - 0x10000) / 0x400) ++ unitText (0xDC00 + (n - 0x10000) % 0x400)

/-- A quoted text. -/
def quoted (s : String) : String := "\"" ++ String.join (s.toList.map charText) ++ "\""

mutual

/-- The text of a value. -/
def render : JsonValue → String
  | .null => "null"
  | .boolean b => if b then "true" else "false"
  | .integer n => Text.decimalInt n
  | .real x => x.text
  | .text s => quoted s
  | .list items => "[" ++ Text.joinWith ", " (renderItems items) ++ "]"
  | .object entries => "\x7b" ++ Text.joinWith ", " (renderEntries entries) ++ "\x7d"

/-- The texts of the items of a list. -/
def renderItems : List JsonValue → List String
  | [] => []
  | v :: rest => render v :: renderItems rest

/-- The texts of the entries of an object. -/
def renderEntries : List (String × JsonValue) → List String
  | [] => []
  | (k, v) :: rest => (quoted k ++ ": " ++ render v) :: renderEntries rest

end

/-- Whether a value is nothing, false, a zero, or empty. -/
def isVoid : JsonValue → Bool
  | .null => true
  | .boolean b => !b
  | .integer n => n == 0
  | .real x => x.isZero
  | .text s => s == ""
  | .list items => items.isEmpty
  | .object entries => entries.isEmpty

end JsonValue

end TableRules
