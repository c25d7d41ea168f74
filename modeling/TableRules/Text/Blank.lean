/-!
# White space and line breaks

Two character classes of Unicode text, both fixed by the standard and both finite:

* **white space** (`isBlank`): the characters with the bidirectional type `WS`, `B` or `S`, or the
  category `Zs`. The four separators U+001C to U+001F and U+0085 belong to it; the zero-width
  space U+200B and the byte order mark U+FEFF do not.
* **line breaks** (`isLineBreak`): the characters that end a line. A carriage return followed by a
  line feed is one break (`splitLines`).

Trimming removes white space from both ends and never from the middle.
-/

namespace TableRules.Text

/-- The white-space characters. -/
def isBlank (c : Char) : Bool :=
  let n := c.toNat
  (0x09 ≤ n && n ≤ 0x0D) || (0x1C ≤ n && n ≤ 0x20) || n == 0x85 || n == 0xA0 || n == 0x1680 ||
    (0x2000 ≤ n && n ≤ 0x200A) || n == 0x2028 || n == 0x2029 || n == 0x202F || n == 0x205F ||
    n == 0x3000

/-- The characters that end a line. -/
def isLineBreak (c : Char) : Bool :=
  let n := c.toNat
  (0x0A ≤ n && n ≤ 0x0D) || (0x1C ≤ n && n ≤ 0x1E) || n == 0x85 || n == 0x2028 || n == 0x2029

/-- Every line break is white space. -/
theorem isBlank_of_isLineBreak {c : Char} (h : isLineBreak c = true) : isBlank c = true := by
  simp only [isLineBreak, isBlank, Bool.or_eq_true, Bool.and_eq_true, decide_eq_true_eq,
    beq_iff_eq] at *
  omega

/-! ### Trimming -/

/-- Drops the white space at the start. -/
def dropBlanks (cs : List Char) : List Char := cs.dropWhile isBlank

/-- Drops the white space at both ends. -/
def trimChars (cs : List Char) : List Char :=
  (dropBlanks (dropBlanks cs).reverse).reverse

/-- The text without the white space at its ends. -/
def trim (s : String) : String := String.ofList (trimChars s.toList)

/-! ### Lines -/

/-- Cuts a text at its line breaks; `current` holds the characters of the open line, last first.
A text that ends with a break has no empty line after it. -/
def splitLinesFrom (current : List Char) : List Char → List (List Char)
  | [] => if current.isEmpty then [] else [current.reverse]
  | '\r' :: '\n' :: rest => current.reverse :: splitLinesFrom [] rest
  | c :: rest =>
    if isLineBreak c then current.reverse :: splitLinesFrom [] rest
    else splitLinesFrom (c :: current) rest

/-- The lines of a text, without their breaks. -/
def splitLines (s : String) : List String := (splitLinesFrom [] s.toList).map String.ofList

/-- No line holds a line break. -/
theorem not_isLineBreak_of_mem_splitLinesFrom {current cs line : List Char} {c : Char}
    (hcur : ∀ d ∈ current, isLineBreak d = false) (hline : line ∈ splitLinesFrom current cs)
    (hc : c ∈ line) : isLineBreak c = false := by
  fun_induction splitLinesFrom current cs with
  | case1 current h => simp at hline
  | case2 current h =>
    simp only [List.mem_singleton] at hline
    subst hline
    exact hcur c (by simpa using hc)
  | case3 current rest ih =>
    rcases List.mem_cons.1 hline with rfl | h
    · exact hcur c (by simpa using hc)
    · exact ih (by simp) h
  | case4 current d rest hne hbreak ih =>
    rcases List.mem_cons.1 hline with rfl | h
    · exact hcur c (by simpa using hc)
    · exact ih (by simp) h
  | case5 current d rest hne hbreak ih =>
    refine ih (fun e he => ?_) hline
    rcases List.mem_cons.1 he with rfl | he
    · simpa using hbreak
    · exact hcur e he

end TableRules.Text
