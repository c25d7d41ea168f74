/-!
# Decoding UTF-8

Text files are sequences of octets. `decodeUtf8` reads them as characters in the form of the
standard: one to four octets for a character, no overlong form, no surrogate, nothing above
U+10FFFF. It fails at the first octet that cannot be read and says why (`Utf8Fault`):

* the octet cannot start a character,
* an octet inside a character is not a continuation the character allows, or
* the sequence ends inside a character.
-/

namespace TableRules.Text

/-- Why a sequence of octets is not a text. -/
inductive Utf8Fault
  | invalidStart
  | invalidContinuation
  | unexpectedEnd
  deriving DecidableEq, Repr

/-- The wording of a fault. -/
def Utf8Fault.message : Utf8Fault → String
  | .invalidStart => "invalid start byte"
  | .invalidContinuation => "invalid continuation byte"
  | .unexpectedEnd => "unexpected end of data"

/-- What the first octet of a character says about the rest: the bits it holds itself, the range
of the second octet, and the number of octets that follow. -/
structure Lead where
  bits : Nat
  low : Nat
  high : Nat
  following : Nat
  deriving Repr

/-- The first octets of characters beyond ASCII. -/
def Lead.ofOctet? (b : Nat) : Option Lead :=
  if 0xC2 ≤ b && b ≤ 0xDF then some ⟨b - 0xC0, 0x80, 0xBF, 1⟩
  else if b == 0xE0 then some ⟨0, 0xA0, 0xBF, 2⟩
  else if b == 0xED then some ⟨0xD, 0x80, 0x9F, 2⟩
  else if 0xE1 ≤ b && b ≤ 0xEF then some ⟨b - 0xE0, 0x80, 0xBF, 2⟩
  else if b == 0xF0 then some ⟨0, 0x90, 0xBF, 3⟩
  else if 0xF1 ≤ b && b ≤ 0xF3 then some ⟨b - 0xF0, 0x80, 0xBF, 3⟩
  else if b == 0xF4 then some ⟨4, 0x80, 0x8F, 3⟩
  else none

/-- Whether an octet continues a character. -/
def isContinuation (b : Nat) : Bool := 0x80 ≤ b && b ≤ 0xBF

/-- Reads the octets of a character that follow its first two. -/
def continueChar (bits : Nat) : Nat → List Nat → Except Utf8Fault (Nat × List Nat)
  | 0, rest => .ok (bits, rest)
  | _ + 1, [] => .error .unexpectedEnd
  | n + 1, b :: rest =>
    if isContinuation b then continueChar (bits * 64 + (b - 0x80)) n rest
    else .error .invalidContinuation

/-- Reads one character from a non-empty sequence of octets. -/
def decodeChar (b : Nat) (rest : List Nat) : Except Utf8Fault (Nat × List Nat) :=
  if b < 0x80 then .ok (b, rest)
  else match Lead.ofOctet? b with
    | none => .error .invalidStart
    | some lead =>
      match rest with
      | [] => .error .unexpectedEnd
      | c :: rest =>
        if lead.low ≤ c && c ≤ lead.high then
          continueChar (lead.bits * 64 + (c - 0x80)) (lead.following - 1) rest
        else .error .invalidContinuation

theorem continueChar_length {bits n : Nat} {bs rest : List Nat} {v : Nat}
    (h : continueChar bits n bs = .ok (v, rest)) : rest.length ≤ bs.length := by
  induction n generalizing bits bs with
  | zero => simp only [continueChar, Except.ok.injEq, Prod.mk.injEq] at h; simp [h.2]
  | succ n ih =>
    cases bs with
    | nil => simp [continueChar] at h
    | cons b bs =>
      simp only [continueChar] at h
      split at h
      · exact Nat.le_succ_of_le (ih h)
      · simp at h

theorem decodeChar_length {b : Nat} {bs rest : List Nat} {v : Nat}
    (h : decodeChar b bs = .ok (v, rest)) : rest.length ≤ bs.length := by
  simp only [decodeChar] at h
  split at h
  · simp only [Except.ok.injEq, Prod.mk.injEq] at h; simp [h.2]
  · split at h
    · simp at h
    · split at h
      · simp at h
      · split at h
        · exact Nat.le_succ_of_le (continueChar_length h)
        · simp at h

/-- Reads a sequence of octets as characters. -/
def decodeOctets (bs : List Nat) : Except Utf8Fault (List Char) :=
  match bs with
  | [] => .ok []
  | b :: rest =>
    match _h : decodeChar b rest with
    | .error e => .error e
    | .ok (n, rest') =>
      match decodeOctets rest' with
      | .error e => .error e
      | .ok cs => .ok (Char.ofNat n :: cs)
termination_by bs.length
decreasing_by
  have := decodeChar_length _h
  simp only [List.length_cons]
  omega

/-- Reads a sequence of octets as a text. -/
def decodeUtf8 (bs : List Nat) : Except Utf8Fault String := (decodeOctets bs).map String.ofList

/-- The octets of a text. -/
def octetsOf (s : String) : List Nat := s.toUTF8.toList.map UInt8.toNat

end TableRules.Text
