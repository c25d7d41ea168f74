import Mathlib.Data.List.Forall2
import TableRules.Calendar.DateFormat
import TableRules.Proofs.Text.Numerals

/-!
# What a date format captures

A format reads a text part by part. The text is cut into **pieces**, one for each part: a literal
takes its own character, and a field takes as many characters as its token has, which it must be
able to read. `Part.Shows value` says that a piece shows the number that `value` assigns to a field,
and `capture?_eq_some_of_shows` and `shows_of_capture?` say that `DateFormat.capture?` succeeds
exactly on the texts that are cut so, and captures exactly the assigned numbers.

`Part.write` is the one piece in ASCII digits that shows a number; `flatten_eq_write` turns
showing into equality for texts whose digits at the places of fields are ASCII digits.
-/

namespace TableRules

namespace Field

/-- The numbers that a field can show: the months, and the numbers of as many digits as the field is
wide. -/
def InRange (g : Field) (n : Nat) : Prop :=
  if g = .monthName then 1 ≤ n ∧ n ≤ 12 else n < 10 ^ g.width

/-- The characters that show a number in a field: the name of a month, or a padded number. -/
def write (g : Field) (n : Nat) : List Char :=
  if g = .monthName then (DateFormat.monthNames.getD (n - 1) "").toList
  else (Text.padded g.width n).toList

/-- A piece of a text shows a number in a field: it names the month of that number, or it is as wide
as the field, consists of decimal digits and has the number as value. -/
def Shows (g : Field) (n : Nat) (piece : List Char) : Prop :=
  if g = .monthName then (1 ≤ n ∧ n ≤ 12) ∧ piece = g.write n
  else piece.length = g.width ∧ (∀ c ∈ piece, Text.isDigit c = true) ∧
    Text.digitsValue piece = n

/-- What holds of each of the twelve months holds of every number of a month. -/
@[elab_as_elim]
private theorem forall_month {motive : Nat → Prop} {n : Nat} (h : 1 ≤ n ∧ n ≤ 12)
    (hall : ∀ k < 12, motive (k + 1)) : motive n := by
  obtain ⟨k, rfl⟩ : ∃ k, n = k + 1 := ⟨n - 1, by omega⟩
  exact hall k (by omega)

theorem length_write_monthName {n : Nat} (h : 1 ≤ n ∧ n ≤ 12) :
    (Field.monthName.write n).length = 3 :=
  forall_month h (by decide)

/-- No name of a month holds a digit. -/
theorem noDigit_of_mem_write_monthName {n : Nat} (h : 1 ≤ n ∧ n ≤ 12) :
    ∀ c ∈ Field.monthName.write n, Text.isDigit c = false := by
  have hall : ((Field.monthName.write n).all fun c => !Text.isDigit c) = true :=
    forall_month h (by decide)
  intro c hc
  simpa using List.all_eq_true.mp hall c hc

/-- The names of the months are those in the list. -/
theorem write_monthName_mem {n : Nat} (h : 1 ≤ n ∧ n ≤ 12) :
    Field.monthName.write n ∈ DateFormat.monthNames.map String.toList :=
  forall_month h (by decide)

/-- A piece that shows a number is as wide as the field. -/
theorem Shows.length_eq {g : Field} {n : Nat} {piece : List Char} (h : g.Shows n piece) :
    piece.length = g.width := by
  unfold Shows at h
  split at h
  · rename_i hg
    obtain ⟨hn, rfl⟩ := h
    rw [hg, length_write_monthName hn]
    rfl
  · exact h.1

/-- A piece that shows a number shows one in the range of the field. -/
theorem Shows.inRange {g : Field} {n : Nat} {piece : List Char} (h : g.Shows n piece) :
    g.InRange n := by
  unfold Shows at h
  unfold InRange
  split at h
  · rename_i hg
    rw [if_pos hg]
    exact h.1
  · rename_i hg
    rw [if_neg hg, ← h.1, ← h.2.2]
    exact Text.digitsValue_lt piece

/-- A name is found among the names of the months at the place of its month. -/
private theorem monthNumber_eq_some_iff {piece : List Char} {n : Nat} :
    (DateFormat.monthNames.findIdx? fun m => m.toList == piece).map (· + 1) = some n ↔
      (1 ≤ n ∧ n ≤ 12) ∧ piece = Field.monthName.write n := by
  rw [Option.map_eq_some_iff]
  constructor
  · rintro ⟨i, hi, rfl⟩
    obtain ⟨hlt, hp, -⟩ := List.findIdx?_eq_some_iff_getElem.mp hi
    have hlt' : i < 12 := hlt
    refine ⟨⟨by omega, by omega⟩, ?_⟩
    rw [← beq_iff_eq.mp hp]
    simp [write, List.getD_eq_getElem?_getD, List.getElem?_eq_getElem hlt]
  · rintro ⟨⟨hlo, hhi⟩, rfl⟩
    have hfound : DateFormat.monthNames.findIdx?
        (fun m => m.toList == Field.monthName.write n) = some (n - 1) :=
      forall_month (And.intro hlo hhi) (by decide)
    exact ⟨n - 1, hfound, by omega⟩

/-- A field reads a number from a piece of its width exactly when the piece shows the number. -/
theorem readField?_eq_some_iff {g : Field} {n : Nat} {piece : List Char}
    (hlen : piece.length = g.width) :
    DateFormat.readField? g piece = some n ↔ g.Shows n piece := by
  unfold DateFormat.readField? Shows
  split
  · rename_i hg
    rw [hg]
    exact monthNumber_eq_some_iff
  · rw [Option.ite_none_right_eq_some, List.all_eq_true, Option.some.injEq]
    exact ⟨fun h => ⟨hlen, h⟩, fun h => h.2⟩

/-- What is written shows the number it is written for. -/
theorem shows_write {g : Field} {n : Nat} (h : g.InRange n) : g.Shows n (g.write n) := by
  unfold InRange at h
  unfold Shows
  split
  · rename_i hg
    rw [if_pos hg] at h
    exact ⟨h, rfl⟩
  · rename_i hg
    rw [if_neg hg] at h
    rw [write, if_neg hg]
    exact ⟨Text.length_padded g.width_pos h,
      fun c hc => Text.isDigit_of_ascii_isDigit (Text.isDigit_of_mem_padded hc),
      Text.digitsValue_padded g.width n⟩

/-- A piece in ASCII digits that shows a number is what is written for it. -/
theorem Shows.eq_write {g : Field} {n : Nat} {piece : List Char} (h : g.Shows n piece)
    (hascii : ∀ c ∈ piece, Text.isDigit c = true → c.isDigit = true) : piece = g.write n := by
  have hrange := h.inRange
  unfold InRange at hrange
  unfold Shows at h
  split at h
  · exact h.2
  · rename_i hg
    rw [if_neg hg] at hrange
    rw [write, if_neg hg]
    exact (Text.eq_padded_iff g.width_pos hrange).mpr
      ⟨fun c hc => hascii c hc (h.2.1 c hc), h.1, h.2.2⟩

/-- A piece of a text has the form of a field: three letters, the first a capital, for the name of a
month, and as many decimal digits as the field is wide for a number. -/
def Fits (g : Field) (piece : List Char) : Prop :=
  if g = .monthName then
    ∃ a b c : Char, piece = [a, b, c] ∧ a.isUpper = true ∧ b.isLower = true ∧ c.isLower = true
  else piece.length = g.width ∧ ∀ c ∈ piece, Text.isDigit c = true

theorem Fits.length_eq {g : Field} {piece : List Char} (h : g.Fits piece) :
    piece.length = g.width := by
  unfold Fits at h
  split at h
  · rename_i hg
    obtain ⟨a, b, c, rfl, -⟩ := h
    rw [hg]
    rfl
  · exact h.1

private theorem letters_of_mem_monthNames {piece : List Char}
    (h : piece ∈ DateFormat.monthNames.map String.toList) :
    ∃ a b c : Char, piece = [a, b, c] ∧ a.isUpper = true ∧ b.isLower = true ∧
      c.isLower = true := by
  simp only [DateFormat.monthNames, List.map_cons, List.map_nil, List.mem_cons, List.not_mem_nil,
    or_false] at h
  rcases h with rfl | rfl | rfl | rfl | rfl | rfl | rfl | rfl | rfl | rfl | rfl | rfl <;>
    exact ⟨_, _, _, rfl, rfl, rfl, rfl⟩

/-- A piece shows some number when it has the form of the field and names a month where the name of
one is asked for. -/
theorem exists_shows_iff {g : Field} {piece : List Char} :
    (∃ n, g.Shows n piece) ↔
      g.Fits piece ∧ (g = .monthName → piece ∈ DateFormat.monthNames.map String.toList) := by
  unfold Shows Fits
  split
  · rename_i hg
    subst hg
    constructor
    · rintro ⟨n, hn, rfl⟩
      exact ⟨letters_of_mem_monthNames (write_monthName_mem hn), fun _ => write_monthName_mem hn⟩
    · rintro ⟨-, hmem⟩
      obtain ⟨name, hname, rfl⟩ := List.mem_map.mp (hmem rfl)
      obtain ⟨i, hi, rfl⟩ := List.getElem_of_mem hname
      have hi' : i < 12 := hi
      refine ⟨i + 1, ⟨by omega, by omega⟩, ?_⟩
      simp [write, List.getD_eq_getElem?_getD, List.getElem?_eq_getElem hi]
  · rename_i hg
    exact ⟨fun ⟨n, hlen, hdigits, _⟩ => ⟨⟨hlen, hdigits⟩, fun h => absurd h hg⟩,
      fun ⟨⟨hlen, hdigits⟩, _⟩ => ⟨_, hlen, hdigits, rfl⟩⟩

/-- Exchanging the digits of a piece for ASCII digits changes nothing about what a field reads. -/
theorem readField?_map_asciiDigit (g : Field) (piece : List Char) :
    DateFormat.readField? g (piece.map Text.asciiDigit) = DateFormat.readField? g piece := by
  unfold DateFormat.readField?
  split
  · -- a name of a month holds no digit, so neither text can be one unless they are the same
    refine Option.ext fun n => ?_
    rw [monthNumber_eq_some_iff, monthNumber_eq_some_iff]
    refine and_congr_right fun hn => ?_
    have hname := noDigit_of_mem_write_monthName hn
    constructor
    · intro heq
      rw [← heq]
      refine (Text.map_asciiDigit_of_noDigit fun c hc => ?_).symm
      rw [← Text.isDigit_asciiDigit]
      exact hname _ (heq ▸ List.mem_map_of_mem hc)
    · rintro rfl
      exact Text.map_asciiDigit_of_noDigit hname
  · rw [Text.digitsValue_map_asciiDigit]
    simp [List.all_map, Function.comp_def, Text.isDigit_asciiDigit]

end Field

/-! ### Parts and pieces -/

namespace Part

/-- A piece of a text shows a part: a literal itself, a field the number assigned to it. -/
def Shows (value : Field → Nat) : Part → List Char → Prop
  | .literal l, piece => piece = [l]
  | .field g, piece => g.Shows (value g) piece

/-- The piece in ASCII digits that shows a part. -/
def write (value : Field → Nat) : Part → List Char
  | .literal l => [l]
  | .field g => g.write (value g)

/-- A piece that shows a number at the front of a captured text is captured with it. -/
private theorem capture?_field_append {g : Field} {n : Nat} {piece cs : List Char}
    {parts : List Part} {captures : List (Field × Nat)} (hpiece : g.Shows n piece)
    (h : DateFormat.capture? parts cs = some captures) :
    DateFormat.capture? (.field g :: parts) (piece ++ cs) = some ((g, n) :: captures) := by
  have hlen := hpiece.length_eq
  have hread := (Field.readField?_eq_some_iff hlen).mpr hpiece
  have hle : ¬ (piece ++ cs).length < g.width := by
    rw [List.length_append]
    omega
  rw [DateFormat.capture?, if_neg hle, List.take_left' hlen, List.drop_left' hlen, hread, h]
  rfl

/-- A text cut into pieces that show the parts of a format is captured with the assigned numbers. -/
theorem capture?_eq_some_of_shows {value : Field → Nat} {parts : List Part}
    {pieces : List (List Char)} (h : List.Forall₂ (Shows value) parts pieces) :
    DateFormat.capture? parts pieces.flatten
      = some ((parts.filterMap field?).map fun g => (g, value g)) := by
  induction h with
  | nil => rfl
  | @cons part piece parts pieces hpart _ ih =>
    cases part with
    | literal l =>
      obtain rfl : piece = [l] := hpart
      have hskip : DateFormat.capture? (.literal l :: parts) ([l] :: pieces).flatten
          = DateFormat.capture? parts pieces.flatten := by simp [DateFormat.capture?]
      exact hskip.trans ih
    | field g => exact capture?_field_append hpart ih

/-- A captured text is cut into pieces that show the parts of the format under every assignment
that agrees with the captured numbers. -/
theorem shows_of_capture? {parts : List Part} {cs : List Char} {captures : List (Field × Nat)}
    (h : DateFormat.capture? parts cs = some captures) :
    captures.map (·.1) = parts.filterMap field? ∧
      ∀ value : Field → Nat, (∀ e ∈ captures, value e.1 = e.2) →
        ∃ pieces, List.Forall₂ (Shows value) parts pieces ∧ cs = pieces.flatten := by
  -- on the parts, each of which takes its piece off the front of the text
  induction parts generalizing cs captures with
  | nil =>
    cases cs with
    | nil =>
      obtain rfl := Option.some.inj h
      exact ⟨rfl, fun value _ => ⟨[], .nil, rfl⟩⟩
    | cons c cs => simp [DateFormat.capture?] at h
  | cons part parts ih =>
    cases part with
    | literal l =>
      cases cs with
      | nil => simp [DateFormat.capture?] at h
      | cons c cs =>
        rw [DateFormat.capture?, Option.ite_none_right_eq_some, beq_iff_eq] at h
        obtain ⟨rfl, h⟩ := h
        obtain ⟨hfields, hpieces⟩ := ih h
        refine ⟨hfields, fun value hvalue => ?_⟩
        obtain ⟨pieces, hshows, rfl⟩ := hpieces value hvalue
        exact ⟨[l] :: pieces, .cons rfl hshows, rfl⟩
    | field g =>
      rw [DateFormat.capture?, Option.ite_none_left_eq_some] at h
      obtain ⟨hlong, h⟩ := h
      have hlen : (cs.take g.width).length = g.width := by
        rw [List.length_take]
        omega
      cases hread : DateFormat.readField? g (cs.take g.width) with
      | none => simp [hread] at h
      | some n =>
        simp only [hread] at h
        obtain ⟨rest, hrest, rfl⟩ := Option.map_eq_some_iff.mp h
        obtain ⟨hfields, hpieces⟩ := ih hrest
        refine ⟨by simp [field?, hfields], fun value hvalue => ?_⟩
        obtain ⟨pieces, hshows, hflat⟩ := hpieces value fun e he => hvalue e (by simp [he])
        have hn : value g = n := hvalue (g, n) (by simp)
        refine ⟨cs.take g.width :: pieces, .cons ?_ hshows, ?_⟩
        · have hg := (Field.readField?_eq_some_iff hlen).mp hread
          rw [← hn] at hg
          exact hg
        · rw [List.flatten_cons, ← hflat, List.take_append_drop]

/-- Numbers that are shown lie in the ranges of their fields. -/
theorem inRange_of_shows {value : Field → Nat} {parts : List Part} {pieces : List (List Char)}
    (h : List.Forall₂ (Shows value) parts pieces) :
    ∀ g ∈ parts.filterMap field?, g.InRange (value g) := by
  induction h with
  | nil => simp
  | @cons part piece parts pieces hpart _ ih =>
    cases part with
    | literal l => exact ih
    | field g =>
      rintro g' (_ | ⟨_, hg'⟩)
      · exact Field.Shows.inRange hpart
      · exact ih g' hg'

/-- A piece of a text has the form of a part. -/
def Fits : Part → List Char → Prop
  | .literal l, piece => piece = [l]
  | .field g, piece => g.Fits piece

/-- A piece names a month when it stands for a part that asks for the name of one. -/
def NamesMonth : Part → List Char → Prop
  | .literal _, _ => True
  | .field g, piece => g = .monthName → piece ∈ DateFormat.monthNames.map String.toList

theorem Shows.fits {value : Field → Nat} {part : Part} {piece : List Char}
    (h : part.Shows value piece) : part.Fits piece ∧ part.NamesMonth piece := by
  cases part with
  | literal l => exact ⟨h, trivial⟩
  | field g => exact Field.exists_shows_iff.mp ⟨_, h⟩

/-- Parts are of a fixed width, so a text is cut into pieces of their form in one way. -/
theorem eq_of_fits {parts : List Part} {pieces pieces' : List (List Char)}
    (h : List.Forall₂ Fits parts pieces) (h' : List.Forall₂ Fits parts pieces')
    (heq : pieces.flatten = pieces'.flatten) : pieces = pieces' := by
  induction h generalizing pieces' with
  | nil =>
    cases h'
    rfl
  | @cons part piece parts pieces hpart _ ih =>
    obtain ⟨piece', pieces', hpart', hrest', rfl⟩ := List.forall₂_cons_left_iff.mp h'
    -- the pieces at the front are equally long, so both texts are cut at the same place
    have hlen : piece.length = piece'.length := by
      cases part with
      | literal l => rw [show piece = [l] from hpart, show piece' = [l] from hpart']
      | field g =>
        rw [Field.Fits.length_eq (show g.Fits piece from hpart),
          Field.Fits.length_eq (show g.Fits piece' from hpart')]
    obtain ⟨rfl, hflat⟩ := List.append_inj heq hlen
    rw [ih hrest' hflat]

/-- A text cut into pieces of the form of the parts is captured, if the months named exist. -/
theorem exists_capture? {parts : List Part} {pieces : List (List Char)}
    (h : List.Forall₂ Fits parts pieces) (hmonth : List.Forall₂ NamesMonth parts pieces) :
    ∃ captures, DateFormat.capture? parts pieces.flatten = some captures := by
  induction h with
  | nil => exact ⟨[], rfl⟩
  | @cons part piece parts pieces hpart _ ih =>
    obtain ⟨hname, hmonth⟩ := List.forall₂_cons.mp hmonth
    obtain ⟨captures, hcaptures⟩ := ih hmonth
    cases part with
    | literal l =>
      obtain rfl : piece = [l] := hpart
      exact ⟨captures, by simp [DateFormat.capture?, hcaptures]⟩
    | field g =>
      obtain ⟨n, hn⟩ := Field.exists_shows_iff.mpr ⟨hpart, hname⟩
      exact ⟨_, capture?_field_append hn hcaptures⟩

/-- Assignments that agree on the fields of a format are shown alike. -/
theorem shows_congr {v w : Field → Nat} {parts : List Part} {pieces : List (List Char)}
    (hvw : ∀ g ∈ parts.filterMap field?, v g = w g) (h : List.Forall₂ (Shows v) parts pieces) :
    List.Forall₂ (Shows w) parts pieces := by
  induction h with
  | nil => exact .nil
  | @cons part piece parts pieces hpart _ ih =>
    cases part with
    | literal l => exact .cons hpart (ih hvw)
    | field g =>
      have hg : v g = w g := hvw g (by simp [field?])
      refine .cons ?_ (ih fun g' hg' => hvw g' (by simp [field?, hg']))
      change g.Shows (w g) piece
      rw [← hg]
      exact hpart

/-! ### Digits at the places of fields -/

/-- The characters of a text at the places of the fields of a format. -/
def fieldChars : List Part → List Char → List Char
  | [], _ => []
  | .literal _ :: parts, cs => fieldChars parts (cs.drop 1)
  | .field g :: parts, cs => cs.take g.width ++ fieldChars parts (cs.drop g.width)

/-- A text with the digits at the places of fields exchanged for ASCII digits. -/
def asciiFields : List Part → List Char → List Char
  | [], cs => cs
  | .literal _ :: parts, cs => cs.take 1 ++ asciiFields parts (cs.drop 1)
  | .field g :: parts, cs =>
    (cs.take g.width).map Text.asciiDigit ++ asciiFields parts (cs.drop g.width)

theorem length_asciiFields (parts : List Part) (cs : List Char) :
    (asciiFields parts cs).length = cs.length := by
  induction parts generalizing cs with
  | nil => rfl
  | cons part parts ih =>
    cases part <;> simp only [asciiFields, List.length_append, List.length_map, List.length_take,
      ih, List.length_drop] <;> omega

/-- What a format captures does not depend on the script of the digits at the places of fields. -/
theorem capture?_asciiFields (parts : List Part) (cs : List Char) :
    DateFormat.capture? parts (asciiFields parts cs) = DateFormat.capture? parts cs := by
  induction parts generalizing cs with
  | nil => rfl
  | cons part parts ih =>
    cases part with
    | literal l =>
      cases cs with
      | nil =>
        have hnil : asciiFields (.literal l :: parts) [] = [] :=
          List.length_eq_zero_iff.mp (length_asciiFields _ _)
        rw [hnil]
      | cons c cs => simp [asciiFields, DateFormat.capture?, ih]
    | field g =>
      rw [DateFormat.capture?, DateFormat.capture?, length_asciiFields]
      split
      · rfl
      · rename_i hlong
        have hlen : ((cs.take g.width).map Text.asciiDigit).length = g.width := by
          rw [List.length_map, List.length_take]
          omega
        rw [asciiFields, List.take_left' hlen, List.drop_left' hlen,
          Field.readField?_map_asciiDigit, ih]

/-- The first characters of a text, exchanged or not, and the exchanged rest come apart again; where
the text is too short, the rest is empty. -/
private theorem take_drop_append_asciiFields (parts : List Part) {cs cs' : List Char} {w : Nat}
    (h : cs'.length = (cs.take w).length) :
    (cs' ++ asciiFields parts (cs.drop w)).take w = cs' ∧
      (cs' ++ asciiFields parts (cs.drop w)).drop w = asciiFields parts (cs.drop w) := by
  rw [List.length_take] at h
  rcases Nat.lt_or_ge cs.length w with hshort | hlong
  · have hnil : asciiFields parts (cs.drop w) = [] := by
      rw [← List.length_eq_zero_iff, length_asciiFields, List.length_drop]
      omega
    rw [hnil, List.append_nil]
    exact ⟨List.take_of_length_le (by omega), List.drop_eq_nil_of_le (by omega)⟩
  · have hw : cs'.length = w := by omega
    exact ⟨List.take_left' hw, List.drop_left' hw⟩

/-- The characters at the places of fields are exchanged one by one. -/
theorem fieldChars_asciiFields (parts : List Part) (cs : List Char) :
    fieldChars parts (asciiFields parts cs) = (fieldChars parts cs).map Text.asciiDigit := by
  induction parts generalizing cs with
  | nil => rfl
  | cons part parts ih =>
    cases part with
    | literal l =>
      rw [fieldChars, asciiFields, (take_drop_append_asciiFields parts rfl).2, ih]
      rfl
    | field g =>
      have hlen : ((cs.take g.width).map Text.asciiDigit).length = (cs.take g.width).length :=
        List.length_map Text.asciiDigit
      obtain ⟨htake, hdrop⟩ := take_drop_append_asciiFields parts hlen
      rw [fieldChars, asciiFields, htake, hdrop, ih, fieldChars, List.map_append]

/-- What is written for numbers in the ranges of their fields is cut into pieces that show them. -/
theorem shows_write {value : Field → Nat} {parts : List Part}
    (hrange : ∀ g ∈ parts.filterMap field?, g.InRange (value g)) :
    List.Forall₂ (Shows value) parts (parts.map (write value)) := by
  rw [List.forall₂_map_right_iff, List.forall₂_same]
  intro part hmem
  cases part with
  | literal l => rfl
  | field g => exact Field.shows_write (hrange g (List.mem_filterMap.mpr ⟨_, hmem, rfl⟩))

/-- A text whose digits at the places of fields are ASCII digits and which is cut into pieces that
show numbers is what is written for them. -/
theorem flatten_eq_write {value : Field → Nat} {parts : List Part} {pieces : List (List Char)}
    (h : List.Forall₂ (Shows value) parts pieces)
    (hascii : ∀ c ∈ fieldChars parts pieces.flatten, Text.isDigit c = true → c.isDigit = true) :
    pieces.flatten = parts.flatMap (write value) := by
  induction h with
  | nil => rfl
  | @cons part piece parts pieces hpart _ ih =>
    cases part with
    | literal l =>
      obtain rfl : piece = [l] := hpart
      rw [List.flatten_cons, ih (by simpa [fieldChars] using hascii)]
      rfl
    | field g =>
      have hpart : g.Shows (value g) piece := hpart
      have hlen := hpart.length_eq
      rw [List.flatten_cons, fieldChars, List.take_left' hlen, List.drop_left' hlen] at hascii
      rw [List.flatten_cons, ih fun c hc => hascii c (List.mem_append_right piece hc),
        hpart.eq_write fun c hc => hascii c (List.mem_append_left _ hc)]
      rfl

end Part

end TableRules
