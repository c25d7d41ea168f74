import TableRules.Calendar.Catalog
import TableRules.Proofs.Calendar.RoundTrip

/-!
# The widths of date formats

The name of a date format is read from the left, and the longest token at each position is a field.
This reading is told here without the scan that performs it (`Part.IsReading`): of the tokens that
stand at a position none is longer than the one that is read, and a character is a literal where no
token stands. There is one reading of every name, and it is the scanned one (`isReading_iff`).

A field is as wide in a text as its token is in the name. So a part of a format stands at one place
(`Part.StandsAt`), which is the same in the name and in every text that the format reads.

**Main result** (`DateFormat.ofName_fixedWidth`): a name is a format exactly when the fields of its
reading are well chosen, and a text that the format reads lies over the name, place by place.
-/

namespace TableRules

namespace Field

variable {cs : List Char} {g : Field}

theorem mem_all (g : Field) : g ∈ all := by cases g <;> decide

theorem token_injective {g g' : Field} (h : g.token.toList = g'.token.toList) : g = g' := by
  revert h
  cases g <;> cases g' <;> decide

theorem at?_eq_none_iff : at? cs = none ↔ ∀ g : Field, ¬ g.token.toList <+: cs := by
  rw [at?, List.find?_eq_none]
  simp only [List.isPrefixOf_iff_prefix]
  exact ⟨fun h g => h g (mem_all g), fun h g _ => h g⟩

/-- No token at the front of a text is longer than the one that is found there. -/
theorem longest_of_at? (h : at? cs = some g) :
    g.token.toList <+: cs ∧ ∀ g' : Field, g'.token.toList <+: cs → g'.width ≤ g.width := by
  obtain ⟨hfront, before, after, hall, hbefore⟩ := List.find?_eq_some_iff_append.mp h
  refine ⟨List.isPrefixOf_iff_prefix.mp hfront, fun g' hg' => ?_⟩
  -- the tokens before it are not there, and those after it are not longer
  have hmem := mem_all g'
  rw [hall, List.mem_append, List.mem_cons] at hmem
  rcases hmem with hmem | rfl | hmem
  · have hnot := hbefore g' hmem
    rw [Bool.not_eq_true', ← Bool.not_eq_true, List.isPrefixOf_iff_prefix] at hnot
    exact absurd hg' hnot
  · exact Nat.le_refl _
  · have hsorted : all.Pairwise fun g g' => g'.width ≤ g.width := by decide
    rw [hall, List.pairwise_append, List.pairwise_cons] at hsorted
    exact hsorted.2.1.1 g' hmem

/-- The field at the front of a text is the one whose token is the longest there. -/
theorem at?_eq_some_iff : at? cs = some g ↔
    g.token.toList <+: cs ∧ ∀ g' : Field, g'.token.toList <+: cs → g'.width ≤ g.width := by
  refine ⟨longest_of_at?, fun ⟨hfront, hlongest⟩ => ?_⟩
  cases hat : at? cs with
  | none => exact absurd hfront (at?_eq_none_iff.mp hat g)
  | some g' =>
    -- two longest tokens are equally long, and so they are the same
    obtain ⟨hfront', hlongest'⟩ := longest_of_at? hat
    have hwidth : g'.width = g.width := Nat.le_antisymm (hlongest g' hfront') (hlongest' g hfront)
    have htoken : g'.token.toList <+: g.token.toList :=
      List.prefix_of_prefix_length_le hfront' hfront hwidth.le
    rw [token_injective (htoken.eq_of_length hwidth)]

end Field

namespace Part

variable {cs rest : List Char} {parts before after : List Part} {part : Part} {k : Nat}

/-! ### Readings of a name -/

/-- The reading of a name from the left: the longest token at each position is a field, and a
character at which no token stands is a literal. -/
inductive IsReading : List Part → List Char → Prop
  | nil : IsReading [] []
  | field {g : Field} {parts : List Part} {rest : List Char}
      (hlongest : ∀ g' : Field, g'.token.toList <+: g.token.toList ++ rest → g'.width ≤ g.width)
      (h : IsReading parts rest) : IsReading (.field g :: parts) (g.token.toList ++ rest)
  | literal {l : Char} {parts : List Part} {rest : List Char}
      (hnone : ∀ g : Field, ¬ g.token.toList <+: l :: rest) (h : IsReading parts rest) :
      IsReading (.literal l :: parts) (l :: rest)

theorem scanFrom_eq_ofChars (k : Nat) (cs : List Char) : scanFrom k cs = ofChars (cs.drop k) := by
  induction k generalizing cs with
  | zero => rfl
  | succ k ih =>
    cases cs with
    | nil => rfl
    | cons c cs => exact ih cs

/-- Where the longest token is that of a field, the field is scanned. -/
theorem ofChars_field {g : Field} (hat : Field.at? (g.token.toList ++ rest) = some g) :
    ofChars (g.token.toList ++ rest) = .field g :: ofChars rest := by
  obtain ⟨c, cs, htoken⟩ := List.exists_cons_of_length_pos g.width_pos
  have hrest : (cs ++ rest).drop (g.width - 1) = rest := by
    have hwidth : g.width = cs.length + 1 := congrArg List.length htoken
    rw [hwidth, Nat.add_sub_cancel, List.drop_left]
  rw [htoken, List.cons_append] at hat ⊢
  rw [ofChars, scanFrom, hat]
  dsimp only
  rw [scanFrom_eq_ofChars, hrest]

/-- Where no token stands, a character is scanned as itself. -/
theorem ofChars_literal {l : Char} (hat : Field.at? (l :: rest) = none) :
    ofChars (l :: rest) = .literal l :: ofChars rest := by
  rw [ofChars, scanFrom, hat]
  rfl

/-- What is scanned is a reading. -/
theorem isReading_ofChars (cs : List Char) : IsReading (ofChars cs) cs := by
  -- a field passes over several characters, so the induction is on the length of the name
  induction hn : cs.length using Nat.strong_induction_on generalizing cs with
  | _ n ih =>
    subst hn
    cases cs with
    | nil => exact .nil
    | cons c cs =>
      cases hat : Field.at? (c :: cs) with
      | none =>
        rw [ofChars_literal hat]
        exact .literal (Field.at?_eq_none_iff.mp hat) (ih cs.length (by simp) cs rfl)
      | some g =>
        obtain ⟨⟨rest, hrest⟩, hlongest⟩ := Field.at?_eq_some_iff.mp hat
        rw [← hrest] at hat hlongest ih ⊢
        have hlt : rest.length < (g.token.toList ++ rest).length := by
          rw [List.length_append]
          exact Nat.lt_add_of_pos_left g.width_pos
        rw [ofChars_field hat]
        exact .field hlongest (ih rest.length hlt rest rfl)

/-- **A name has one reading**, which is the scanned one. -/
theorem isReading_iff : IsReading parts cs ↔ parts = ofChars cs := by
  constructor
  · intro h
    induction h with
    | nil => rfl
    | @field g parts rest hlongest _ ih =>
      have hat := Field.at?_eq_some_iff.mpr ⟨List.prefix_append g.token.toList rest, hlongest⟩
      rw [ofChars_field hat, ih]
    | @literal l parts rest hnone _ ih => rw [ofChars_literal (Field.at?_eq_none_iff.mpr hnone), ih]
  · rintro rfl
    exact isReading_ofChars cs

/-! ### Places -/

/-- A part stands at a place: so many characters are spelled by the parts before it. -/
def StandsAt (parts : List Part) (k : Nat) (part : Part) : Prop :=
  ∃ before after, parts = before ++ part :: after ∧ k = (before.flatMap spell).length

/-- The characters of a name at the place of a part spell the part. -/
theorem StandsAt.take_drop_spell (h : StandsAt parts k part) :
    ((parts.flatMap spell).drop k).take part.spell.length = part.spell := by
  obtain ⟨before, after, rfl, rfl⟩ := h
  rw [List.flatMap_append, List.drop_left, List.flatMap_cons, List.take_left]

variable {value : Field → Nat} {piece : List Char} {pieces : List (List Char)}

/-- A piece that shows a part is as wide as the part is in the name. -/
theorem Shows.length_eq (h : part.Shows value piece) : piece.length = part.spell.length := by
  cases part with
  | literal l =>
    obtain rfl : piece = [l] := h
    rfl
  | field g => exact Field.Shows.length_eq h

/-- A text cut into pieces that show the parts of a name is as long as the name. -/
theorem length_flatten_of_shows (h : List.Forall₂ (Shows value) parts pieces) :
    pieces.flatten.length = (parts.flatMap spell).length := by
  induction h with
  | nil => rfl
  | cons hpart _ ih =>
    rw [List.flatten_cons, List.flatMap_cons, List.length_append, List.length_append, ih,
      hpart.length_eq]

/-- The characters of a text at the place of a part show the part. -/
theorem StandsAt.shows_take_drop (h : StandsAt parts k part)
    (hshows : List.Forall₂ (Shows value) parts pieces) :
    part.Shows value ((pieces.flatten.drop k).take part.spell.length) := by
  obtain ⟨before, after, rfl, rfl⟩ := h
  have htake : List.Forall₂ (Shows value) before (pieces.take before.length) := by
    simpa using List.forall₂_take before.length hshows
  have hdrop : List.Forall₂ (Shows value) (part :: after) (pieces.drop before.length) := by
    simpa using List.forall₂_drop before.length hshows
  obtain ⟨piece, pieces', hpart, -, hpieces⟩ := List.forall₂_cons_left_iff.mp hdrop
  -- the pieces before it are as wide as the parts before it
  rw [← List.take_append_drop before.length pieces, hpieces, List.flatten_append,
    List.flatten_cons, ← length_flatten_of_shows htake, List.drop_left, ← hpart.length_eq,
    List.take_left]
  exact hpart

end Part

/-! ### Formats -/

namespace DateFormat

variable {f : DateFormat} {name t : String} {d : DateTime}

private theorem getElem?_of_take_drop {cs : List Char} {k : Nat} {l : Char}
    (h : (cs.drop k).take 1 = [l]) : cs[k]? = some l := by
  have hhead : ((cs.drop k).take 1)[0]? = some l := by rw [h]; rfl
  simpa using hhead

/-- The fields of a reading are well chosen: there is one, none stands twice, and neither both forms
of the year nor both forms of the month are there. -/
structure WellChosen (fields : List Field) : Prop where
  nonempty : fields ≠ []
  nodup : fields.Nodup
  year : ¬ (.year ∈ fields ∧ .shortYear ∈ fields)
  month : ¬ (.month ∈ fields ∧ .monthName ∈ fields)

/-- A text lies over a name that is read in given parts, and shows a date-time: it is as long as the
name, it has the literals of the name at their places, and at the place of the token of a field
it shows the number of the date-time in that field. -/
structure LiesOver (t name : String) (parts : List Part) (d : DateTime) : Prop where
  length : t.length = name.length
  literal (k : Nat) (l : Char) : Part.StandsAt parts k (.literal l) →
    name.toList[k]? = some l ∧ t.toList[k]? = some l
  field (k : Nat) (g : Field) : Part.StandsAt parts k (.field g) →
    (name.toList.drop k).take g.width = g.token.toList ∧
      g.Shows (shown d.toComponents g) ((t.toList.drop k).take g.width)

theorem ofName_eq_ok_iff : ofName name = .ok f ↔ f.name = name := by
  constructor
  · exact Catalog.ofName_name
  · rintro rfl
    unfold ofName
    split
    · rename_i fault hfault
      rw [f.wellFormed] at hfault
      simp at hfault
    · rfl

/-- A name has no fault exactly when the fields of its reading are well chosen. -/
theorem fault?_eq_none_iff : fault? name = none ↔ WellChosen (fieldsOf name) := by
  constructor
  · intro h
    obtain ⟨hnodup, hyear, hmonth⟩ := fields_wellFormed ⟨name, h⟩
    refine ⟨fun hnil => ?_, hnodup, hyear, hmonth⟩
    unfold fault? at h
    rw [hnil] at h
    split at h <;> simp [firstRepeated?] at h
  · rintro ⟨hnonempty, hnodup, hyear, hmonth⟩
    have hname : name.isEmpty = false := by
      rw [← Bool.not_eq_true, String.isEmpty_iff]
      rintro rfl
      exact hnonempty rfl
    have hrepeat : firstRepeated? [] (fieldsOf name) = none :=
      firstRepeated?_eq_none_iff.mpr ⟨hnodup, by simp⟩
    have hconflict : ¬ ((fieldsOf name).contains .year && (fieldsOf name).contains .shortYear ||
        (fieldsOf name).contains .month && (fieldsOf name).contains .monthName) = true := by
      simp only [Bool.or_eq_true, Bool.and_eq_true, List.contains_iff_mem]
      exact not_or.mpr ⟨hyear, hmonth⟩
    unfold fault?
    dsimp only
    rw [hname, hrepeat, if_neg Bool.false_ne_true, if_neg (by simpa using hnonempty),
      if_neg hconflict]

/-- A name is a format exactly when the fields of its reading are well chosen. -/
theorem exists_ofName_iff : (∃ f, ofName name = .ok f) ↔ WellChosen (fieldsOf name) := by
  rw [← fault?_eq_none_iff]
  constructor
  · rintro ⟨f, hf⟩
    exact ofName_eq_ok_iff.mp hf ▸ f.wellFormed
  · exact fun h => ⟨⟨name, h⟩, ofName_eq_ok_iff.mpr rfl⟩

/-- A text that a format reads lies over its name. -/
theorem liesOver_of_parse? (h : f.parse? t = some d) : LiesOver t f.name f.parts d := by
  obtain ⟨-, pieces, hshows, ht⟩ := parse?_eq_some_iff_spells.mp h
  have hname : f.parts.flatMap Part.spell = f.name.toList := Part.spell_ofChars _
  have hlength : t.length = f.name.length := by
    rw [← String.length_toList, ht, Part.length_flatten_of_shows hshows, hname,
      String.length_toList]
  refine ⟨hlength, fun k l hplace => ?_, fun k g hplace => ?_⟩
  · have hspell := hplace.take_drop_spell
    have hshown := hplace.shows_take_drop hshows
    rw [hname] at hspell
    rw [← ht] at hshown
    exact ⟨getElem?_of_take_drop hspell, getElem?_of_take_drop hshown⟩
  · have hspell := hplace.take_drop_spell
    have hshown := hplace.shows_take_drop hshows
    rw [hname] at hspell
    rw [← ht] at hshown
    exact ⟨hspell, hshown⟩

/-- **Formats have fixed widths.** Every name has one reading in which the longest token at each
position is a field, and its parts spell the name. The name is a format exactly when the fields of
the reading are well chosen, and then the parts of the format are those of the reading, and every
text that the format reads lies over the name. So no text is read by two formats with names of
different lengths. -/
theorem ofName_fixedWidth :
    (∀ name : String, ∃ parts : List Part,
      (∀ parts', Part.IsReading parts' name.toList ↔ parts' = parts) ∧
      parts.flatMap Part.spell = name.toList ∧
      ((∃ f, ofName name = .ok f) ↔ WellChosen (parts.filterMap Part.field?)) ∧
      ∀ f, ofName name = .ok f → f.name = name ∧ f.parts = parts ∧
        ∀ t d, f.parse? t = some d → LiesOver t name parts d) ∧
    ∀ (f g : DateFormat) (t : String), f.name.length ≠ g.name.length →
      f.parse? t = none ∨ g.parse? t = none := by
  constructor
  · intro name
    refine ⟨Part.ofChars name.toList, fun parts' => Part.isReading_iff, Part.spell_ofChars _,
      exists_ofName_iff, fun f hf => ?_⟩
    obtain rfl := ofName_eq_ok_iff.mp hf
    exact ⟨rfl, rfl, fun t d => liesOver_of_parse?⟩
  · intro f g t hlength
    by_contra hboth
    obtain ⟨hf, hg⟩ := not_or.mp hboth
    obtain ⟨d, hd⟩ := Option.ne_none_iff_exists'.mp hf
    obtain ⟨d', hd'⟩ := Option.ne_none_iff_exists'.mp hg
    exact hlength ((liesOver_of_parse? hd).length.symm.trans (liesOver_of_parse? hd').length)

/-- A year of four digits before a letter, as no second token of a year fits behind the first. -/
def yearAndLetter : DateFormat := ⟨"YYYYY", by decide⟩

/-- The first day of a year. -/
def newYear : DateTime := ⟨⟨2024, 1, 1, 0, 0, 0, 0⟩, by decide⟩

/-- Five letters are a year before a letter, and six are two years, which is no format. -/
theorem yearAndLetter_fixedWidth :
    (∃ f, ofName "YYYYY" = .ok f) ∧ Part.IsReading [.field .year, .literal 'Y'] "YYYYY".toList ∧
      yearAndLetter.parse? "2024Y" = some newYear ∧
      LiesOver "2024Y" "YYYYY" [.field .year, .literal 'Y'] newYear ∧
      (¬ ∃ f, ofName "YYYYYY" = .ok f) ∧
      "DD-MMM-YY".length ≠ "YYYYY".length ∧ dayMonthYear.parse? "2024Y" = none := by
  obtain ⟨hnames, hlengths⟩ := ofName_fixedWidth
  have hparse : yearAndLetter.parse? "2024Y" = some newYear := by decide
  have hof : ofName "YYYYY" = .ok yearAndLetter := ofName_eq_ok_iff.mpr rfl
  obtain ⟨parts, hreading, -, -, hformat⟩ := hnames "YYYYY"
  obtain ⟨-, hparts, hover⟩ := hformat yearAndLetter hof
  obtain ⟨parts', hreading', -, hchosen', -⟩ := hnames "YYYYYY"
  have hparts : parts = [.field .year, .literal 'Y'] := hparts.symm.trans (by decide)
  have hparts' : parts' = [.field .year, .field .shortYear] :=
    ((hreading' _).mp (Part.isReading_ofChars _)).symm.trans (by decide)
  subst hparts hparts'
  have hlength : dayMonthYear.name.length ≠ yearAndLetter.name.length := by decide
  refine ⟨⟨_, hof⟩, (hreading _).mpr rfl, hparse, hover _ _ hparse, ?_, hlength, ?_⟩
  · exact fun h => (hchosen'.mp h).year (by decide)
  · exact (hlengths dayMonthYear yearAndLetter "2024Y" hlength).resolve_right (by simp [hparse])

end DateFormat

end TableRules
