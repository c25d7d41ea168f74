import TableRules.Proofs.Number.RealLiterals
import TableRules.Proofs.RulesText.Descriptions
import TableRules.Proofs.RulesText.Faults

/-!
# Numbers in groups of digits in rules

A number in groups of digits is one number token, whatever the separator between its groups is, with
one exception: a space goes on with no lexeme, so that each group behind a space is a token of its
own (`pieces`).

* `RulesReader.readLine_groupedNumber`: the line that asks for equality with such a number becomes a
  rule with the number that a cell of the same text has, unless spaces separate its groups; then the
  line is malformed.
-/

namespace TableRules

open Lexeme Tokens Result

variable {s : Settings} {catalog : Catalog} {before : List TokenKind}

namespace GroupedNumber

variable {g : GroupedNumber} {between : List Char} {mark : Char}

/-! ### Lexemes -/

/-- Digits and characters between them are a mantissa. -/
private theorem isMantissa_of_endsInDigit {c : Char} {cs : List Char}
    (hc : Text.isDigit c = true) (hcs : ∀ a ∈ c :: cs, IsGrouping a)
    (hends : EndsInDigit (c :: cs)) : IsMantissa (c :: cs) := by
  obtain ⟨front, d, htext, hd⟩ := hends
  cases front with
  | nil => exact htext ▸ .digit hd
  | cons a front =>
    obtain ⟨rfl, rfl⟩ := List.cons.inj htext
    exact .groups hc (fun a ha => hcs a (by simp [ha])) hd

theorem isExponent_exponentChars (g : GroupedNumber) : IsExponent g.exponentChars := by
  unfold exponentChars
  split
  · exact .none
  · rename_i letter sign ds hexponent
    obtain ⟨hletter, hds⟩ := g.isDigit_exponent _ _ _ hexponent
    exact .some hletter (isOptionalSign_optionalSign sign) hds

/-- A number whose groups are separated by grouping characters is a number token. -/
theorem isNumber_chars (g : GroupedNumber) (hbetween : ∀ c ∈ between, IsGrouping c)
    (hmark : IsGrouping mark) : IsNumber (g.chars between mark) := by
  rw [chars, ← List.append_assoc]
  refine .mk (isOptionalSign_optionalSign g.sign) ?_ g.isExponent_exponentChars
  have hgrouping : ∀ c ∈ g.mantissaChars between mark, IsGrouping c := by
    intro c hc
    rcases mem_mantissaChars hc with hc | hc | rfl
    · exact .inl hc
    · exact hbetween c hc
    · exact hmark
  have hends := g.endsInDigit_mantissaChars between mark
  obtain ⟨d, ds, hfirst⟩ := List.exists_cons_of_ne_nil g.first_ne_nil
  rw [mantissaChars, hfirst, List.cons_append] at hgrouping hends ⊢
  exact isMantissa_of_endsInDigit (g.isDigit_first d (hfirst ▸ List.mem_cons_self)) hgrouping hends

/-! ### Groups behind spaces -/

/-- Digits, and groups each of which stands behind a space; more characters stand behind the last
of them. -/
def spread (tail : List Char) : List Char → List (List Char) → List (List Char)
  | front, [] => [front ++ tail]
  | front, group :: groups => front :: spread tail group groups

theorem length_spread (tail front : List Char) (groups : List (List Char)) :
    (spread tail front groups).length = groups.length + 1 := by
  induction groups generalizing front with
  | nil => rfl
  | cons group groups ih => rw [spread, List.length_cons, ih, List.length_cons]

theorem intercalate_spread (tail front : List Char) (groups : List (List Char)) :
    [' '].intercalate (spread tail front groups)
      = front ++ (groups.flatMap ([' '] ++ ·) ++ tail) := by
  induction groups generalizing front with
  | nil => simp [spread]
  | cons group groups ih =>
    have hne : spread tail group groups ≠ [] :=
      List.ne_nil_of_length_pos (by rw [length_spread]; omega)
    obtain ⟨piece, pieces, hpieces⟩ := List.exists_cons_of_ne_nil hne
    have ih := ih group
    rw [hpieces] at ih
    rw [spread, hpieces, List.intercalate_cons_cons, ih]
    simp

/-- The pieces of a number are numbers: all but the last consist of digits, behind the sign of the
number if it is the first, and the last has the fraction and the exponent of the number. -/
private theorem isNumber_of_mem_spread (hmark : IsGrouping mark) {front : List Char}
    {groups : List (List Char)}
    (hfront : ∃ sign ds, front = optionalSign sign ++ ds ∧ IsDigits ds)
    (hgroups : ∀ group ∈ groups, IsDigits group) {piece : List Char}
    (hpiece : piece ∈ spread (g.fractionChars mark ++ g.exponentChars) front groups) :
    IsNumber piece := by
  have hnone : ∀ c ∈ ([] : List Char), IsGrouping c := by simp
  induction groups generalizing front with
  | nil =>
    obtain ⟨sign, ds, rfl, hne, hds⟩ := hfront
    obtain rfl := List.mem_singleton.mp hpiece
    have hnumber := isNumber_chars { ofDigits sign ds hne hds with
      fraction := g.fraction
      exponent := g.exponent
      isDigit_fraction := g.isDigit_fraction
      isDigit_exponent := g.isDigit_exponent } hnone hmark
    simpa [chars, mantissaChars, ofDigits, fractionChars, exponentChars] using hnumber
  | cons group groups ih =>
    obtain ⟨hgroup, hgroups⟩ := List.forall_mem_cons.mp hgroups
    rcases List.mem_cons.mp hpiece with rfl | hpiece
    · obtain ⟨sign, ds, rfl, hne, hds⟩ := hfront
      have hnumber := isNumber_chars (ofDigits sign ds hne hds) hnone hmark
      simpa [chars, mantissaChars, ofDigits, fractionChars, exponentChars] using hnumber
    · exact ih ⟨none, group, rfl, hgroup⟩ hgroups hpiece

/-- The number tokens of a number as it is written under settings. -/
def pieces (g : GroupedNumber) (s : Settings) : List String :=
  if s.separator = some .space then
    (spread (g.fractionChars s.decimalMark ++ g.exponentChars)
      (optionalSign g.sign ++ g.first) g.groups).map String.ofList
  else [g.text s]

theorem length_pieces (g : GroupedNumber) (s : Settings) :
    (g.pieces s).length = if s.separator = some .space then g.groups.length + 1 else 1 := by
  unfold pieces
  split_ifs
  · rw [List.length_map, length_spread]
  · rfl

/-- With spaces between them, the pieces of a number are the number. -/
theorem joinWith_pieces (g : GroupedNumber) (s : Settings) :
    Text.joinWith " " (g.pieces s) = g.text s := by
  unfold pieces
  split_ifs with hspace
  · have hlist : ∀ texts : List (List Char),
        (texts.map String.ofList).map String.toList = texts := by
      intro texts
      simp
    rw [← String.toList_inj, Text.toList_joinWith, hlist, text, String.toList_ofList, hspace]
    exact (intercalate_spread _ _ _).trans (by simp [chars, mantissaChars, Separator.char])
  · rfl

/-- A number is one piece where no spaces separate its groups. -/
theorem pieces_eq_singleton (g : GroupedNumber) (h : s.separator ≠ some .space ∨ g.groups = []) :
    g.pieces s = [g.text s] := by
  have hlen : (g.pieces s).length = 1 := by
    rw [length_pieces]
    split_ifs with hspace
    · rw [h.resolve_left (not_not.mpr hspace)]
      rfl
    · rfl
  obtain ⟨piece, hpiece⟩ := List.length_eq_one_iff.mp hlen
  rw [hpiece, ← g.joinWith_pieces s, hpiece]
  rfl

/-- Each piece of a number is a number token, wherever all brackets are closed. -/
theorem isNumber_of_mem_pieces (g : GroupedNumber) (s : Settings) {piece : String}
    (h : piece ∈ g.pieces s) : IsNumber piece.toList := by
  have hmark : IsGrouping s.decimalMark := by
    unfold Settings.decimalMark
    split_ifs <;> exact .inr (by decide)
  unfold pieces at h
  split_ifs at h with hspace
  · obtain ⟨chars, hchars, rfl⟩ := List.mem_map.mp h
    rw [String.toList_ofList]
    refine isNumber_of_mem_spread hmark ⟨g.sign, g.first, rfl, g.first_ne_nil, g.isDigit_first⟩
      (fun group hgroup => ?_) hchars
    obtain ⟨hlen, hdigits⟩ := g.isDigit_group group hgroup
    exact ⟨List.ne_nil_of_length_pos (by omega), hdigits⟩
  · obtain rfl := List.mem_singleton.mp h
    rw [text, String.toList_ofList]
    refine g.isNumber_chars (fun c hc => .inr ?_) hmark
    obtain ⟨separator, hseparator, rfl⟩ := Option.map_eq_some_iff.mp (Option.mem_toList.mp hc)
    cases separator with
    | space => exact absurd hseparator hspace
    | _ => decide

/-! ### The line -/

/-- The line that asks for equality with a number. -/
def line (g : GroupedNumber) (s : Settings) : String := "is == " ++ g.text s

theorem oneLine_line (g : GroupedNumber) (s : Settings) : OneLine (g.line s) := by
  refine OneLine.append (by decide) fun c hc => ?_
  rw [text, String.toList_ofList] at hc
  rcases mem_chars hc with hc | hc | rfl
  · exact isLineBreak_of_not_isBlank (isBlank_of_isNeutral hc)
  · obtain ⟨separator, -, rfl⟩ := Option.map_eq_some_iff.mp (Option.mem_toList.mp hc)
    cases separator <;> decide
  · unfold Settings.decimalMark
    split_ifs <;> decide

/-- Numbers one after the other are spelled as they are, wherever all brackets are closed. -/
private theorem spellings_numbers {numbers : List String} (hdepth : depth before = 0)
    (hnumbers : ∀ number ∈ numbers, IsNumber number.toList) :
    Spellings before (numbers.map fun number => (.number, number)) numbers := by
  induction numbers generalizing before with
  | nil => exact .nil
  | cons number numbers ih =>
    obtain ⟨hnumber, hnumbers⟩ := List.forall_mem_cons.mp hnumbers
    exact .cons (.number hnumber fun _ => depth_eq_zero_iff.mp hdepth)
      (ih (by rw [depth_append_singleton, hdepth]; rfl) hnumbers)

/-- The line is cut into a word, an operator and the pieces of the number. -/
theorem exists_tokens (g : GroupedNumber) (s : Settings) (n : Int) :
    ∃ w o ts, scanTokens n (g.line s) = .ok (w :: o :: ts) ∧
      NoSpaces (w :: o :: ts) ∧ IsKeyword "is" w ∧
      o.kind = .operator ∧ o.value = Comparison.equal.operator ∧
      ts.map (fun t => (t.kind, t.value)) = (g.pieces s).map fun piece => (.number, piece) := by
  have hspellings : Spellings []
      ((.word, "is") :: (.operator, "==") :: (g.pieces s).map fun piece => (.number, piece))
      ("is" :: "==" :: g.pieces s) :=
    .cons (.word (.mk (by decide) (Text.forall_of_all (by decide)))) (.cons (.operator (by decide))
      (spellings_numbers rfl fun _ => g.isNumber_of_mem_pieces s))
  have hjoin : Text.joinWith " " ("is" :: "==" :: g.pieces s) = g.line s := by
    have hlen := g.length_pieces s
    have hne : g.pieces s ≠ [] := List.ne_nil_of_length_pos (by split_ifs at hlen <;> omega)
    have hjoined := g.joinWith_pieces s
    obtain ⟨piece, pieces, hpieces⟩ := List.exists_cons_of_ne_nil hne
    rw [hpieces] at hjoined ⊢
    rw [Text.joinWith, Text.joinWith, hjoined, line, ← String.append_assoc, ← String.append_assoc]
    · rfl
    · simp
    · simp
  obtain ⟨ts, hscan, hts⟩ := scanTokens_joinWith n hspellings
  rw [hjoin] at hscan
  obtain ⟨w, ts, rfl, hw, hts⟩ := List.map_eq_cons_iff.mp hts
  obtain ⟨o, ts, rfl, ho, hts⟩ := List.map_eq_cons_iff.mp hts
  obtain ⟨hwkind, hwvalue⟩ := Prod.mk.inj hw
  obtain ⟨hokind, hovalue⟩ := Prod.mk.inj ho
  refine ⟨w, o, ts, hscan, noSpaces_of_cut (scanTokens_eq_ok_iff.mp hscan), ⟨hwkind, ?_⟩, hokind,
    hovalue, hts⟩
  rw [hwvalue]
  decide

/-- The line alone is a text of one line. -/
theorem tokenLines_line (g : GroupedNumber) (s : Settings) {ts : List Token}
    (hscan : scanTokens 1 (g.line s) = .ok ts) :
    tokenLines (g.line s) = .ok [⟨1, g.line s, ts⟩] := by
  have hchars : (g.line s).toList = 'i' :: ("s == ".toList ++ (g.text s).toList) := by
    simp [line]
  exact tokenLines_of_letter (g.oneLine_line s) hchars (by decide) hscan

end GroupedNumber

/-! ### Reading the line -/

/-- A comparison with a number is malformed if more follows the number. -/
theorem readConstraint_comparison_eq_error {w o t t' : Token} {ts : List Token} {op : Comparison}
    (hw : IsKeyword "is" w) (hkind : o.kind = .operator) (hvalue : o.value = op.operator) :
    ∃ cause, readConstraint s catalog (w :: o :: t :: t' :: ts) = .error (.malformed cause) := by
  have hrest : ∀ t' ∈ (o :: t :: t' :: ts).head?, t'.kind ≠ .word := by
    rintro t' ⟨⟩
    simp [hkind]
  have hwords : Keywords ["is"] [w] := .cons hw .nil
  have hnone : Keywords [] [] := .nil
  have hread : readConstraint s catalog ([w] ++ ([] ++ (o :: t :: t' :: ts))) = _ :=
    readConstraint_append (mem_rulePhrases_iff.mpr .is) hwords (by decide) hnone hrest
  have his : readIs s (o :: t :: t' :: ts) = (readReal s (t :: t' :: ts)).map
      fun result => (.compare op (.real result.1), result.2) := by
    rw [readIs, accept?_cons hkind]
    simp only [Comparison.ofOperator?_eq_some_iff.mpr hvalue]
  rw [List.singleton_append, List.nil_append] at hread
  rw [hread]
  change ∃ cause, (readIs s (o :: t :: t' :: ts)).bind _ = _
  rw [his]
  cases hreal : readReal s (t :: t' :: ts) with
  | error e =>
    obtain ⟨cause, rfl⟩ := isMalformed_of_readReal hreal
    exact ⟨cause, rfl⟩
  | ok result =>
    obtain ⟨x, after⟩ := result
    obtain ⟨_, htokens, -⟩ := readReal_eq_ok_iff.mp hreal
    obtain rfl := (List.cons.inj htokens).2
    exact ⟨.unexpected t'.value t'.column, rfl⟩

namespace RulesReader

variable {r : RulesReader} {column : String} {line : TokenLine}

/-- In an open block, a line that is no statement and no constraint has the fault of this. -/
theorem readLine_eq_error_of_readConstraint (hplace : r.place = .inBlock column)
    (hsettings : r.settings = .ok s) (hstatement : Statement.read? s line.tokens = none)
    {e : LineFault} (h : readConstraint s catalog line.tokens = .error e) :
    readLine catalog r line = .error (e.onLine line) := by
  have hplain : r.readPlainLine catalog line = .error e := by
    rw [readPlainLine, hsettings]
    simp only [bind, Except.bind, hstatement, readBlockRule, hplace, readRule, h]
    rfl
  rw [readLine, hplace]
  exact mapError_eq_error_iff.mpr ⟨e, hplain, rfl⟩

/-- **A number in groups of digits** is the same in a rule as in a cell: under the settings in force
it is read in a cell as its value, if that is finite, and the line that asks for equality with it is
read as a rule with this value. The one exception are groups behind spaces, of which the line is
malformed. -/
theorem readLine_groupedNumber (catalog : Catalog) (r : RulesReader) (column : String)
    (s : Settings) (g : GroupedNumber) (n : Int) (hplace : r.place = .inBlock column)
    (hsettings : r.settings = .ok s) (hfinite : g.value.isFinite = true) :
    (∃ normalized, parseNumber (g.text s) s .floatingPoint
        = .ok (some (.real g.value, normalized))) ∧
      ∃ ts, tokenLines (g.line s) = .ok [⟨1, g.line s, ts⟩] ∧
        (s.separator ≠ some .space ∨ g.groups = [] →
          readLine catalog r ⟨n, g.line s, ts.map (Token.onLine n)⟩
            = .ok (r.withRule column ⟨.compare .equal (.real g.value), some n⟩)) ∧
        (s.separator = some .space → g.groups ≠ [] → ∃ cause,
          readLine catalog r ⟨n, g.line s, ts.map (Token.onLine n)⟩
            = .error (.malformed cause (some n) (some (g.line s)))) := by
  obtain ⟨hcell, hreal⟩ := g.parseNumber_text s hfinite
  obtain ⟨w, o, ts, hscan, hspaces, hw, hkind, hvalue, hts⟩ := g.exists_tokens s n
  have hfirst := scanTokens_eq_ok_onLine hscan 1
  refine ⟨⟨_, hcell⟩, _, g.tokenLines_line s hfirst, ?_⟩
  rw [← Except.ok.inj (hscan.symm.trans (scanTokens_eq_ok_onLine hfirst n))]
  refine ⟨fun hone => ?_, fun hspace hgroups => ?_⟩
  · rw [g.pieces_eq_singleton hone] at hts
    obtain ⟨t, rest, rfl, ht, hrest⟩ := List.map_eq_cons_iff.mp hts
    obtain rfl := List.map_eq_nil_iff.mp hrest
    obtain ⟨htkind, htvalue⟩ := Prod.mk.inj ht
    have hphrase : IsPhrase s catalog (.compare .equal (.real g.value)) ([w] ++ [o, t]) :=
      .compare (.cons hw .nil) hkind hvalue htkind (htvalue ▸ hreal)
    exact readLine_eq_ok hplace hsettings hspaces (hphrase.readConstraint_eq_ok rfl)
      (fun hsome => by simp [Constraint.declaredType?] at hsome)
  · have hlen : 2 ≤ ts.length := by
      have hlen := congrArg List.length hts
      rw [List.length_map, List.length_map, g.length_pieces, if_pos hspace] at hlen
      have hpos := List.length_pos_of_ne_nil hgroups
      omega
    obtain ⟨t, t', more, rfl⟩ : ∃ t t' more, ts = t :: t' :: more := by
      rcases ts with _ | ⟨t, _ | ⟨t', more⟩⟩
      · simp at hlen
      · simp at hlen
      · exact ⟨t, t', more, rfl⟩
    obtain ⟨cause, hread⟩ : ∃ cause, readConstraint s catalog (w :: o :: t :: t' :: more)
        = .error (.malformed cause) := readConstraint_comparison_eq_error hw hkind hvalue
    exact ⟨cause, (readLine_eq_error_of_readConstraint hplace hsettings
      (read?_eq_none_of_head (by decide) hw) hread).trans rfl⟩

/-! #### A number of a thousand and more -/

/-- The number `-1,234.50E+2`, up to its separator and its decimal mark. -/
def thousands : GroupedNumber where
  sign := some true
  first := ['1']
  groups := [['2', '3', '4']]
  fraction := ['5', '0']
  exponent := some ('E', some false, ['2'])
  first_ne_nil := by decide
  isDigit_first := Text.forall_of_all (by decide)
  isDigit_group := List.forall_mem_singleton.mpr ⟨rfl, Text.forall_of_all (by decide)⟩
  isDigit_fraction := Text.forall_of_all (by decide)
  isDigit_exponent := by
    rintro letter sign ds ⟨⟩
    exact ⟨.inr rfl, by decide, Text.forall_of_all (by decide)⟩

theorem thousands_groupedNumber :
    commaColumn.place = .inBlock "c" ∧ commaColumn.settings = .ok commaSettings ∧
      thousands.value.isFinite = true ∧ thousands.line commaSettings = "is == -1,234.50E+2" ∧
      (∃ normalized, parseNumber (thousands.text commaSettings) commaSettings .floatingPoint
        = .ok (some (.real thousands.value, normalized))) ∧
      ∃ ts, tokenLines (thousands.line commaSettings)
          = .ok [⟨1, thousands.line commaSettings, ts⟩] ∧
        readLine .standard commaColumn
            ⟨4, thousands.line commaSettings, ts.map (Token.onLine 4)⟩
          = .ok (commaColumn.withRule "c" ⟨.compare .equal (.real thousands.value), some 4⟩) := by
  have hsettings : commaColumn.settings = .ok commaSettings := by
    rw [RulesReader.settings, Draft.settings_eq_ok rfl]
    rfl
  have hfinite : thousands.value.isFinite = true := by decide +kernel
  obtain ⟨hcell, ts, hline, hread, -⟩ :=
    readLine_groupedNumber .standard commaColumn "c" commaSettings thousands 4 rfl hsettings hfinite
  exact ⟨rfl, hsettings, hfinite, by decide +kernel, hcell, ts, hline, hread (.inl (by decide))⟩

/-- A text with a number in groups of digits behind spaces. -/
def spacedText : String :=
  "column names in ['c']\nthousands separator is ' '\ncolumn: c\nis == 1 000\n"

/-- **A number that a cell may hold and no rule.** -/
theorem spacedText_malformed :
    parseNumber "1 000" ⟨[], some .space, Settings.defaultPrecision, Settings.defaultPrecision_pos⟩
        .floatingPoint = .ok (some (.real (Double.ofDecimal false 1000 0), "1000")) ∧
      Ruleset.parse none spacedText
        = .error (.malformed (.unexpected "000" 9) (some 4) (some "is == 1 000")) := by
  have hfault : (Ruleset.parse none spacedText).map (fun _ => ())
      = .error (.malformed (.unexpected "000" 9) (some 4) (some "is == 1 000")) := by
    decide +kernel
  exact ⟨by decide +kernel, map_eq_error_iff.mp hfault⟩

end RulesReader

end TableRules
