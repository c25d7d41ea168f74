import TableRules.Proofs.RulesText.RulePhrases
import TableRules.Proofs.RulesText.SourceLines
import TableRules.Proofs.Value.CanonicalText

/-!
# The lexemes of arguments

A lexeme of one line that is the same wherever it stands (`IsLexeme`) is how an argument of a rule
is shown:

* a text without double quotes and backslashes between double quotes (`isLexeme_inQuotes`),
* a pattern without slashes between slashes (`isLexeme_pattern`),
* a finite number so that it is read as an equal one wherever the point is the decimal mark
  (`parseReal?_plain`),
* a count in its digits (`isWhole_decimal`).
-/

namespace TableRules

open Lexeme Tokens

variable {s : Settings} {t : Token} {kind : TokenKind} {value text : String}

/-! ### Texts of one line -/

/-- A text without line breaks. -/
def OneLine (text : String) : Prop := ∀ c ∈ text.toList, Text.isLineBreak c = false

instance : DecidablePred OneLine := fun text => List.decidableBAll _ text.toList

theorem OneLine.append {text text' : String} (h : OneLine text) (h' : OneLine text') :
    OneLine (text ++ text') := by
  intro c hc
  rw [String.toList_append] at hc
  exact (List.mem_append.mp hc).elim (h c) (h' c)

theorem OneLine.joinWith {separator : String} {texts : List String} (hseparator : OneLine separator)
    (htexts : ∀ text ∈ texts, OneLine text) : OneLine (Text.joinWith separator texts) := by
  cases texts with
  | nil => exact fun c hc => absurd hc (by simp [Text.joinWith])
  | cons text texts =>
    obtain ⟨htext, htexts⟩ := List.forall_mem_cons.mp htexts
    intro c hc
    rw [Text.toList_joinWith_cons] at hc
    rcases List.mem_append.mp hc with hc | hc
    · exact htext c hc
    · obtain ⟨text', htext', hc⟩ := List.mem_flatMap.mp hc
      exact (List.mem_append.mp hc).elim (hseparator c) (htexts text' htext' c)

theorem isLineBreak_of_not_isBlank {c : Char} (h : Text.isBlank c = false) :
    Text.isLineBreak c = false :=
  Bool.eq_false_iff.mpr fun hbreak => by simp [Text.isBlank_of_isLineBreak hbreak] at h

/-! ### Lexemes of arguments -/

/-- A text of one line is a lexeme with a given value, whether or not all brackets are closed. -/
structure IsLexeme (kind : TokenKind) (value text : String) : Prop where
  written (closed : Prop) : Written closed kind value.toList text.toList
  oneLine : OneLine text

private theorem mem_of_mem_unescape {body : List Char} {c : Char} (h : c ∈ unescape body) :
    c ∈ body := by
  unfold unescape at h
  fun_induction replacePairs (fun c => [c]) body with
  | case1 a cs ih =>
    rcases List.mem_append.mp h with h | h
    · exact List.mem_cons_of_mem _ (List.mem_singleton.mp h ▸ List.mem_cons_self)
    · exact List.mem_cons_of_mem _ (List.mem_cons_of_mem _ (ih h))
  | case2 a cs hescape ih =>
    rcases List.mem_cons.mp h with rfl | h
    · exact List.mem_cons_self
    · exact List.mem_cons_of_mem _ (ih h)
  | case3 => simp at h

/-- The value of a string token of a line holds no line break. -/
theorem Token.IsOfLine.oneLine (h : t.IsOfLine) (hkind : t.kind = .string) : OneLine t.value := by
  obtain ⟨closed, lexeme, hw, hline⟩ := h
  have hmarks : ∀ m ∈ marks, m.2 ≠ .string := by decide
  rw [hkind] at hw
  intro c hc
  generalize t.value.toList = value at *
  cases hw with
  | punctuation hmark => exact absurd rfl (hmarks _ hmark)
  | string => exact hline c (by simp [mem_of_mem_unescape hc])

/-- A plain text of one line between double quotes is a string with this text. -/
theorem isLexeme_inQuotes (hplain : ∀ c ∈ value.toList, c ≠ '\x22' ∧ c ≠ '\\')
    (hline : OneLine value) : IsLexeme .string value (Constraint.inQuotes value) where
  written closed := by
    have hbreak : '\n' ∉ value.toList := fun h => absurd (hline _ h) (by decide)
    have hescaping : escaping (fun c => c = '\\' ∨ c = '\x22') value.toList = value.toList := by
      rw [escaping, List.flatMap_congr fun c hc => if_neg (by simp [hplain c hc]),
        List.flatMap_singleton']
    have hspelling : Spelling closed .string value.toList _ := .string (.inl rfl) hbreak
    have hw := hspelling.written
    rw [hescaping] at hw
    simpa [Constraint.inQuotes] using hw
  oneLine := OneLine.append (.append (by decide) hline) (by decide)

/-- A body keeps its slashes where it has none. -/
private theorem unescapeSlashes_of_noSlash {body : List Char} (h : '/' ∉ unescapeSlashes body) :
    unescapeSlashes body = body := by
  unfold unescapeSlashes at *
  fun_induction replacePairs (fun c => if c = '/' then ['/'] else ['\\', c]) body with
  | case1 a cs ih =>
    rw [List.mem_append, not_or] at h
    split_ifs at h ⊢ with hslash
    · simp at h
    · simp [ih h.2]
  | case2 a cs hescape ih => rw [ih fun hmem => h (List.mem_cons_of_mem a hmem)]
  | case3 => rfl

/-- A pattern token without slashes is written as its value between slashes. -/
theorem isLexeme_pattern (h : t.IsOfLine) (hkind : t.kind = .pattern)
    (hslash : '/' ∉ t.value.toList) : IsLexeme .pattern t.value ("/" ++ t.value ++ "/") := by
  obtain ⟨closed, lexeme, hw, hline⟩ := h
  have hmarks : ∀ m ∈ marks, m.2 ≠ .pattern := by decide
  have htext : ("/" ++ t.value ++ "/").toList = '/' :: (t.value.toList ++ ['/']) := by simp
  rw [hkind] at hw
  refine ⟨fun closed' => ?_, ?_⟩
  · rw [htext]
    generalize t.value.toList = value at *
    cases hw with
    | punctuation hmark => exact absurd rfl (hmarks _ hmark)
    | pattern hne hbody =>
      have hw : Written closed' .pattern _ _ := .pattern hne hbody
      rwa [unescapeSlashes_of_noSlash hslash] at hw ⊢
  · unfold OneLine
    rw [htext]
    generalize t.value.toList = value at *
    cases hw with
    | punctuation hmark => exact absurd rfl (hmarks _ hmark)
    | pattern hne hbody => rwa [unescapeSlashes_of_noSlash hslash]

theorem isLexeme_operator (op : Comparison) : IsLexeme .operator op.operator op.operator where
  written closed := .operator (by cases op <;> decide)
  oneLine := by cases op <;> decide

/-! ### Numbers -/

section Numbers

variable {u : Unsigned} {negative : Bool} {m : Magnitude}

private theorem isDigits_of_ascii {ds : List Char} (hne : ds ≠ [])
    (hds : ∀ c ∈ ds, c.isDigit = true) : IsDigits ds :=
  ⟨hne, fun c hc => Text.isDigit_of_ascii_isDigit (hds c hc)⟩

/-- The digits of a literal, with a point where there is a fraction, are a mantissa. -/
private theorem isMantissa_spell (hu : u.IsPlain) :
    IsMantissa (u.whole ++ if u.fraction = [] then [] else '.' :: u.fraction) := by
  have hdigit : ∀ {c : Char}, c.isDigit = true → Text.isDigit c = true :=
    Text.isDigit_of_ascii_isDigit
  obtain ⟨first, whole, hwhole⟩ := List.exists_cons_of_ne_nil hu.whole_ne_nil
  have hfirst := hdigit (hu.whole first (by simp [hwhole]))
  have hinner : ∀ c ∈ whole, Text.isDigit c = true :=
    fun c hc => hdigit (hu.whole c (by simp [hwhole, hc]))
  rw [hwhole]
  split_ifs with hfraction
  · rw [List.append_nil]
    rcases List.eq_nil_or_concat' whole with rfl | ⟨inner, last, rfl⟩
    · exact .digit hfirst
    · exact .groups hfirst (fun c hc => .inl (hinner c (by simp [hc]))) (hinner last (by simp))
  · obtain ⟨fraction, last, hlast⟩ := (List.eq_nil_or_concat' u.fraction).resolve_left hfraction
    have hplaces : ∀ c ∈ fraction ++ [last], Text.isDigit c = true :=
      fun c hc => hdigit (hu.fraction c (hlast ▸ hc))
    have hgrouping : ∀ c ∈ whole ++ '.' :: fraction, IsGrouping c := by
      intro c hc
      rcases List.mem_append.mp hc with hc | hc
      · exact .inl (hinner c hc)
      · rcases List.mem_cons.mp hc with rfl | hc
        · exact .inr (by decide)
        · exact .inl (hplaces c (by simp [hc]))
    simpa [hlast] using IsMantissa.groups hfirst hgrouping (hplaces last (by simp))

private theorem isExponent_exponentChars (hu : u.IsPlain) :
    IsExponent (Unsigned.exponentChars u.exponent) := by
  cases hexponent : u.exponent with
  | none => exact .none
  | some e =>
    obtain ⟨negative, ds⟩ := e
    obtain ⟨hne, hds⟩ := hu.exponent negative ds hexponent
    have hsign : IsOptionalSign [if negative then '-' else '+'] := by
      cases negative <;> simp [IsOptionalSign]
    exact .some (.inl rfl) hsign (isDigits_of_ascii hne hds)

/-- A spelled literal is a number token with itself as value; there is no comma in it. -/
theorem isLexeme_spell (hu : u.IsPlain) (hspell : text.toList = signChars negative ++ u.spell) :
    IsLexeme .number text text where
  written closed := by
    refine .number ?_ fun hcomma => ?_
    · rw [hspell, Unsigned.spell, ← List.append_assoc]
      exact .mk (by cases negative <;> simp [IsOptionalSign, signChars]) (isMantissa_spell hu)
        (isExponent_exponentChars hu)
    · exact absurd (isNumeric_of_mem_sign_spell hu (hspell ▸ hcomma)) (by decide)
  oneLine c hc := isLineBreak_of_not_isBlank <|
    isBlank_of_isNumeric (isNumeric_of_mem_sign_spell hu (hspell ▸ hc))

/-- A spelled literal is read where the point is the decimal mark. -/
theorem parseReal?_spell (hsep : s.separator ≠ some .point) (hu : u.IsPlain)
    (hspell : text.toList = signChars negative ++ u.spell)
    (hum : u.toDouble negative = .finite negative m) :
    parseReal? text s = some (.finite negative m) := by
  have hnumeric : ∀ c ∈ text.toList, IsNumeric c :=
    fun c hc => isNumeric_of_mem_sign_spell hu (hspell ▸ hc)
  have hlocal : localize text s = text := localize_of_separator_ne hsep
  have htrim := trim_localize (s := s) hnumeric
  have hnormal := normalizeChars_localize (s := s) hnumeric
  rw [hlocal] at htrim hnormal
  rw [parseReal?, Text.trim_eq_self_iff.mp htrim, hnormal, hspell, readReal?_spell hu]
  simp only [hum, Double.isFinite, if_true]

/-- **A number as a rule shows it** is a number token that is read as an equal number. -/
theorem parseReal?_plain (hsep : s.separator ≠ some .point) {x : Double} (hx : x.isFinite = true) :
    IsLexeme .number x.plain x.plain ∧
      ∃ y, parseReal? x.plain s = some y ∧ x.eq y = true := by
  obtain ⟨sign, m, rfl⟩ := Double.exists_eq_finite hx
  obtain ⟨negative, u, hu, hspell, hum, heq⟩ := Double.exists_spell_plain sign m
  exact ⟨isLexeme_spell hu hspell, _, parseReal?_spell hsep hu hspell hum, heq⟩

/-- A number that has been read is finite. -/
theorem isFinite_of_parseReal? {x : Double} (h : parseReal? text s = some x) :
    x.isFinite = true := by
  simp only [parseReal?] at h
  split at h
  · simp at h
  · obtain ⟨hfinite, hx⟩ := Option.ite_none_right_eq_some.mp h
    exact Option.some.inj hx ▸ hfinite

end Numbers

/-- The digits of a number are a number token that is this whole number. -/
theorem isWhole_decimal (s : Settings) (n : Nat) :
    IsLexeme .number (Text.decimal n) (Text.decimal n) ∧
      IsWhole s (Text.decimal n) (Nat.toDigits 10 n) := by
  have htext : (Text.decimal n).toList = Nat.toDigits 10 n := by
    rw [Text.decimal, Nat.toList_repr]
  have hdigits : ∀ c ∈ Nat.toDigits 10 n, c.isDigit = true :=
    fun c hc => Nat.isDigit_of_mem_toDigits (by decide) (by decide) hc
  have hne : Nat.toDigits 10 n ≠ [] := List.ne_nil_of_length_pos Nat.length_toDigits_pos
  have hu : Unsigned.IsPlain ⟨Nat.toDigits 10 n, [], none⟩ := ⟨hne, hdigits, by simp, by simp⟩
  have hspell : (Text.decimal n).toList
      = signChars false ++ Unsigned.spell ⟨Nat.toDigits 10 n, [], none⟩ := by
    simp [htext, Unsigned.spell, Unsigned.exponentChars, signChars]
  refine ⟨isLexeme_spell hu hspell, [], .inl rfl, isDigits_of_ascii hne hdigits, ?_, by simp⟩
  · rw [List.nil_append, ungrouped, htext,
      Text.trimChars_of_noBlank fun c hc => Text.isBlank_of_isDigit (hdigits c hc),
      List.filter_eq_self]
    -- no separator is a digit
    intro c hc
    have hall : ∀ separator ∈ Separator.all, separator.char.isDigit = false := by decide
    refine decide_eq_true fun hsep => ?_
    obtain ⟨separator, -, rfl⟩ := Option.map_eq_some_iff.mp hsep
    have hseparator := hall separator (by cases separator <;> decide)
    simp [hdigits _ hc] at hseparator

end TableRules
