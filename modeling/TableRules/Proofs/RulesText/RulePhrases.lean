import TableRules.Proofs.RulesText.Arguments
import TableRules.Proofs.RulesText.Spelling
import TableRules.Proofs.Ruleset.Declarations
import TableRules.RulesText.Reader

/-!
# The phrases of rules

`IsPhrase` is the grammar of rules: which sequences of tokens state a constraint under given
settings and a given catalog of date formats.

* A line that is read as a rule states its constraint (`isPhrase_of_readConstraint`).
* A line that states a constraint is read as such (`IsPhrase.readConstraint_eq`), with one
  exception: a count of more than 4300 digits is a fault of its own.
* A line states at most one constraint (`IsPhrase.unique`), and none that states one is a statement
  (`IsPhrase.read?_eq_none`).

**Main result** (`readLine_phrases`): in an open block, a line becomes a rule for the column exactly
if it states a constraint that the block has room for. It has room for one value type
(`secondType_refused`).
-/

namespace TableRules

open Tokens Result

variable {s : Settings} {catalog : Catalog} {c : Constraint} {t : Token}
  {ts ws rest left : List Token} {words : List String}

/-! ### The grammar -/

/-- The words for each value type. -/
def typeWords : List (List String × ValueType) :=
  [(["integer"], .integer), (["floating", "point"], .floatingPoint), (["float"], .floatingPoint),
   (["scientific"], .scientific), (["complex"], .complex), (["boolean"], .boolean),
   (["date-time"], .dateTime), (["datetime"], .dateTime), (["string"], .string)]

/-- The words before a whole number. -/
def countForms : List (List String × (Nat → Constraint)) :=
  [(["has", "length"], .length .exactly), (["has", "min", "length"], .length .atLeast),
   (["has", "max", "length"], .length .atMost),
   (["has", "significant", "digits"], .digits .significant),
   (["has", "decimal", "places"], .digits .decimalPlaces)]

/-- The phrases that are words only. -/
def bareForms : List (List String × Constraint) :=
  [(["is", "required"], .required), (["is", "unique"], .unique), (["is", "null"], .null),
   (["is", "not", "null"], .notNull)]

/-- The words before a list. -/
def setForms : List (List String × Bool) := [(["is", "in"], true), (["is", "not", "in"], false)]

/-- The words before a string. -/
def textForms : List (List String × (Wording → Constraint)) :=
  [(["is"], .text true), (["is", "not"], .text false), (["starts", "with"], .part .starts),
   (["ends", "with"], .part .ends), (["includes"], .part .includes),
   (["excludes"], .part .excludes)]

/-- The words that may stand between those of a phrase and its argument. -/
def optionalWords : List (List String) := [[], ["pattern"]]

/-- The words before a pattern. -/
def patternForms : List (List String) := optionalWords.map ("matches" :: ·)

/-- Tokens that state a constraint. -/
inductive IsPhrase (s : Settings) (catalog : Catalog) : Constraint → List Token → Prop
  | hasType {words : List String} {type : ValueType} {ws ts : List Token}
      (hws : Keywords ["has", "value", "type"] ws) (h : (words, type) ∈ typeWords)
      (hts : Keywords words ts) : IsPhrase s catalog (.hasType type) (ws ++ ts)
  | hasFormat {ws : List Token} {t : Token} (hws : Keywords ["has", "format"] ws)
      (hkind : t.kind = .string) (hknown : t.value ∈ catalog.names) :
      IsPhrase s catalog (.hasFormat (.text t.value)) (ws ++ [t])
  | count {words : List String} {make : Nat → Constraint} {ws : List Token} {t : Token}
      {ds : List Char} (h : (words, make) ∈ countForms) (hws : Keywords words ws)
      (hkind : t.kind = .number) (hwhole : IsWhole s t.value ds) :
      IsPhrase s catalog (make (Text.digitsValue ds)) (ws ++ [t])
  | bare {words : List String} {c : Constraint} {ws : List Token} (h : (words, c) ∈ bareForms)
      (hws : Keywords words ws) : IsPhrase s catalog c ws
  | member {words : List String} {allowed : Bool} {items : List SetItem} {ws ts : List Token}
      (h : (words, allowed) ∈ setForms) (hws : Keywords words ws) (hlist : IsList s items ts) :
      IsPhrase s catalog (.member allowed items) (ws ++ ts)
  | text {words : List String} {make : Wording → Constraint} {ws : List Token} {t : Token}
      (h : (words, make) ∈ textForms) (hws : Keywords words ws) (hkind : t.kind = .string) :
      IsPhrase s catalog (make (.text t.value)) (ws ++ [t])
  | compare {op : Comparison} {x : Double} {ws : List Token} {o t : Token}
      (hws : Keywords ["is"] ws) (hop : o.kind = .operator) (hvalue : o.value = op.operator)
      (hkind : t.kind = .number) (hreal : parseReal? t.value s = some x) :
      IsPhrase s catalog (.compare op (.real x)) (ws ++ [o, t])
  | pattern {words : List String} {p : Pattern} {ws : List Token} {t : Token}
      (h : words ∈ patternForms) (hws : Keywords words ws) (hkind : t.kind = .pattern)
      (hcompile : Pattern.compile t.value = .ok p) : IsPhrase s catalog (.pattern p) (ws ++ [t])

/-- Where tokens state a count, it has at most 4300 digits. -/
def CountFits (s : Settings) (ts : List Token) : Prop :=
  ∀ form ∈ countForms, ∀ ws t ds, ts = ws ++ [t] → Keywords form.1 ws → IsWhole s t.value ds →
    ds.length ≤ digitLimit

/-! ### Arguments of single phrases -/

theorem readWords_eq_ok_iff : readWords ts = .ok words ↔ Keywords words ts := by
  induction ts generalizing words with
  | nil =>
    rw [readWords, Except.ok.injEq]
    exact ⟨fun h => h ▸ .nil, fun h => by cases h; rfl⟩
  | cons t ts ih =>
    rw [readWords]
    split_ifs with hkind
    · rw [map_eq_ok_iff]
      constructor
      · rintro ⟨words, hwords, rfl⟩
        exact .cons ⟨by simpa using hkind, rfl⟩ (ih.mp hwords)
      · intro h
        cases h with
        | cons hword hwords => exact ⟨_, ih.mpr hwords, by rw [hword.2]⟩
    · simp only [missing, refuse, reduceCtorEq, false_iff]
      intro h
      cases h with
      | cons hword => exact hkind (by simpa using hword.1)

/-- Texts without spaces are known from the text with spaces between them. -/
theorem Text.joinWith_injective {xs ys : List String} (hxs : ∀ x ∈ xs, ' ' ∉ x.toList)
    (hys : ∀ y ∈ ys, ' ' ∉ y.toList) (hx : xs ≠ []) (hy : ys ≠ [])
    (h : joinWith " " xs = joinWith " " ys) : xs = ys := by
  have hsplit : ∀ zs : List String, zs ≠ [] → (∀ z ∈ zs, ' ' ∉ z.toList) →
      (joinWith " " zs).toList.splitOn ' ' = zs.map String.toList := by
    intro zs hne hzs
    rw [toList_joinWith]
    exact List.splitOn_intercalate ' ' (by simpa using hzs) (by simpa using hne)
  have heq : xs.map String.toList = ys.map String.toList := by
    rw [← hsplit xs hx hxs, ← hsplit ys hy hys, h]
  exact (List.map_injective_iff.mpr fun a b => String.toList_inj.mp) heq

theorem ValueType.ofPhrase?_eq_some_iff {name : String} {type : ValueType} :
    ofPhrase? name = some type ↔
      ∃ words, (words, type) ∈ typeWords ∧ Text.joinWith " " words = name := by
  constructor
  · have hnames : ∀ type : ValueType,
        ∃ words, (words, type) ∈ typeWords ∧ Text.joinWith " " words = type.name := by
      intro type
      have hall : ∀ type ∈ all, ∃ form ∈ typeWords, form.2 = type ∧
          Text.joinWith " " form.1 = type.name := by decide
      obtain ⟨⟨words, _⟩, hmem, rfl, hname⟩ := hall type (by cases type <;> decide)
      exact ⟨words, hmem, hname⟩
    intro h
    unfold ofPhrase? at h
    split_ifs at h with hfloat hdate
    · obtain rfl := Option.some.inj h
      exact ⟨["float"], by decide, (beq_iff_eq.mp hfloat).symm⟩
    · obtain rfl := Option.some.inj h
      exact ⟨["datetime"], by decide, (beq_iff_eq.mp hdate).symm⟩
    · have hname := List.find?_some h
      rw [← beq_iff_eq.mp hname]
      exact hnames type
  · rintro ⟨words, hmem, rfl⟩
    have hall : ∀ form ∈ typeWords, ofPhrase? (Text.joinWith " " form.1) = some form.2 := by decide
    exact hall _ hmem

/-- The word tokens of a line hold no space. -/
def NoSpaces (ts : List Token) : Prop := ∀ t ∈ ts, t.kind = .word → ' ' ∉ t.value.toList

/-- A space in a text in lower case was there before. -/
private theorem space_mem_of_lowerAscii {value : String}
    (h : ' ' ∈ (Text.lowerAscii value).toList) : ' ' ∈ value.toList := by
  simp only [Text.lowerAscii, String.toList_ofList, List.mem_map] at h
  obtain ⟨a, ha, hlower⟩ := h
  by_cases hcapital : 0x41 ≤ a.toNat ∧ a.toNat ≤ 0x5A
  · have hall : ∀ n ≤ 0x5A, 0x41 ≤ n → Char.ofNat (n + 0x20) ≠ ' ' := by decide
    rw [Text.lowerAsciiChar, if_pos (by simpa using hcapital)] at hlower
    exact absurd hlower (hall _ hcapital.2 hcapital.1)
  · rw [Text.lowerAsciiChar, if_neg (by simpa using hcapital)] at hlower
    exact hlower ▸ ha

private theorem space_notMem_of_keywords (h : Keywords words ts) (hts : NoSpaces ts) :
    ∀ w ∈ words, ' ' ∉ w.toList := by
  induction h with
  | nil => simp
  | @cons w t words ts hw _ ih =>
    obtain ⟨ht, hts⟩ := List.forall_mem_cons.mp hts
    refine List.forall_mem_cons.mpr ⟨fun hspace => ?_, ih hts⟩
    exact ht hw.1 (space_mem_of_lowerAscii (hw.2 ▸ hspace))

/-- Words without spaces name a value type exactly if the table has them. -/
theorem ValueType.ofPhrase?_joinWith_iff {type : ValueType} (hwords : ∀ w ∈ words, ' ' ∉ w.toList) :
    ofPhrase? (Text.joinWith " " words) = some type ↔ (words, type) ∈ typeWords := by
  rw [ofPhrase?_eq_some_iff]
  refine ⟨?_, fun hmem => ⟨words, hmem, rfl⟩⟩
  rintro ⟨known, hmem, hjoin⟩
  have hall : ∀ form ∈ typeWords, form.1 ≠ [] ∧ Text.joinWith " " form.1 ≠ "" ∧
      ∀ w ∈ form.1, ' ' ∉ w.toList := by decide
  obtain ⟨hne, hjoined, hspaces⟩ := hall _ hmem
  have hne' : words ≠ [] := by
    rintro rfl
    exact hjoined hjoin
  obtain rfl := Text.joinWith_injective hspaces hwords hne hne' hjoin
  exact hmem

theorem readTypeName_eq_ok_iff :
    readTypeName ts = .ok (c, left) ↔ ∃ words type, Keywords words ts ∧
      ValueType.ofPhrase? (Text.joinWith " " words) = some type ∧ c = .hasType type ∧
        left = [] := by
  unfold readTypeName
  constructor
  · intro h
    obtain ⟨words, hwords, h⟩ := bind_eq_ok_iff.mp h
    dsimp only at h
    cases htype : ValueType.ofPhrase? (Text.joinWith " " words) with
    | none => simp [htype, refuse] at h
    | some type =>
      simp only [htype, Except.ok.injEq, Prod.mk.injEq] at h
      exact ⟨words, type, readWords_eq_ok_iff.mp hwords, htype, h.1.symm, h.2.symm⟩
  · rintro ⟨words, type, hwords, htype, rfl, rfl⟩
    exact bind_eq_ok_iff.mpr ⟨words, readWords_eq_ok_iff.mpr hwords, by simp only [htype]⟩

theorem readFormatName_eq_ok_iff :
    readFormatName catalog ts = .ok (c, left) ↔
      ∃ t, ts = t :: left ∧ t.kind = .string ∧ t.value ∈ catalog.names ∧
        c = .hasFormat (.text t.value) := by
  have hnames : ∀ name, catalog.contains name = true ↔ name ∈ catalog.names := by
    simp [Catalog.contains, Catalog.names]
  unfold readFormatName
  constructor
  · intro h
    obtain ⟨⟨value, rest⟩, hexpect, h⟩ := bind_eq_ok_iff.mp h
    obtain ⟨t, rfl, hkind, rfl⟩ := expect_eq_ok_iff.mp hexpect
    dsimp only at h
    split_ifs at h with hknown
    · obtain ⟨rfl, rfl⟩ := Prod.mk.inj (Except.ok.inj h)
      exact ⟨t, rfl, hkind, (hnames _).mp hknown, rfl⟩
    · simp [refuse] at h
  · rintro ⟨t, rfl, hkind, hknown, rfl⟩
    refine bind_eq_ok_iff.mpr ⟨(t.value, left), expect_eq_ok_iff.mpr ⟨t, rfl, hkind, rfl⟩, ?_⟩
    dsimp only
    rw [if_pos ((hnames _).mpr hknown)]

theorem readText_eq_ok_iff {make : Wording → Constraint} :
    readText make ts = .ok (c, left) ↔
      ∃ t, ts = t :: left ∧ t.kind = .string ∧ c = make (.text t.value) := by
  simp only [readText, map_eq_ok_iff, Prod.exists, Prod.mk.injEq, expect_eq_ok_iff]
  constructor
  · rintro ⟨value, _, ⟨t, rfl, hkind, rfl⟩, rfl, rfl⟩
    exact ⟨t, rfl, hkind, rfl⟩
  · rintro ⟨t, rfl, hkind, rfl⟩
    exact ⟨t.value, left, ⟨t, rfl, hkind, rfl⟩, rfl, rfl⟩

theorem Comparison.ofOperator?_eq_some_iff {op : Comparison} {text : String} :
    ofOperator? text = some op ↔ text = op.operator := by
  constructor
  · intro h
    rw [ofOperator?] at h
    have hop := List.find?_some h
    exact (beq_iff_eq.mp hop).symm
  · rintro rfl
    cases op <;> decide

/-- After `is` an operator and a number are read, or a string. -/
theorem readIs_eq_ok_iff :
    readIs s ts = .ok (c, left) ↔
      (∃ o t op x, ts = o :: t :: left ∧ o.kind = .operator ∧ o.value = op.operator ∧
        t.kind = .number ∧ parseReal? t.value s = some x ∧ c = .compare op (.real x)) ∨
      ∃ t, ts = t :: left ∧ t.kind = .string ∧ c = .text true (.text t.value) := by
  unfold readIs
  cases haccept : accept? .operator ts with
  | none =>
    simp only [map_eq_ok_iff, Prod.exists, Prod.mk.injEq, expect_eq_ok_iff]
    constructor
    · rintro ⟨value, _, ⟨t, rfl, hkind, rfl⟩, rfl, rfl⟩
      exact .inr ⟨t, rfl, hkind, rfl⟩
    · rintro (⟨o, t, op, x, rfl, hop, -⟩ | ⟨t, rfl, hkind, rfl⟩)
      · simp [accept?_cons hop] at haccept
      · exact ⟨t.value, left, ⟨t, rfl, hkind, rfl⟩, rfl, rfl⟩
  | some r =>
    obtain ⟨value, rest⟩ := r
    obtain ⟨o, rfl, hop, rfl⟩ := accept?_eq_some_iff.mp haccept
    dsimp only
    have hstring : ¬ ∃ t, o :: rest = t :: left ∧ t.kind = .string ∧
        c = .text true (.text t.value) := by
      rintro ⟨t, htext, hkind, -⟩
      obtain rfl := (List.cons.inj htext).1
      exact absurd (hop.symm.trans hkind) (by decide)
    rw [or_iff_left hstring]
    cases hof : Comparison.ofOperator? o.value with
    | none =>
      simp only [missing, refuse, reduceCtorEq, false_iff]
      rintro ⟨o', t, op, x, htext, -, hvalue, -⟩
      obtain rfl := (List.cons.inj htext).1
      simp [Comparison.ofOperator?_eq_some_iff.mpr hvalue] at hof
    | some op =>
      simp only [map_eq_ok_iff, Prod.exists, Prod.mk.injEq, readReal_eq_ok_iff]
      constructor
      · rintro ⟨x, _, ⟨t, rfl, hkind, hreal⟩, rfl, rfl⟩
        exact ⟨o, t, op, x, rfl, hop, Comparison.ofOperator?_eq_some_iff.mp hof, hkind, hreal, rfl⟩
      · rintro ⟨o', t, op', x, htext, -, hvalue, hkind, hreal, rfl⟩
        obtain ⟨rfl, rfl⟩ := List.cons.inj htext
        obtain rfl := Option.some.inj
          (hof.symm.trans (Comparison.ofOperator?_eq_some_iff.mpr hvalue))
        exact ⟨x, left, ⟨t, rfl, hkind, hreal⟩, rfl, rfl⟩

/-- What is left after the word `pattern`, if it stands in front of a pattern. -/
theorem dropOptional_iff :
    (dropWords? ["pattern"] ts).getD ts = t :: left ∧ t.kind = .pattern ↔
      ∃ words ms, words ∈ optionalWords ∧ Keywords words ms ∧ ts = ms ++ t :: left ∧
        t.kind = .pattern := by
  cases hdrop : dropWords? ["pattern"] ts with
  | none =>
    rw [Option.getD_none]
    constructor
    · rintro ⟨rfl, hkind⟩
      exact ⟨[], [], by decide, .nil, rfl, hkind⟩
    · rintro ⟨words, ms, hwords, hms, rfl, hkind⟩
      simp only [optionalWords, List.mem_cons, List.not_mem_nil, or_false] at hwords
      rcases hwords with rfl | rfl
      · cases hms
        exact ⟨rfl, hkind⟩
      · simp [dropWords?_eq_some_iff.mpr ⟨ms, hms, rfl⟩] at hdrop
  | some rest =>
    rw [Option.getD_some]
    obtain ⟨ms, hms, rfl⟩ := dropWords?_eq_some_iff.mp hdrop
    constructor
    · rintro ⟨rfl, hkind⟩
      exact ⟨["pattern"], ms, by decide, hms, rfl, hkind⟩
    · rintro ⟨words, ms', hwords, hms', htext, hkind⟩
      simp only [optionalWords, List.mem_cons, List.not_mem_nil, or_false] at hwords
      rcases hwords with rfl | rfl
      · cases hms'
        cases hms with
        | cons hword _ =>
          obtain rfl := (List.cons.inj htext).1
          exact absurd (hword.1.symm.trans hkind) (by decide)
      · obtain ⟨-, rfl⟩ := List.append_inj htext (hms.length_eq.symm.trans hms'.length_eq)
        exact ⟨rfl, hkind⟩

/-- The word `pattern` may stand before a pattern. -/
theorem readPattern_eq_ok_iff :
    readPattern ts = .ok (c, left) ↔
      ∃ words ms t p, words ∈ optionalWords ∧ Keywords words ms ∧ ts = ms ++ t :: left ∧
        t.kind = .pattern ∧ Pattern.compile t.value = .ok p ∧ c = .pattern p := by
  unfold readPattern
  constructor
  · intro h
    obtain ⟨⟨value, rest⟩, hexpect, h⟩ := bind_eq_ok_iff.mp h
    obtain ⟨t, htext, hkind, rfl⟩ := expect_eq_ok_iff.mp hexpect
    dsimp only at h
    split at h
    · rename_i p hcompile
      obtain ⟨rfl, rfl⟩ := Prod.mk.inj (Except.ok.inj h)
      obtain ⟨words, ms, hwords, hms, rfl, -⟩ := dropOptional_iff.mp ⟨htext, hkind⟩
      exact ⟨words, ms, t, p, hwords, hms, rfl, hkind, hcompile, rfl⟩
    · simp [refuse] at h
    · simp at h
  · rintro ⟨words, ms, t, p, hwords, hms, htext, hkind, hcompile, rfl⟩
    have hdrop := (dropOptional_iff.mpr ⟨words, ms, hwords, hms, htext, hkind⟩).1
    refine bind_eq_ok_iff.mpr
      ⟨(t.value, left), expect_eq_ok_iff.mpr ⟨t, hdrop, hkind, rfl⟩, ?_⟩
    simp only [hcompile]

/-! ### The table of phrases -/

variable {p : Phrase Constraint}

/-- The members of the table of phrases, grouped by the arguments they take. -/
inductive RuleEntry (s : Settings) (catalog : Catalog) : Phrase Constraint → Prop
  | type : RuleEntry s catalog ⟨["has", "value", "type"], readTypeName⟩
  | format : RuleEntry s catalog ⟨["has", "format"], readFormatName catalog⟩
  | count {words : List String} {make : Nat → Constraint} (h : (words, make) ∈ countForms) :
      RuleEntry s catalog (countPhrase s words make)
  | bare {words : List String} {c : Constraint} (h : (words, c) ∈ bareForms) :
      RuleEntry s catalog (.bare words c)
  | set {words : List String} {allowed : Bool} (h : (words, allowed) ∈ setForms) :
      RuleEntry s catalog (setPhrase s words allowed)
  | text {words : List String} {make : Wording → Constraint} (h : (words, make) ∈ textForms)
      (hne : words ≠ ["is"]) : RuleEntry s catalog ⟨words, readText make⟩
  | is : RuleEntry s catalog ⟨["is"], readIs s⟩
  | pattern : RuleEntry s catalog ⟨["matches"], readPattern⟩

theorem mem_rulePhrases_iff : p ∈ rulePhrases s catalog ↔ RuleEntry s catalog p := by
  constructor
  · have hall : ∀ p ∈ rulePhrases s catalog, RuleEntry s catalog p := by
      simp only [rulePhrases, List.forall_mem_cons, List.not_mem_nil, false_imp_iff, implies_true,
        and_true]
      refine ⟨.type, .format, .count ?_, .count ?_, .count ?_, .count ?_, .count ?_, .bare ?_,
        .bare ?_, .bare ?_, .bare ?_, .set ?_, .set ?_, .text ?_ ?_, .is, .pattern, .text ?_ ?_,
        .text ?_ ?_, .text ?_ ?_, .text ?_ ?_⟩
      all_goals simp [countForms, bareForms, setForms, textForms]
    exact hall p
  · intro h
    cases h with
    | type => simp [rulePhrases]
    | format => simp [rulePhrases]
    | count h =>
      have hall : ∀ form ∈ countForms, countPhrase s form.1 form.2 ∈ rulePhrases s catalog := by
        simp [countForms, rulePhrases]
      exact hall _ h
    | bare h =>
      have hall : ∀ form ∈ bareForms, .bare form.1 form.2 ∈ rulePhrases s catalog := by
        simp [bareForms, rulePhrases]
      exact hall _ h
    | set h =>
      have hall : ∀ form ∈ setForms, setPhrase s form.1 form.2 ∈ rulePhrases s catalog := by
        simp [setForms, rulePhrases]
      exact hall _ h
    | text h hne =>
      have hall : ∀ form ∈ textForms, form.1 ≠ ["is"] →
          ⟨form.1, readText form.2⟩ ∈ rulePhrases s catalog := by
        simp [textForms, rulePhrases]
      exact hall _ h hne
    | is => simp [rulePhrases]
    | pattern => simp [rulePhrases]

/-- No phrase has words that start those of a later one, with or without optional words. -/
private theorem pairwise_rulePhrases {more : List String} (hmore : more ∈ optionalWords) :
    (rulePhrases s catalog).Pairwise fun p q => ¬ p.words <+: q.words ++ more := by
  have hall : ∀ more ∈ optionalWords, ((rulePhrases s catalog).map Phrase.words).Pairwise
      fun ws vs => ¬ ws <+: vs ++ more := by
    simp only [rulePhrases, countPhrase, setPhrase, Phrase.bare, List.map_cons, List.map_nil]
    decide +kernel
  exact List.pairwise_map.mp (hall more hmore)

/-- The words of a phrase and its arguments are read as the phrase. -/
theorem readConstraint_append {more : List String} {ms : List Token}
    (hp : p ∈ rulePhrases s catalog) (hws : Keywords p.words ws) (hmore : more ∈ optionalWords)
    (hms : Keywords more ms) (hrest : ∀ t ∈ rest.head?, t.kind ≠ .word) :
    readConstraint s catalog (ws ++ (ms ++ rest))
      = (p.arguments (ms ++ rest)).bind fun (c, left) => (expectEnd left).map fun _ => c := by
  rw [readConstraint, Phrase.readFirst?_eq (pairwise_rulePhrases hmore) hp hws hms hrest]
  cases p.arguments (ms ++ rest) <;> rfl

private theorem readConstraint_eq_ok {more : List String} {ms : List Token}
    (hp : p ∈ rulePhrases s catalog) (hws : Keywords p.words ws) (hmore : more ∈ optionalWords)
    (hms : Keywords more ms) (hrest : ∀ t ∈ rest.head?, t.kind ≠ .word)
    (h : p.arguments (ms ++ rest) = .ok (c, [])) :
    readConstraint s catalog (ws ++ (ms ++ rest)) = .ok c := by
  rw [readConstraint_append hp hws hmore hms hrest, h]
  rfl

/-- What is read as a constraint is a phrase of the table with its arguments, and nothing is left
over. -/
private theorem exists_of_readConstraint (h : readConstraint s catalog ts = .ok c) :
    ∃ p ∈ rulePhrases s catalog, ∃ ws rest, Keywords p.words ws ∧ ts = ws ++ rest ∧
      p.arguments rest = .ok (c, []) := by
  unfold readConstraint at h
  split at h
  · simp [refuse] at h
  · simp at h
  · rename_i c' left hread
    obtain ⟨p, hp, ws, rest, hws, rfl, hrest⟩ := Phrase.exists_of_readFirst? hread
    obtain ⟨u, hend, rfl⟩ := map_eq_ok_iff.mp h
    obtain rfl := expectEnd_eq_ok_iff.mp hend
    exact ⟨p, hp, ws, rest, hws, rfl, hrest.symm⟩

/-- **What is read as a constraint states it.** -/
theorem isPhrase_of_readConstraint (hts : NoSpaces ts) (h : readConstraint s catalog ts = .ok c) :
    IsPhrase s catalog c ts := by
  obtain ⟨p, hp, ws, rest, hws, rfl, hrest⟩ := exists_of_readConstraint h
  cases mem_rulePhrases_iff.mp hp with
  | type =>
    have hrest' : NoSpaces rest := fun t ht => hts t (List.mem_append_right ws ht)
    obtain ⟨words, type, hwords, htype, rfl, -⟩ := readTypeName_eq_ok_iff.mp hrest
    have hspaces := space_notMem_of_keywords hwords hrest'
    exact .hasType hws ((ValueType.ofPhrase?_joinWith_iff hspaces).mp htype) hwords
  | format =>
    obtain ⟨t, rfl, hkind, hknown, rfl⟩ := readFormatName_eq_ok_iff.mp hrest
    exact .hasFormat hws hkind hknown
  | count hform =>
    obtain ⟨⟨n, left⟩, hcount, heq⟩ := map_eq_ok_iff.mp hrest
    obtain ⟨rfl, rfl⟩ := Prod.mk.inj heq
    obtain ⟨t, ds, rfl, hkind, hwhole, -, rfl⟩ := readCount_eq_ok_iff.mp hcount
    exact .count hform hws hkind hwhole
  | bare hform =>
    obtain ⟨rfl, rfl⟩ := Prod.mk.inj (Except.ok.inj hrest)
    rw [List.append_nil]
    exact .bare hform hws
  | set hform =>
    obtain ⟨⟨items, left⟩, hlist, heq⟩ := map_eq_ok_iff.mp hrest
    obtain ⟨rfl, rfl⟩ := Prod.mk.inj heq
    obtain ⟨list, rfl, hitems⟩ := readList_eq_ok_iff.mp hlist
    rw [List.append_nil]
    exact .member hform hws hitems
  | text hform =>
    obtain ⟨t, rfl, hkind, rfl⟩ := readText_eq_ok_iff.mp hrest
    exact .text hform hws hkind
  | is =>
    rcases readIs_eq_ok_iff.mp hrest with ⟨o, t, op, x, rfl, hop, hvalue, hkind, hreal, rfl⟩ |
      ⟨t, rfl, hkind, rfl⟩
    · exact .compare hws hop hvalue hkind hreal
    · have hform : (["is"], Constraint.text true) ∈ textForms := by simp [textForms]
      exact .text hform hws hkind
  | pattern =>
    obtain ⟨words, ms, t, p, hwords, hms, rfl, hkind, hcompile, rfl⟩ :=
      readPattern_eq_ok_iff.mp hrest
    rw [← List.append_assoc]
    exact .pattern (List.mem_map_of_mem hwords) (List.rel_append hws hms) hkind hcompile

/-- What is made of words before a whole number, and the number. -/
theorem readConstraint_count {words : List String} {make : Nat → Constraint}
    {ds : List Char} (hform : (words, make) ∈ countForms) (hws : Keywords words ws)
    (hkind : t.kind = .number) (hwhole : IsWhole s t.value ds) :
    readConstraint s catalog (ws ++ [t])
      = if digitLimit < ds.length then .error .tooManyDigits
        else .ok (make (Text.digitsValue ds)) := by
  have hp : countPhrase s words make ∈ rulePhrases s catalog :=
    mem_rulePhrases_iff.mpr (.count hform)
  have hrest : ∀ t' ∈ [t].head?, t'.kind ≠ .word := by simp [hkind]
  have happend := readConstraint_append hp hws (by decide) (.nil : Keywords [] []) hrest
  rw [List.nil_append] at happend
  rw [happend, countPhrase]
  dsimp only
  split_ifs with hlimit
  · rw [readCount_of_tooManyDigits hkind hwhole hlimit]
    rfl
  · rw [readCount_eq_ok_iff.mpr ⟨t, ds, rfl, hkind, hwhole, Nat.le_of_not_lt hlimit, rfl⟩]
    rfl

/-- What follows the words of a phrase is read if it starts with another token than a word. -/
private theorem readConstraint_cons {kind : TokenKind} (hp : p ∈ rulePhrases s catalog)
    (hws : Keywords p.words ws) (hkind : t.kind = kind) (hne : kind ≠ .word)
    (h : p.arguments (t :: rest) = .ok (c, [])) :
    readConstraint s catalog (ws ++ t :: rest) = .ok c := by
  have hrest : ∀ t' ∈ (t :: rest).head?, t'.kind ≠ .word := by
    rintro t' ⟨⟩
    exact hkind ▸ hne
  exact readConstraint_eq_ok hp hws (by decide) (.nil : Keywords [] []) hrest h

/-- The words of a form for patterns are the one that all start with and an optional one. -/
theorem exists_optionalWords (hform : words ∈ patternForms) (hws : Keywords words ws) :
    ∃ first more ms, Keywords ["matches"] first ∧ more ∈ optionalWords ∧ Keywords more ms ∧
      words = "matches" :: more ∧ ws = first ++ ms := by
  obtain ⟨more, hmore, rfl⟩ := List.mem_map.mp hform
  cases hws with
  | @cons _ t _ ms hword hms => exact ⟨[t], more, ms, .cons hword .nil, hmore, hms, rfl, rfl⟩

/-- **Tokens that state a constraint are read as it**, unless they are a count of too many
digits. -/
theorem IsPhrase.readConstraint_eq (h : IsPhrase s catalog c ts) :
    readConstraint s catalog ts = .ok c ∨
      ∃ words make ws t ds, (words, make) ∈ countForms ∧ Keywords words ws ∧ t.kind = .number ∧
        IsWhole s t.value ds ∧ digitLimit < ds.length ∧ ts = ws ++ [t] ∧
        c = make (Text.digitsValue ds) := by
  cases h with
  | @hasType words type ws ts hws htype hts =>
    refine .inl ?_
    have htypeName : readTypeName ts = .ok (.hasType type, []) :=
      readTypeName_eq_ok_iff.mpr ⟨words, type, hts,
        ValueType.ofPhrase?_eq_some_iff.mpr ⟨words, htype, rfl⟩, rfl, rfl⟩
    rw [readConstraint, rulePhrases, Phrase.readFirst?_cons hws]
    simp only [htypeName]
    rfl
  | @hasFormat ws t hws hkind hknown =>
    exact .inl (readConstraint_cons (mem_rulePhrases_iff.mpr .format) hws hkind (by decide)
      (readFormatName_eq_ok_iff.mpr ⟨t, rfl, hkind, hknown, rfl⟩))
  | @count words make ws t ds hform hws hkind hwhole =>
    have hread : readConstraint s catalog (ws ++ [t]) = _ :=
      readConstraint_count hform hws hkind hwhole
    split_ifs at hread with hlimit
    · exact .inr ⟨words, make, ws, t, ds, hform, hws, hkind, hwhole, hlimit, rfl, rfl⟩
    · exact .inl hread
  | @bare words _ _ hform hws =>
    have hp : .bare words c ∈ rulePhrases s catalog := mem_rulePhrases_iff.mpr (.bare hform)
    have hend : ∀ t ∈ ([] : List Token).head?, t.kind ≠ .word := by simp
    have hread := readConstraint_eq_ok hp hws (by decide) (.nil : Keywords [] []) hend rfl
    rw [List.append_nil, List.append_nil] at hread
    exact .inl hread
  | @member words allowed items ws ts hform hws hlist =>
    have hp : setPhrase s words allowed ∈ rulePhrases s catalog :=
      mem_rulePhrases_iff.mpr (.set hform)
    have harguments : (setPhrase s words allowed).arguments ts = .ok (.member allowed items, []) :=
      map_eq_ok_iff.mpr
        ⟨(items, []), readList_eq_ok_iff.mpr ⟨ts, by rw [List.append_nil], hlist⟩, rfl⟩
    cases hlist with
    | empty hopen => exact .inl (readConstraint_cons hp hws hopen (by decide) harguments)
    | items hopen => exact .inl (readConstraint_cons hp hws hopen (by decide) harguments)
  | @text words make ws t hform hws hkind =>
    refine .inl ?_
    by_cases his : words = ["is"]
    · subst his
      have hmake : make = .text true := by
        have hall : ∀ form ∈ textForms, form.1 = ["is"] → form.2 = .text true := by
          simp [textForms]
        exact hall _ hform rfl
      subst hmake
      exact readConstraint_cons (mem_rulePhrases_iff.mpr .is) hws hkind (by decide)
        (readIs_eq_ok_iff.mpr (.inr ⟨t, rfl, hkind, rfl⟩))
    · exact readConstraint_cons (mem_rulePhrases_iff.mpr (.text hform his)) hws hkind (by decide)
        (readText_eq_ok_iff.mpr ⟨t, rfl, hkind, rfl⟩)
  | @compare op x ws o t hws hop hvalue hkind hreal =>
    exact .inl (readConstraint_cons (mem_rulePhrases_iff.mpr .is) hws hop (by decide)
      (readIs_eq_ok_iff.mpr (.inl ⟨o, t, op, x, rfl, hop, hvalue, hkind, hreal, rfl⟩)))
  | @pattern words p ws t hform hws hkind hcompile =>
    obtain ⟨first, more, ms, hfirst, hmore, hms, rfl, rfl⟩ := exists_optionalWords hform hws
    have hrest : ∀ t' ∈ [t].head?, t'.kind ≠ .word := by simp [hkind]
    rw [List.append_assoc]
    exact .inl (readConstraint_eq_ok (mem_rulePhrases_iff.mpr .pattern) hfirst hmore hms hrest
      (readPattern_eq_ok_iff.mpr ⟨more, ms, t, p, hmore, hms, rfl, hkind, hcompile, rfl⟩))

/-- Whether a constraint is on a count. -/
def Constraint.hasCount : Constraint → Bool
  | .length _ _ => true
  | .digits _ _ => true
  | _ => false

/-- Tokens that state a constraint without a count are read as it. -/
theorem IsPhrase.readConstraint_eq_ok (h : IsPhrase s catalog c ts) (hc : c.hasCount = false) :
    readConstraint s catalog ts = .ok c := by
  have hcounts : ∀ form ∈ countForms, ∀ n, (form.2 n).hasCount = true := by
    simp [countForms, Constraint.hasCount]
  rcases h.readConstraint_eq with hread | ⟨words, make, ws, t, ds, hform, -, -, -, -, -, rfl⟩
  · exact hread
  · simp [hcounts _ hform] at hc

/-- Words are known from the tokens that are them. -/
theorem Keywords.unique {words' : List String} (h : Keywords words ts) (h' : Keywords words' ts) :
    words' = words := by
  induction h generalizing words' with
  | nil => cases h'; rfl
  | cons hword _ ih =>
    cases h' with
    | cons hword' hwords' => rw [ih hwords', ← hword.2, ← hword'.2]

/-- **Tokens state at most one constraint.** -/
theorem IsPhrase.unique {c' : Constraint} (h : IsPhrase s catalog c ts)
    (h' : IsPhrase s catalog c' ts) : c' = c := by
  have hforms : ∀ form ∈ countForms, ∀ form' ∈ countForms, form'.1 = form.1 → form' = form := by
    simp [countForms]
  -- tokens that are not read are a count, and then the words before the number tell the form
  rcases h.readConstraint_eq with hread | ⟨words, make, ws, t, ds, hform, hws, hkind, hwhole,
    hlimit, rfl, rfl⟩
  · rcases h'.readConstraint_eq with hread' | ⟨words, make, ws, t, ds, hform, hws, hkind, hwhole,
      hlimit, rfl, rfl⟩
    · exact Except.ok.inj (hread'.symm.trans hread)
    · rw [readConstraint_count hform hws hkind hwhole, if_pos hlimit] at hread
      simp at hread
  · rcases h'.readConstraint_eq with hread' | ⟨words', make', ws', t', ds', hform', hws', -,
      hwhole', -, heq, rfl⟩
    · rw [readConstraint_count hform hws hkind hwhole, if_pos hlimit] at hread'
      simp at hread'
    · obtain ⟨rfl, htail⟩ := List.append_inj' heq rfl
      obtain rfl := List.head_eq_of_cons_eq htail
      obtain ⟨-, rfl⟩ := Prod.mk.inj (hforms _ hform _ hform' (hws.unique hws'))
      rw [hwhole.unique hwhole']

/-! ### Statements -/

/-- The words that a phrase of a rule starts with. -/
def ruleHeads : List String := ["has", "is", "matches", "starts", "ends", "includes", "excludes"]

theorem Keywords.exists_head {w : String} (h : Keywords (w :: words) ws) :
    ∃ t ts, ws = t :: ts ∧ IsKeyword w t := by
  cases h with
  | cons hword _ => exact ⟨_, _, rfl, hword⟩

/-- Tokens that state a constraint start with one of seven words. -/
theorem IsPhrase.exists_head (h : IsPhrase s catalog c ts) :
    ∃ t ts', ts = t :: ts' ∧ ∃ w ∈ ruleHeads, IsKeyword w t := by
  obtain ⟨words, ws, rest, rfl, hws, w, hw, hhead⟩ : ∃ words ws rest, ts = ws ++ rest ∧
      Keywords words ws ∧ ∃ w ∈ ruleHeads, words.head? = some w := by
    cases h with
    | hasType hws => exact ⟨_, _, _, rfl, hws, "has", by decide, rfl⟩
    | hasFormat hws => exact ⟨_, _, _, rfl, hws, "has", by decide, rfl⟩
    | count hform hws =>
      have hall : ∀ form ∈ countForms, ∃ w ∈ ruleHeads, form.1.head? = some w := by decide
      exact ⟨_, _, _, rfl, hws, hall _ hform⟩
    | bare hform hws =>
      have hall : ∀ form ∈ bareForms, ∃ w ∈ ruleHeads, form.1.head? = some w := by decide
      exact ⟨_, _, [], (List.append_nil _).symm, hws, hall _ hform⟩
    | member hform hws =>
      have hall : ∀ form ∈ setForms, ∃ w ∈ ruleHeads, form.1.head? = some w := by decide
      exact ⟨_, _, _, rfl, hws, hall _ hform⟩
    | text hform hws =>
      have hall : ∀ form ∈ textForms, ∃ w ∈ ruleHeads, form.1.head? = some w := by decide
      exact ⟨_, _, _, rfl, hws, hall _ hform⟩
    | compare hws => exact ⟨_, _, _, rfl, hws, "is", by decide, rfl⟩
    | pattern hform hws =>
      have hall : ∀ words ∈ patternForms, ∃ w ∈ ruleHeads, words.head? = some w := by decide
      exact ⟨_, _, _, rfl, hws, hall _ hform⟩
  obtain ⟨words, rfl⟩ := List.head?_eq_some_iff.mp hhead
  obtain ⟨t, ws, rfl, hword⟩ := hws.exists_head
  exact ⟨t, ws ++ rest, rfl, w, hw, hword⟩

/-- **No statement starts like a rule.** -/
theorem read?_eq_none_of_head {w : String} (hw : w ∈ ruleHeads) (hword : IsKeyword w t) :
    Statement.read? s (t :: ts) = none := by
  have hdrop : ∀ w' words, w' ∉ ruleHeads → dropWords? (w' :: words) (t :: ts) = none := by
    intro w' words hw'
    have hne : isWord t w' = false := Bool.eq_false_iff.mpr fun hword' => by
      obtain rfl : w = w' := hword.2.symm.trans (isWord_iff.mp hword').2
      exact hw' hw
    rw [dropWords?, hne, if_neg Bool.false_ne_true]
  have hhead : Statement.columnHead? (t :: ts) = none := by
    rw [Statement.columnHead?, hdrop "column" [] (by decide)]
    rfl
  have hphrases : ∀ p ∈ Statement.phrases s,
      ∃ w' words, p.words = w' :: words ∧ w' ∉ ruleHeads := by
    have hall : ∀ words ∈ (Statement.phrases s).map Phrase.words,
        ∃ w' ∈ words.head?, w' ∉ ruleHeads := by
      simp only [Statement.phrases, Phrase.bare, List.map_cons, List.map_nil]
      decide
    intro p hp
    obtain ⟨w', hw', hnot⟩ := hall p.words (List.mem_map_of_mem hp)
    obtain ⟨words, hwords⟩ := List.head?_eq_some_iff.mp hw'
    exact ⟨w', words, hwords, hnot⟩
  rw [Statement.read?, hhead]
  refine List.findSome?_eq_none_iff.mpr fun p hp => ?_
  obtain ⟨w', words, hwords, hnot⟩ := hphrases p hp
  rw [hwords, hdrop w' words hnot, Option.map_none]

/-- **No statement states a constraint.** -/
theorem IsPhrase.read?_eq_none (h : IsPhrase s catalog c ts) : Statement.read? s ts = none := by
  obtain ⟨t, ts, rfl, w, hw, hword⟩ := h.exists_head
  exact read?_eq_none_of_head hw hword

/-! ### Lines of a block -/

/-- The tokens of a line hold no space in their words. -/
theorem noSpaces_of_cut {line : Int} {before : List TokenKind} {column : Nat}
    {cs rest : List Char} (h : Cut line before column cs ts rest) : NoSpaces ts := by
  induction h with
  | stop => simp [NoSpaces]
  | @token before column kind blanks value lexeme cs rest ts hblanks hlexeme _ ih =>
    refine List.forall_mem_cons.mpr ⟨fun hkind => ?_, ih⟩
    obtain rfl : kind = .word := hkind
    have hmarks : ∀ m ∈ Lexeme.marks, m.2 ≠ .word := by decide
    rw [String.toList_ofList]
    have hw := hlexeme.written
    generalize hword : TokenKind.word = kind at hw
    cases hw with
    | punctuation hmark => exact absurd hword.symm (hmarks _ hmark)
    | word hw =>
      obtain ⟨hc, hcs⟩ := hw
      intro hmem
      rcases List.mem_cons.mp hmem with rfl | hmem
      · exact absurd hc (by decide)
      · exact absurd (hcs _ hmem) (by decide)
    | _ => simp at hword

/-- Where no precision is declared, the standard one is in force. -/
theorem Draft.settings_eq_ok {d : Draft} (h : d.precision = none) :
    d.settings = .ok ⟨d.nullValues.getD [], d.separator.join, Settings.defaultPrecision,
      Settings.defaultPrecision_pos⟩ := by
  refine Draft.settings_eq_ok_iff.mpr ⟨rfl, rfl, ?_⟩
  rw [Draft.precisionValue?, h]

namespace RulesReader

variable {r r' : RulesReader} {column : String} {line : TokenLine} {rule : Rule}

/-- The reader with one more rule for a column. -/
def withRule (r : RulesReader) (column : String) (rule : Rule) : RulesReader :=
  { r with draft := { r.draft with blocks := Draft.appendRule column rule r.draft.blocks } }

/-- Whether the block for a column has room for a constraint: it declares no second value type. -/
def HasRoom (r : RulesReader) (column : String) (c : Constraint) : Prop :=
  c.declaredType?.isSome → ∀ rule ∈ (r.draft.rules? column).getD [], rule.declaresType = false

theorem declare_eq_ok_iff {d : Except DraftFault Draft} {draft : Draft} :
    declare d = .ok draft ↔ d = .ok draft := by
  cases d <;> simp [declare, refuse]

/-- A draft takes a rule for a column exactly if the block has room for it. -/
theorem addRule_eq_ok_iff {d : Draft} {n : Option Int} :
    r.draft.addRule column ⟨c, n⟩ = .ok d ↔
      r.HasRoom column c ∧ d = (r.withRule column ⟨c, n⟩).draft :=
  Draft.addRule_eq_ok_iff

/-- In an open block, a line that is no statement becomes a rule exactly if it is read as a
constraint that the block has room for. -/
theorem readBlockRule_eq_ok_iff (hplace : r.place = .inBlock column) :
    r.readBlockRule catalog s line = .ok r' ↔
      ∃ c, readConstraint s catalog line.tokens = .ok c ∧ r.HasRoom column c ∧
        r' = r.withRule column ⟨c, some line.number⟩ := by
  have hwith : ∀ rule, (⟨(r.withRule column rule).draft, .inBlock column⟩ : RulesReader)
      = r.withRule column rule := fun rule => by rw [← hplace]; rfl
  rw [readBlockRule, hplace]
  simp only [bind_eq_ok_iff, readRule, map_eq_ok_iff, declare_eq_ok_iff, pure, Except.pure,
    Except.ok.injEq]
  constructor
  · rintro ⟨_, ⟨c, hc, rfl⟩, d, hd, rfl⟩
    obtain ⟨hroom, rfl⟩ := addRule_eq_ok_iff.mp hd
    exact ⟨c, hc, hroom, hwith _⟩
  · rintro ⟨c, hc, hroom, rfl⟩
    exact ⟨_, ⟨c, hc, rfl⟩, _, addRule_eq_ok_iff.mpr ⟨hroom, rfl⟩, hwith _⟩

private theorem appendRule_injective {rule' : Rule} {blocks : List (String × List Rule)}
    (h : Draft.appendRule column rule blocks = Draft.appendRule column rule' blocks) :
    rule = rule' := by
  induction blocks with
  | nil => simpa [Draft.appendRule] using h
  | cons block blocks ih =>
    rw [Draft.appendRule, Draft.appendRule] at h
    split_ifs at h
    · simpa using h
    · exact ih (List.cons.inj h).2

/-- A statement does not have the effect of a rule: it ends the block, or opens an empty one. -/
theorem perform_ne_withRule {n : Int} {statement : Statement}
    (hplace : r.place = .inBlock column)
    (h : r.perform n statement rest = .ok r') : r' ≠ r.withRule column rule := by
  rintro rfl
  -- a declaration leaves the block, while a rule stays in it
  have hdeclare : ∀ d, r.declareAll d rest ≠ .ok (r.withRule column rule) := by
    intro d h
    obtain ⟨draft, -, h⟩ := bind_eq_ok_iff.mp h
    obtain ⟨-, -, h⟩ := bind_eq_ok_iff.mp h
    have hplace' := congrArg RulesReader.place (Except.ok.inj h)
    rw [withRule, hplace] at hplace'
    simp at hplace'
  cases statement with
  | openBlock name =>
    rw [perform, openBlock] at h
    split_ifs at h
    · obtain ⟨draft, hdraft, h⟩ := bind_eq_ok_iff.mp h
      obtain ⟨-, rfl⟩ := Draft.beginColumn_eq_ok_iff.mp (declare_eq_ok_iff.mp hdraft)
      have hblocks := congrArg (fun r : RulesReader => (r.draft.blocks.flatMap Prod.snd).length)
        (Except.ok.inj h)
      simp [withRule,
        (Draft.flatMap_appendRule_perm column rule r.draft.blocks).length_eq] at hblocks
    · rw [hplace] at h
      simp [refuse] at h
  | openConditional name =>
    obtain ⟨-, -, h⟩ := bind_eq_ok_iff.mp h
    split_ifs at h
    · simp [refuse] at h
    · have hplace' := congrArg RulesReader.place (Except.ok.inj h)
      rw [withRule, hplace] at hplace'
      simp at hplace'
  | _ => exact hdeclare _ h

/-- In an open block, a line that is read as a constraint becomes a rule, if the block has room for
it. -/
theorem readLine_eq_ok (hplace : r.place = .inBlock column) (hsettings : r.settings = .ok s)
    (hspaces : NoSpaces line.tokens) (h : readConstraint s catalog line.tokens = .ok c)
    (hroom : r.HasRoom column c) :
    readLine catalog r line = .ok (r.withRule column ⟨c, some line.number⟩) := by
  have hstatement := (isPhrase_of_readConstraint hspaces h).read?_eq_none
  have hplain : r.readPlainLine catalog line
      = .ok (r.withRule column ⟨c, some line.number⟩) := by
    rw [readPlainLine, hsettings]
    simp only [bind, Except.bind, hstatement]
    exact (readBlockRule_eq_ok_iff hplace).mpr ⟨c, h, hroom, rfl⟩
  rw [readLine, hplace]
  exact mapError_eq_ok_iff.mpr hplain

/-- **In an open block**, a line becomes a rule for the column only if it states a constraint that
the block has room for, and it does if it also has no count of more than 4300 digits. A line states
at most one constraint, and no statement states one. -/
theorem readLine_phrases (catalog : Catalog) (r : RulesReader) (column : String) (s : Settings)
    (line : TokenLine) (hplace : r.place = .inBlock column) (hsettings : r.settings = .ok s)
    (hscan : scanTokens line.number line.text = .ok line.tokens) :
    (∀ c, readLine catalog r line = .ok (r.withRule column ⟨c, some line.number⟩) →
      IsPhrase s catalog c line.tokens ∧ r.HasRoom column c) ∧
    (∀ c, IsPhrase s catalog c line.tokens → r.HasRoom column c → CountFits s line.tokens →
      readLine catalog r line = .ok (r.withRule column ⟨c, some line.number⟩)) ∧
    (∀ c c', IsPhrase s catalog c line.tokens → IsPhrase s catalog c' line.tokens → c' = c) ∧
    ∀ c, IsPhrase s catalog c line.tokens → Statement.read? s line.tokens = none := by
  have hspaces : NoSpaces line.tokens := noSpaces_of_cut (scanTokens_eq_ok_iff.mp hscan)
  refine ⟨fun c h => ?_, fun c hc hroom hfits => ?_, fun c c' => IsPhrase.unique,
    fun c => IsPhrase.read?_eq_none⟩
  · rw [readLine, hplace] at h
    have hplain := mapError_eq_ok_iff.mp h
    rw [readPlainLine, hsettings] at hplain
    cases hstatement : Statement.read? s line.tokens with
    | none =>
      simp only [bind, Except.bind, hstatement] at hplain
      obtain ⟨c', hread, hroom, heq⟩ := (readBlockRule_eq_ok_iff hplace).mp hplain
      have hblocks := congrArg (fun r : RulesReader => r.draft.blocks) heq
      have hc : c = c' := congrArg Rule.constraint (appendRule_injective hblocks)
      exact hc ▸ ⟨isPhrase_of_readConstraint hspaces hread, hroom⟩
    | some scan =>
      cases scan with
      | error e => simp [bind, Except.bind, hstatement] at hplain
      | ok result =>
        simp only [bind, Except.bind, hstatement] at hplain
        exact absurd rfl (perform_ne_withRule hplace hplain)
  · refine readLine_eq_ok hplace hsettings hspaces ?_ hroom
    rcases hc.readConstraint_eq with hread | ⟨words, make, ws, t, ds, hform, hws, hkind, hwhole,
      hlimit, htokens, rfl⟩
    · exact hread
    · exact absurd (hfits _ hform ws t ds htokens hws hwhole) (Nat.not_le.mpr hlimit)

end RulesReader

/-! ### A count in groups of digits -/

/-- A column without rules, where numbers have commas between groups of digits. -/
def commaColumn : RulesReader :=
  ⟨{ Draft.empty with names := some ["c"], separator := some (some .comma), blocks := [("c", [])] },
    .inBlock "c"⟩

/-- The settings of that column. -/
def commaSettings : Settings :=
  ⟨[], some .comma, Settings.defaultPrecision, Settings.defaultPrecision_pos⟩

/-- A line that states a length. -/
def lengthLine : TokenLine :=
  ⟨4, "Has MIN length +1,000",
    [⟨.word, "Has", 4, 1⟩, ⟨.word, "MIN", 4, 5⟩, ⟨.word, "length", 4, 9⟩,
     ⟨.number, "+1,000", 4, 16⟩]⟩

theorem lengthLine_phrases :
    commaColumn.place = .inBlock "c" ∧ commaColumn.settings = .ok commaSettings ∧
      scanTokens 4 lengthLine.text = .ok lengthLine.tokens ∧
      IsPhrase commaSettings .standard (.length .atLeast 1000) lengthLine.tokens ∧
      commaColumn.HasRoom "c" (.length .atLeast 1000) ∧
      CountFits commaSettings lengthLine.tokens ∧
      RulesReader.readLine .standard commaColumn lengthLine
        = .ok (commaColumn.withRule "c" ⟨.length .atLeast 1000, some 4⟩) := by
  have hsettings : commaColumn.settings = .ok commaSettings := by
    rw [RulesReader.settings, Draft.settings_eq_ok rfl]
    rfl
  have hscan : scanTokens 4 lengthLine.text = .ok lengthLine.tokens := by decide +kernel
  have hungrouped : ungrouped commaSettings "+1,000" = "+1000".toList := by decide +kernel
  have hphrase : IsPhrase commaSettings .standard (.length .atLeast 1000) lengthLine.tokens := by
    refine @IsPhrase.count _ _ ["has", "min", "length"] (.length .atLeast)
      (lengthLine.tokens.take 3) ⟨.number, "+1,000", 4, 16⟩ "1000".toList (by simp [countForms])
      ?_ rfl ?_
    · simp [Keywords, IsKeyword, lengthLine]
      decide
    · exact ⟨['+'], .inr (.inl rfl), ⟨by decide, Text.forall_of_all (by decide)⟩, hungrouped,
        by decide⟩
  have hroom : commaColumn.HasRoom "c" (.length .atLeast 1000) := by
    simp [RulesReader.HasRoom, Constraint.declaredType?]
  have hfits : CountFits commaSettings lengthLine.tokens := by
    rintro form - ws t ds htokens - ⟨sign, -, -, hdigits, -⟩
    have hlast := congrArg List.getLast? htokens
    rw [List.getLast?_concat] at hlast
    obtain rfl := Option.some.inj hlast
    have hlen := congrArg List.length (hungrouped.symm.trans hdigits)
    rw [List.length_append] at hlen
    exact (Nat.le_of_add_left_le hlen.ge).trans (by decide)
  exact ⟨rfl, hsettings, hscan, hphrase, hroom, hfits,
    (RulesReader.readLine_phrases .standard commaColumn "c" commaSettings lengthLine rfl hsettings
      hscan).2.1 _ hphrase hroom hfits⟩

/-! ### A second value type -/

/-- A column that is declared to hold texts. -/
def textColumn : RulesReader :=
  ⟨{ Draft.empty with names := some ["c"], blocks := [("c", [⟨.hasType .string, some 3⟩])] },
    .inBlock "c"⟩

/-- A line that declares a value type. -/
def integerLine : TokenLine :=
  ⟨4, "has value type integer",
    [⟨.word, "has", 4, 1⟩, ⟨.word, "value", 4, 5⟩, ⟨.word, "type", 4, 11⟩,
     ⟨.word, "integer", 4, 16⟩]⟩

/-- **A second value type is refused**, although the line states one. -/
theorem secondType_refused :
    textColumn.place = .inBlock "c" ∧ textColumn.settings = .ok .standard ∧
      scanTokens 4 integerLine.text = .ok integerLine.tokens ∧
      IsPhrase .standard .standard (.hasType .integer) integerLine.tokens ∧
      RulesReader.readLine .standard textColumn integerLine
        = .error (.malformed (.refused (.secondType "c")) (some 4)
            (some "has value type integer")) := by
  have hwords : Keywords ["has", "value", "type"] (integerLine.tokens.take 3) := by
    simp [Keywords, IsKeyword, integerLine]
    decide
  have htype : Keywords ["integer"] (integerLine.tokens.drop 3) := by
    simp [Keywords, IsKeyword, integerLine]
    decide
  have hphrase : IsPhrase .standard .standard (.hasType .integer) integerLine.tokens :=
    .hasType hwords (by decide) htype
  have hsettings : textColumn.settings = .ok .standard := by
    rw [RulesReader.settings, Draft.settings_eq_ok rfl]
    rfl
  refine ⟨rfl, hsettings, by decide +kernel, hphrase, ?_⟩
  have hread : readConstraint .standard .standard integerLine.tokens = .ok (.hasType .integer) := by
    rcases hphrase.readConstraint_eq with hread |
      ⟨words, make, ws, t, ds, -, -, hkind, -, -, htokens, -⟩
    · exact hread
    · have hlast := congrArg List.getLast? htokens
      rw [List.getLast?_concat] at hlast
      obtain rfl := Option.some.inj hlast
      simp at hkind
  have hplain : textColumn.readPlainLine .standard integerLine
      = .error (.malformed (.refused (.secondType "c"))) := by
    rw [RulesReader.readPlainLine, hsettings]
    simp only [bind, Except.bind, hphrase.read?_eq_none]
    simp only [RulesReader.readBlockRule, textColumn, readRule, hread]
    rfl
  rw [RulesReader.readLine]
  simp only [textColumn] at hplain ⊢
  rw [hplain]
  rfl

end TableRules
