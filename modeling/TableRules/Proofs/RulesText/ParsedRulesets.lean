import TableRules.Evaluation.Engine
import TableRules.Proofs.RulesText.ReadRules
import TableRules.Proofs.RulesText.StatedRules
import TableRules.Proofs.RulesText.Units

/-!
# Parsed rulesets

A text is parsed exactly if its lines can be read, the last conditional rule among them is complete
and the columns are named (`Ruleset.parse_eq_ok_iff`); the checks of the finished parts refuse
nothing that has been read.

**Main result** (`Ruleset.parse_wellFormed`): a parsed ruleset is well formed
(`Ruleset.WellFormed`), it says what the units of its text declare (`Ruleset.Gathers`), its rules
carry the lines that they are written on (`Rule.IsWrittenIn`), and with the catalog of its text it
makes an engine that has a check for every rule.
-/

namespace TableRules

open Tokens Result

variable {s : Settings} {catalog : Option Catalog} {source : String} {ruleset : Ruleset}
  {rule : Rule} {lines : List TokenLine} {r r' : RulesReader} {line : TokenLine}

theorem Ruleset.formatName?_eq_some_iff {w : Wording} :
    formatName? rule = some w ↔ rule.constraint = .hasFormat w := by
  rw [formatName?]
  cases rule.constraint <;> simp

/-! ### When a text is parsed -/

namespace Draft

variable {d d' : Draft}

/-- No declaration changes the date formats. -/
theorem dateFormats_perform {st : Statement} (h : d.perform st = .ok d') :
    d'.dateFormats = d.dateFormats := by
  cases st with
  | columnNames =>
    obtain ⟨-, -, rfl⟩ := declareColumns_eq_ok_iff.mp h
    rfl
  | nullValues =>
    obtain ⟨-, rfl⟩ := declareNullValues_eq_ok_iff.mp h
    rfl
  | separator =>
    obtain ⟨-, -, -, rfl⟩ := declareSeparator_some_eq_ok_iff.mp h
    rfl
  | precision =>
    obtain ⟨-, -, rfl⟩ := declarePrecision_eq_ok_iff.mp h
    rfl
  | openBlock =>
    obtain ⟨-, rfl⟩ := beginColumn_eq_ok_iff.mp h
    rfl
  | openConditional =>
    obtain ⟨-, rfl⟩ := perform_openConditional_eq_ok_iff.mp h
    rfl
  | _ => exact Except.ok.inj h ▸ rfl

end Draft

namespace RulesReader

theorem Step.dateFormats_eq {catalog : Catalog} (h : Step catalog r line r') :
    r'.draft.dateFormats = r.draft.dateFormats := by
  cases h with
  | statement _ _ _ hd => exact Draft.dateFormats_perform hd
  | rule => rfl
  | word => rfl
  | antecedent => rfl
  | consequent _ _ _ _ _ hd =>
    obtain ⟨-, -, -, -, rfl⟩ := Draft.addConditional_eq_ok_iff.mp hd
    rfl

/-- What holds of a reader after lines of a text. -/
private theorem wellFormed_of_foldlM (hspaces : ∀ line ∈ lines, NoSpaces line.tokens)
    (hread : lines.foldlM (readLine (catalog.getD .standard)) (start catalog) = .ok r) :
    r.WellFormed ∧ r.draft.dateFormats = catalog.map Catalog.names := by
  refine foldlM_induction (motive := fun _ r => r.draft.dateFormats = catalog.map Catalog.names)
    hspaces (wellFormed_start catalog) hread rfl fun _ _ _ _ _ hformats hstep => ?_
  exact hstep.dateFormats_eq.trans hformats

/-- A reader finishes exactly if no conditional rule is incomplete and the columns are named. -/
theorem finish_eq_ok_iff (hspaces : ∀ line ∈ lines, NoSpaces line.tokens)
    (hread : lines.foldlM (readLine (catalog.getD .standard)) (start catalog) = .ok r) :
    r.finish = .ok ruleset ↔ (∀ p, r.place ≠ .inConditional p) ∧
      ∃ s names, r.draft.settings = .ok s ∧ r.draft.names = some names ∧
        r.draft.Finishes s names ruleset := by
  obtain ⟨hr, hdates⟩ := wellFormed_of_foldlM hspaces hread
  have hformats : ∀ known, r.draft.dateFormats = some known → ∀ rule ∈ r.draft.allRules, ∀ w,
      Ruleset.formatName? rule = some w → w.value ∈ known := by
    intro known hknown rule hrule w hw
    obtain ⟨c, rfl, rfl⟩ := Option.map_eq_some_iff.mp (hdates.symm.trans hknown)
    obtain ⟨line, -, s, ts, -, -, hphrase, -⟩ :=
      exists_isRule hspaces hread (List.mem_append_left _ hrule)
    exact hphrase.isStated.format w (Ruleset.formatName?_eq_some_iff.mp hw)
  have hbuild : r.draft.build = .ok ruleset ↔ ∃ s names, r.draft.settings = .ok s ∧
      r.draft.names = some names ∧ r.draft.Finishes s names ruleset := by
    refine ⟨hr.draft.finishes_of_build, ?_⟩
    rintro ⟨s, names, hs, hnames, hfinishes⟩
    exact hr.draft.build_eq_ok hs hnames hformats hfinishes
  rw [← hbuild, finish]
  cases r.place with
  | inConditional p => simp
  | _ => simp [mapError_eq_ok_iff]

end RulesReader

namespace Ruleset

/-- **A text is parsed** exactly if its lines can be read, no conditional rule is incomplete after
them and the columns are named. -/
theorem parse_eq_ok_iff (hlines : tokenLines source = .ok lines) :
    parse catalog source = .ok ruleset ↔
      ∃ r, lines.foldlM (RulesReader.readLine (catalog.getD .standard)) (.start catalog) = .ok r ∧
        (∀ p, r.place ≠ .inConditional p) ∧ ∃ s names, r.draft.settings = .ok s ∧
          r.draft.names = some names ∧ r.draft.Finishes s names ruleset := by
  have hspaces := RulesReader.noSpaces_of_tokenLines hlines
  rw [parse, bind_eq_ok_iff]
  simp only [hlines, Except.ok.injEq, exists_eq_left', bind_eq_ok_iff]
  exact exists_congr fun r => and_congr_right fun hread =>
    RulesReader.finish_eq_ok_iff hspaces hread

end Ruleset

/-! ### What a parsed ruleset satisfies -/

/-- A rule that can be used: it is made of its kind and its argument, the numbers that it compares
cells with are finite, its count is not negative and its date format is known. -/
structure Rule.IsUsable (catalog : Catalog) (rule : Rule) : Prop where
  made : Rule.make rule.kind rule.constraint.argument rule.line = .ok rule
  bounds : ∀ n ∈ rule.constraint.bounds, ∃ x, n = .real x ∧ x.isFinite = true
  count : ∀ n, rule.constraint.argument = .number (.integer n) → 0 ≤ n
  format : ∀ w, Ruleset.formatName? rule = some w → w.value ∈ catalog.names

/-- A rule is written in a source: on the line whose number it carries, as the tokens at the end of
this line. -/
def Rule.IsWrittenIn (source : String) (catalog : Catalog) (rule : Rule) : Prop :=
  ∃ (line : TokenLine) (s : Settings) (ts : List Token), line.IsLineOf source ∧
    rule.line = some line.number ∧ ts <:+ line.tokens ∧ IsRule s catalog rule.constraint ts

namespace Ruleset

/-- Blocks of different columns are found by their columns. -/
theorem block?_of_mem {b : Block} (hb : b ∈ ruleset.blocks) :
    ruleset.block? b.column = some b := by
  have h := ruleset.blocks_nodup
  rw [block?]
  generalize ruleset.blocks = blocks at h hb
  induction blocks with
  | nil => simp at hb
  | cons first blocks ih =>
    obtain ⟨hfirst, h⟩ := List.nodup_cons.mp h
    rcases List.mem_cons.mp hb with rfl | hb
    · simp
    · have hne : first.column ≠ b.column := fun heq => hfirst (heq ▸ List.mem_map_of_mem hb)
      rw [List.find?_cons_of_neg (by simpa using hne)]
      exact ih h hb

/-- What a ruleset satisfies that can be evaluated with a catalog. -/
structure WellFormed (catalog : Catalog) (ruleset : Ruleset) : Prop where
  names : ruleset.columns.names ≠ []
  keys : ∀ b ∈ ruleset.blocks, ruleset.block? b.column = some b
  blocks : ∀ b ∈ ruleset.blocks, b.column ≠ "" ∧ (b.rules.filter Rule.declaresType).length ≤ 1
  conditionalNames : (ruleset.conditionals.map Conditional.name).Nodup
  conditionals : ∀ c ∈ ruleset.conditionals, c.name ≠ "" ∧ ∀ clause ∈ c.clauses, clause.column ≠ ""
  rules : ∀ rule ∈ ruleset.allRules, rule.IsUsable catalog
  precision : ruleset.settings.precision.isPositive = true ∧
    ruleset.settings.precision.isFinite = true
  separator : ∀ sep, ruleset.settings.separator = some sep → sep ∈ Separator.all

/-- A ruleset says what given contributions declare. The column names are declared once, the null
values, the separator and the precision at most once. -/
structure Gathers (ruleset : Ruleset) (ks : List Contribution) : Prop where
  names : ks.filterMap Contribution.names? = [ruleset.columns.names]
  nullValues : (ks.filterMap Contribution.nullValues?).length ≤ 1 ∧
    ruleset.settings.nullValues = (ks.filterMap Contribution.nullValues?).head?.getD []
  separator : (ks.filterMap Contribution.separator?).length ≤ 1 ∧
    ruleset.settings.separator
      = (ks.filterMap Contribution.separator?).head?.bind Separator.ofText?
  precision : (ks.filterMap Contribution.precision?).length ≤ 1 ∧
    ruleset.settings.precision
      = (ks.filterMap Contribution.precision?).head?.getD Settings.defaultPrecision
  allRequired : ruleset.columns.allRequired = true ↔ .declaration .requireAll ∈ ks
  noExtra : ruleset.columns.noExtra = true ↔ .declaration .forbidExtra ∈ ks
  checkOrder : ruleset.columns.checkOrder = true ↔ .declaration .keepOrder ∈ ks
  blocks : (ruleset.blocks.map fun b => (b.column, b.rules)) = ks.filterMap Contribution.block?
  conditionals : ruleset.conditionals = ks.filterMap Contribution.conditional?

end Ruleset

/-- A list of at most one member is known from that member. -/
private theorem head?_of_toList {α : Type} {o : Option α} {xs : List α} (h : o.toList = xs) :
    xs.length ≤ 1 ∧ xs.head? = o := by
  subst h
  cases o <;> simp

/-- What a draft has collected, its ruleset gathers. -/
theorem Draft.Collects.gathers {d : Draft} {ks : List Contribution} {names : List String}
    (h : d.Collects ks) (hs : d.settings = .ok s) (hnames : d.names = some names)
    (hfinishes : d.Finishes s names ruleset) : ruleset.Gathers ks := by
  obtain ⟨hnulls, hseparator, hprecision⟩ := Draft.settings_eq_ok_iff.mp hs
  obtain ⟨rfl, hcolumns, hblocks, hconditionals, -⟩ := hfinishes
  refine ⟨?_, ?_, ?_, ?_, ?_, ?_, ?_, ?_, hconditionals.trans h.conditionals⟩
  · rw [← h.names, hnames, hcolumns]
    rfl
  · obtain ⟨hle, hhead⟩ := head?_of_toList h.nullValues
    exact ⟨hle, hhead ▸ hnulls⟩
  · obtain ⟨hle, hhead⟩ := head?_of_toList h.separator
    rw [List.length_map] at hle
    rw [List.head?_map] at hhead
    refine ⟨hle, hseparator.trans ?_⟩
    rw [← hhead]
    cases (ks.filterMap Contribution.separator?).head? <;> rfl
  · obtain ⟨hle, hhead⟩ := head?_of_toList h.precision
    rw [List.length_map] at hle
    rw [List.head?_map] at hhead
    rw [precisionValue?, ← hhead] at hprecision
    refine ⟨hle, ?_⟩
    cases hdeclared : (ks.filterMap Contribution.precision?).head? with
    | none =>
      simp only [hdeclared, Option.map_none, Option.some.injEq] at hprecision
      rw [Option.getD_none, hprecision]
    | some x =>
      simp only [hdeclared, Option.map_some, Number.toDouble?, Option.some.injEq] at hprecision
      rw [Option.getD_some, hprecision]
  · rw [hcolumns]
    exact h.allRequired
  · rw [hcolumns]
    exact h.noExtra
  · rw [hcolumns]
    exact h.checkOrder
  · rw [hblocks, ← h.blocks, List.map_map]
    exact List.map_id d.blocks

/-- A rule of a text can be used. -/
theorem Constraint.IsStated.isUsable {catalog : Catalog} (h : rule.constraint.IsStated catalog) :
    rule.IsUsable catalog where
  made := by
    rw [Rule.make, Rule.kind, Constraint.ofArgument_argument]
    rfl
  bounds := h.bounds
  count := by
    intro n hn
    cases hc : rule.constraint with
    | compare op m =>
      -- the bound of a comparison is no integer
      obtain ⟨x, rfl, -⟩ := h.bounds m (by rw [hc]; exact List.mem_cons_self)
      simp [hc, Constraint.argument] at hn
    | length b count =>
      simp only [hc, Constraint.argument, Argument.number.injEq, Number.integer.injEq] at hn
      omega
    | digits d count =>
      simp only [hc, Constraint.argument, Argument.number.injEq, Number.integer.injEq] at hn
      omega
    | _ => simp [hc, Constraint.argument] at hn
  format := fun w hw => h.format w (Ruleset.formatName?_eq_some_iff.mp hw)

theorem Rule.IsUsable.isStated {catalog : Catalog} (h : rule.IsUsable catalog) :
    rule.constraint.IsStated catalog :=
  ⟨h.bounds, fun w hw => h.format w (Ruleset.formatName?_eq_some_iff.mpr hw)⟩

/-- The ruleset of a well-formed draft is well formed if all its rules can be used. -/
theorem Draft.WellFormed.finished {d : Draft} {catalog : Catalog} {names : List String}
    (h : d.WellFormed) (hs : d.settings = .ok s) (hnames : d.names = some names)
    (hfinishes : d.Finishes s names ruleset)
    (hrules : ∀ rule ∈ ruleset.allRules, rule.IsUsable catalog) : ruleset.WellFormed catalog where
  names := by
    rw [hfinishes.columns]
    exact h.names names hnames
  keys := fun b hb => Ruleset.block?_of_mem hb
  blocks := by
    intro b hb
    rw [hfinishes.blocks] at hb
    obtain ⟨e, he, rfl⟩ := List.mem_map.mp hb
    exact h.blocks e he
  conditionalNames := ruleset.conditionals_nodup
  conditionals := hfinishes.conditionals ▸ h.conditionals
  rules := hrules
  precision := by
    refine ⟨ruleset.settings.precision_pos, ?_⟩
    have hprecision : d.precisionValue? = some s.precision := (settings_eq_ok_iff.mp hs).2.2
    rw [hfinishes.settings]
    unfold precisionValue? at hprecision
    cases hdeclared : d.precision with
    | none =>
      simp only [hdeclared, Option.some.injEq] at hprecision
      have hfinite : Settings.defaultPrecision.isFinite = true := by decide +kernel
      exact hprecision ▸ hfinite
    | some n =>
      obtain ⟨x, rfl, hx, -⟩ := h.precision n hdeclared
      simp only [hdeclared, Number.toDouble?, Option.some.injEq] at hprecision
      exact hprecision ▸ hx
  separator := by
    intro sep _
    cases sep <;> decide

namespace Ruleset

/-- A parsed ruleset is well formed for the catalog of its text. -/
theorem wellFormed_of_parse (h : parse catalog source = .ok ruleset) :
    ruleset.WellFormed (catalog.getD .standard) := by
  obtain ⟨lines, hlines, -⟩ := bind_eq_ok_iff.mp h
  have hrules : ∀ rule ∈ ruleset.allRules, rule.IsUsable (catalog.getD .standard) := by
    intro rule hrule
    obtain ⟨line, -, s, ts, -, -, hphrase, -⟩ := exists_isRule hlines h hrule
    exact hphrase.isStated.isUsable
  obtain ⟨r, hread, -, s, names, hs, hnames, hfinishes⟩ := (parse_eq_ok_iff hlines).mp h
  have hr := (RulesReader.wellFormed_start catalog).foldlM
    (RulesReader.noSpaces_of_tokenLines hlines) hread
  exact hr.draft.finished hs hnames hfinishes hrules

/-- The rules of a parsed text carry the lines that they are written on. -/
theorem isWrittenIn_of_parse (h : parse catalog source = .ok ruleset) :
    ∀ rule ∈ ruleset.allRules, rule.IsWrittenIn source (catalog.getD .standard) := by
  intro rule hrule
  obtain ⟨lines, hlines, -⟩ := bind_eq_ok_iff.mp h
  obtain ⟨line, hline, s, ts, hsuffix, hnumber, hstated⟩ := exists_isRule hlines h hrule
  exact ⟨line, s, ts, isLineOf_of_tokenLines hlines hline, hnumber, hsuffix, hstated⟩

/-- A parsed ruleset asks for the date formats of the catalog of its text. -/
theorem dateFormats_of_parse (h : parse catalog source = .ok ruleset) :
    ruleset.dateFormats = catalog.map Catalog.names := by
  obtain ⟨lines, hlines, -⟩ := bind_eq_ok_iff.mp h
  obtain ⟨r, hread, -, s, names, -, -, hfinishes⟩ := (parse_eq_ok_iff hlines).mp h
  exact hfinishes.dateFormats.trans
    (RulesReader.wellFormed_of_foldlM (RulesReader.noSpaces_of_tokenLines hlines) hread).2

end Ruleset

/-! ### Engines -/

namespace Catalog

private theorem collect_formats (seen fs : List DateFormat)
    (h : ((seen ++ fs).map DateFormat.name).Nodup) :
    collect seen ((fs.map DateFormat.name).map .name) = .ok (seen ++ fs) := by
  induction fs generalizing seen with
  | nil => simp [collect]
  | cons f fs ih =>
    have hnew : (seen.any fun g => g.name == f.name) = false := by
      rw [List.map_append, List.nodup_append] at h
      rw [List.any_eq_false]
      intro g hg
      have hne := h.2.2 g.name (List.mem_map_of_mem hg) f.name (by simp)
      simpa using hne
    have hname : DateFormat.ofName f.name = .ok f := by
      unfold DateFormat.ofName
      split
      · rename_i e he
        simp [f.wellFormed] at he
      · rfl
    rw [List.map_cons, List.map_cons, collect, hnew, if_neg (by simp), hname]
    have hrest := ih (seen ++ [f]) (by simpa using h)
    simpa using hrest

/-- A catalog is read back from its names. -/
theorem ofNames_names (c : Catalog) : ofNames c.names = .ok c := by
  have hcollect : collect [] (c.names.map .name) = .ok c.formats :=
    collect_formats [] c.formats c.distinct
  unfold ofNames ofEntries
  split
  · rename_i e he
    simp [hcollect] at he
  · rename_i formats hformats
    obtain rfl := Except.ok.inj (hcollect.symm.trans hformats)
    rw [dif_neg c.nonempty]

end Catalog

namespace Ruleset

/-- With a catalog for which it is well formed, a ruleset makes an engine; and so it does without
one, if that is the catalog of its own date formats. -/
theorem WellFormed.make_eq_ok {c : Catalog} {chosen : Option Catalog} (h : ruleset.WellFormed c)
    (hchosen : chosen = some c ∨ chosen = none ∧ Engine.ownCatalog ruleset = .ok c)
    (workers : Int) :
    Engine.make ruleset chosen workers = .ok ⟨ruleset, c, (max 1 workers).toNat⟩ := by
  have hmissing : Engine.missingFormats ruleset c = [] := by
    have hnone : (((ruleset.allRules.filterMap formatName?).map Wording.value).filter fun n =>
        !c.contains n) = [] := by
      rw [List.filter_eq_nil_iff]
      intro n hn
      obtain ⟨w, hw, rfl⟩ := List.mem_map.mp hn
      obtain ⟨rule, hrule, hw⟩ := List.mem_filterMap.mp hw
      have hknown := (h.rules rule hrule).format w hw
      simpa [Catalog.contains, Catalog.names] using hknown
    rw [Engine.missingFormats, hnone]
    simp [Text.sortedDistinct, Text.distinct]
  rcases hchosen with rfl | ⟨rfl, hown⟩
  · simp only [Engine.make, hmissing]
  · simp only [Engine.make, hown, hmissing]

/-- A rule that can be used can be checked. -/
private theorem exists_check {e : Engine} (h : rule.IsUsable e.catalog) :
    ∃ check, e.check rule = .ok check :=
  h.isStated.exists_check

/-- A ruleset has the date formats of the catalog that its text is read with. -/
theorem ownCatalog_eq (h : ruleset.dateFormats = catalog.map Catalog.names) :
    Engine.ownCatalog ruleset = .ok (catalog.getD .standard) := by
  rw [Engine.ownCatalog, h]
  cases catalog with
  | none => simp only [Option.map_none, Option.getD_none]
  | some c =>
    have hne : c.names ≠ [] := by simpa [Catalog.names] using c.nonempty
    rw [Option.map_some]
    split
    · rename_i hnone
      simp at hnone
    · rename_i hnil
      exact absurd (Option.some.inj hnil) hne
    · rename_i names _ hnames
      obtain rfl := Option.some.inj hnames
      exact Catalog.ofNames_names c

/-! ### The main result -/

/-- The lines of a parsed text are units, and its ruleset says what these declare. -/
theorem exists_units_of_parse (h : parse catalog source = .ok ruleset) :
    ∃ units, tokenLines source = .ok (units.flatMap TextUnit.lines) ∧
      IsText (catalog.getD .standard) none units ∧
      ruleset.Gathers (units.map TextUnit.contribution) := by
  obtain ⟨lines, hlines, -⟩ := bind_eq_ok_iff.mp h
  obtain ⟨r, hread, hplace, s, names, hs, hnames, hfinishes⟩ := (parse_eq_ok_iff hlines).mp h
  obtain ⟨-, units, pending, hunits⟩ :=
    RulesReader.exists_isText (RulesReader.noSpaces_of_tokenLines hlines) hread
  -- nothing is pending outside conditional rules
  have hpending : pending = [] := by
    have hholds := hunits.place
    cases hp : r.place with
    | inConditional p => exact absurd hp (hplace p)
    | inBlock column =>
      rw [hp] at hholds
      exact hholds.1
    | _ => rwa [hp] at hholds
  refine ⟨units, ?_, hunits.isText, hunits.collects.gathers hs hnames hfinishes⟩
  rw [hlines, hunits.lines_eq, hpending, List.append_nil]

/-- **A parsed ruleset is well formed**; it says what the units of its text declare, in which the
settings and the column names are declared at most once; its rules carry the lines that they are
written on; and with the catalog of its text it makes an engine that has a check for every rule. -/
theorem parse_wellFormed (catalog : Option Catalog) (source : String) (ruleset : Ruleset)
    (h : parse catalog source = .ok ruleset) :
    ruleset.WellFormed (catalog.getD .standard) ∧
      (∃ units, tokenLines source = .ok (units.flatMap TextUnit.lines) ∧
        IsText (catalog.getD .standard) none units ∧
        ruleset.Gathers (units.map TextUnit.contribution)) ∧
      (∀ rule ∈ ruleset.allRules, rule.IsWrittenIn source (catalog.getD .standard)) ∧
      ∀ chosen workers, chosen = none ∨ chosen = some (catalog.getD .standard) →
        ∃ e, Engine.make ruleset chosen workers = .ok e ∧
          ∀ rule ∈ ruleset.allRules, ∃ check, e.check rule = .ok check := by
  have hformed := wellFormed_of_parse h
  refine ⟨hformed, exists_units_of_parse h, isWrittenIn_of_parse h,
    fun chosen workers hchosen => ?_⟩
  have hown := ownCatalog_eq (dateFormats_of_parse h)
  refine ⟨_, hformed.make_eq_ok (hchosen.symm.imp_right fun hnone => ⟨hnone, hown⟩) workers, ?_⟩
  exact fun rule hrule => exists_check (hformed.rules rule hrule)

end Ruleset

/-- A text with settings, a block and a conditional rule. -/
def priceText : String :=
  "column names in ['id', 'price']\n" ++
  "allowed null values in ['-']\n" ++
  "precision is 0.5\n" ++
  "column: price\n" ++
  "  has value type float\n" ++
  "  is >= 10\n" ++
  "conditional rule: 'cheap'\n" ++
  "if column: id starts with 'c'\n" ++
  "then column: price is < 20\n"

theorem priceText_wellFormed :
    ∃ ruleset, Ruleset.parse none priceText = .ok ruleset ∧ ruleset.WellFormed .standard ∧
      ruleset.ruleCount = 4 := by
  have hcount : (Ruleset.parse none priceText).toOption.any (fun r => r.ruleCount == 4) = true := by
    decide +kernel
  obtain ⟨ruleset, hparse, hcount⟩ := any_toOption_iff.mp hcount
  exact ⟨ruleset, hparse, (Ruleset.parse_wellFormed none priceText ruleset hparse).1,
    beq_iff_eq.mp hcount⟩

end TableRules
