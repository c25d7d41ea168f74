import TableRules.Proofs.RulesText.Conditionals

/-!
# Which settings matter for reading a line

Of the settings only the separator matters for how a line is read, and it matters only for numbers.
So tokens are read alike under two settings (`ReadsAlike`) if the settings have the same separator
or no token is a number: what is a statement, a rule, a clause or a section under the one is the
same under the other.
-/

namespace TableRules

variable {s s' : Settings} {catalog : Catalog} {ts ts' : List Token} {c : Constraint}
  {lines : List TokenLine} {text : String}

/-! ### Numbers -/

theorem parseReal?_congr (h : s.separator = s'.separator) :
    parseReal? text s = parseReal? text s' := by
  have hmark : s.decimalMark = s'.decimalMark := by
    rw [Settings.decimalMark, Settings.decimalMark, h]
  have hnormal : ∀ cs, normalizeChars s cs = normalizeChars s' cs := by
    intro cs
    rw [normalizeChars, normalizeChars, h, hmark]
  rw [parseReal?, parseReal?, hnormal]

theorem isWhole_congr {ds : List Char} (h : s.separator = s'.separator) :
    IsWhole s text ds ↔ IsWhole s' text ds := by
  have hungrouped : ungrouped s text = ungrouped s' text := by rw [ungrouped, ungrouped, h]
  rw [IsWhole, IsWhole, hungrouped]

/-- Tokens are read alike under two settings: these have the same separator, or no token is a
number. -/
def ReadsAlike (s s' : Settings) (ts : List Token) : Prop :=
  s.separator = s'.separator ∨ ∀ t ∈ ts, t.kind ≠ .number

theorem ReadsAlike.mono (h : ReadsAlike s s' ts) (hts : ts' ⊆ ts) : ReadsAlike s s' ts' :=
  h.imp_right fun hnone t ht => hnone t (hts ht)

/-- Where a token is a number, the separators agree. -/
theorem ReadsAlike.separator_eq {t : Token} (h : ReadsAlike s s' ts) (ht : t ∈ ts)
    (hkind : t.kind = .number) : s.separator = s'.separator :=
  h.resolve_right fun hnone => hnone t ht hkind

/-! ### Lists, phrases and statements -/

private theorem IsItem.alike {item : SetItem} {t : Token} (h : IsItem s item t)
    (ha : ReadsAlike s s' [t]) : IsItem s' item t := by
  cases h with
  | text hkind => exact .text hkind
  | number hkind hreal =>
    have hsep := ha.separator_eq (List.mem_singleton_self t) hkind
    exact .number hkind (parseReal?_congr hsep ▸ hreal)

private theorem IsTail.alike {items : List SetItem} (h : IsTail s items ts)
    (ha : ReadsAlike s s' ts) : IsTail s' items ts := by
  induction h with
  | last h hclose => exact .last (h.alike (ha.mono (by simp))) hclose
  | more h hcomma _ ih =>
    refine .more (h.alike (ha.mono (by simp))) hcomma (ih (ha.mono ?_))
    exact fun t ht => List.mem_cons_of_mem _ (List.mem_cons_of_mem _ ht)

theorem IsList.alike {items : List SetItem} (h : IsList s items ts) (ha : ReadsAlike s s' ts) :
    IsList s' items ts := by
  cases h with
  | empty hopen hclose => exact .empty hopen hclose
  | items hopen h => exact .items hopen (h.alike (ha.mono (List.subset_cons_self _ _)))

theorem IsPhrase.alike (h : IsPhrase s catalog c ts) (ha : ReadsAlike s s' ts) :
    IsPhrase s' catalog c ts := by
  cases h with
  | hasType hws hform hts => exact .hasType hws hform hts
  | hasFormat hws hkind hknown => exact .hasFormat hws hkind hknown
  | count hform hws hkind hwhole =>
    have hsep := ha.separator_eq (List.mem_append_right _ (List.mem_singleton_self _)) hkind
    exact .count hform hws hkind ((isWhole_congr hsep).mp hwhole)
  | bare hform hws => exact .bare hform hws
  | member hform hws hlist =>
    exact .member hform hws (hlist.alike (ha.mono (List.subset_append_right _ _)))
  | text hform hws hkind => exact .text hform hws hkind
  | compare hws hop hvalue hkind hreal =>
    have hsep := ha.separator_eq (by simp) hkind
    exact .compare hws hop hvalue hkind (parseReal?_congr hsep ▸ hreal)
  | pattern hform hws hkind hcompile => exact .pattern hform hws hkind hcompile

theorem IsRule.alike (h : IsRule s catalog c ts) (ha : ReadsAlike s s' ts) :
    IsRule s' catalog c ts := by
  refine ⟨h.1.alike ha, fun hcount t ht hkind ds hwhole => h.2 hcount t ht hkind ds ?_⟩
  exact (isWhole_congr (ha.separator_eq ht hkind)).mpr hwhole

theorem IsStatement.alike {st : Statement} (h : IsStatement s st ts) (ha : ReadsAlike s s' ts) :
    IsStatement s' st ts := by
  cases h with
  | columnNames hws hlist => exact .columnNames hws hlist.of_textItems
  | nullValues hws hlist => exact .nullValues hws hlist.of_textItems
  | separator hws hkind => exact .separator hws hkind
  | precision hform hws hkind hreal =>
    have hsep := ha.separator_eq (List.mem_append_right _ (List.mem_singleton_self _)) hkind
    exact .precision hform hws hkind (parseReal?_congr hsep ▸ hreal)
  | flag hform hws => exact .flag hform hws
  | openBlock hws hcolon hname => exact .openBlock hws hcolon hname
  | openConditional hws hcolon hname => exact .openConditional hws hcolon hname

/-! ### Sections -/

/-- Whether some line holds a number. -/
def HasNumber (lines : List TokenLine) : Prop :=
  ∃ line ∈ lines, ∃ t ∈ line.tokens, t.kind = .number

/-- Lines are read alike under two settings: these have the same separator, or no line holds a
number. -/
def LinesAlike (s s' : Settings) (lines : List TokenLine) : Prop :=
  s.separator = s'.separator ∨ ¬ HasNumber lines

theorem LinesAlike.mono {lines' : List TokenLine} (h : LinesAlike s s' lines)
    (hlines : lines' ⊆ lines) : LinesAlike s s' lines' :=
  h.imp_right fun hnone ⟨line, hline, hnumber⟩ => hnone ⟨line, hlines hline, hnumber⟩

theorem LinesAlike.tokens {line : TokenLine} (h : LinesAlike s s' lines) (hline : line ∈ lines) :
    ReadsAlike s s' line.tokens :=
  h.imp_right fun hnone t ht hkind => hnone ⟨line, hline, t, ht, hkind⟩

theorem IsClause.alike {n : Int} {clause : ClauseText} (h : IsClause s catalog n clause ts)
    (ha : ReadsAlike s s' ts) : IsClause s' catalog n clause ts := by
  obtain ⟨hws, hcolon, hname, hrule⟩ := h
  refine .mk hws hcolon hname (hrule.alike (ha.mono ?_))
  exact fun t ht => List.mem_append_right _ (List.mem_cons_of_mem _ (List.mem_cons_of_mem _ ht))

theorem IsSection.alike {word : String} {clause : ClauseText}
    (h : IsSection s catalog word clause lines) (ha : LinesAlike s s' lines) :
    IsSection s' catalog word clause lines := by
  cases h with
  | inline hline ht hclause =>
    have hts := ha.tokens (List.mem_singleton_self _)
    refine .inline hline ht (hclause.alike (hts.mono ?_))
    exact hline ▸ List.subset_cons_self _ _
  | split hhead hclause => exact .split hhead (hclause.alike (ha.tokens (by simp)))

theorem IsConditional.alike {a c : ClauseText} (h : IsConditional s catalog a c lines)
    (ha : LinesAlike s s' lines) : IsConditional s' catalog a c lines := by
  obtain ⟨hif, hrepeats, hthen⟩ := h
  refine .mk (hif.alike (ha.mono ?_)) hrepeats (hthen.alike (ha.mono ?_))
  · exact List.subset_append_left _ _
  · exact List.Subset.trans (List.subset_append_right _ _) (List.subset_append_right _ _)

end TableRules
