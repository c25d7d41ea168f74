import TableRules.Proofs.Calendar.Captures

/-!
# Reading and writing date-times

`DateFormat.parse?` and `DateFormat.render` are inverse to each other on the date-times that a
format can represent. The link between the two is the assignment `shown`, which gives each field the
number that it shows of given components: rendering writes these numbers, and a text **spells**
components (`DateFormat.Spells`) when it is cut into pieces that show them and the format represents
the components, that is, whatever the format does not name has its default.

* `parse?_eq_some_iff_spells`: a text is read as a date-time exactly when it spells its components.
* `DateFormat.parse?_inverse_render`: the inverse laws, the texts that are rejected, and the
  irrelevance of the script of digits.
-/

namespace TableRules

namespace DateFormat

variable {f : DateFormat} {c : DateTime.Components} {d : DateTime} {t : String}

/-! ### Well-formed formats -/

/-- No field is a repeated one if none stands twice and none was seen before. -/
theorem firstRepeated?_eq_none_iff {seen fields : List Field} :
    firstRepeated? seen fields = none ↔ fields.Nodup ∧ ∀ g ∈ fields, g ∉ seen := by
  induction fields generalizing seen with
  | nil => simp [firstRepeated?]
  | cons g fields ih =>
    rw [firstRepeated?]
    split
    · rename_i hg
      refine iff_of_false (by simp) fun h => ?_
      exact h.2 g List.mem_cons_self (List.contains_iff_mem.mp hg)
    · rename_i hg
      rw [List.contains_iff_mem] at hg
      rw [ih, List.nodup_cons, List.forall_mem_cons]
      constructor
      · rintro ⟨hnodup, hseen⟩
        exact ⟨⟨fun hmem => hseen g hmem List.mem_cons_self, hnodup⟩, hg,
          fun g' hg' hmem => hseen g' hg' (List.mem_cons_of_mem g hmem)⟩
      · rintro ⟨⟨hnew, hnodup⟩, -, hseen⟩
        refine ⟨hnodup, fun g' hg' hmem => ?_⟩
        rcases List.mem_cons.mp hmem with rfl | hmem
        · exact hnew hg'
        · exact hseen g' hg' hmem

/-- No field stands twice in a format, and no two fields are for the same component. -/
theorem fields_wellFormed (f : DateFormat) :
    f.fields.Nodup ∧ ¬ (.year ∈ f.fields ∧ .shortYear ∈ f.fields) ∧
      ¬ (.month ∈ f.fields ∧ .monthName ∈ f.fields) := by
  have h := f.wellFormed
  have hfields : fieldsOf f.name = f.fields := rfl
  unfold fault? at h
  dsimp only at h
  rw [hfields] at h
  cases hrepeat : firstRepeated? [] f.fields with
  | some g => split_ifs at h <;> simp [hrepeat] at h
  | none =>
    simp only [hrepeat, Bool.or_eq_true, Bool.and_eq_true, List.contains_iff_mem] at h
    split_ifs at h with _ _ hconflict
    exact ⟨(firstRepeated?_eq_none_iff.mp hrepeat).1, not_or.mp hconflict⟩

/-! ### Captured numbers and components -/

/-- Numbers captured for fields that do not repeat are found again. -/
theorem captured?_eq_some {captures : List (Field × Nat)} (h : (captures.map (·.1)).Nodup)
    {e : Field × Nat} (he : e ∈ captures) : captured? captures e.1 = some e.2 := by
  induction captures with
  | nil => simp at he
  | cons e' captures ih =>
    rw [List.map_cons, List.nodup_cons] at h
    rcases List.mem_cons.mp he with rfl | he
    · simp [captured?]
    · have hne : e'.1 ≠ e.1 := fun heq => h.1 (heq ▸ List.mem_map_of_mem he)
      have hrest : captured? (e' :: captures) e.1 = captured? captures e.1 := by
        simp [captured?, hne]
      rw [hrest, ih h.2 he]

theorem captured?_map (fields : List Field) (value : Field → Nat) (g : Field) :
    captured? (fields.map fun g => (g, value g)) g
      = if g ∈ fields then some (value g) else none := by
  induction fields with
  | nil => rfl
  | cons g' fields ih =>
    by_cases hg : g' = g
    · simp [captured?, hg]
    · have hrest : captured? ((g' :: fields).map fun g => (g, value g)) g
          = captured? (fields.map fun g => (g, value g)) g := by
        simp [captured?, hg]
      rw [hrest, ih]
      simp [Ne.symm hg]

/-- The number that a field shows of given components. -/
def shown (c : DateTime.Components) : Field → Nat
  | .year => c.year
  | .monthName => c.month
  | .millisecond => c.microsecond / 1000
  | .shortYear => c.year % 100
  | .month => c.month
  | .day => c.day
  | .hour => c.hour
  | .minute => c.minute
  | .second => c.second

/-- Whether a format can represent components: each that it does not name has its default, the
microseconds are whole milliseconds, and a year that is named by two digits lies in the hundred
years that two digits stand for. -/
structure Represents (f : DateFormat) (c : DateTime.Components) : Prop where
  year : .year ∉ f.fields → .shortYear ∉ f.fields → c.year = 1900
  pivot : .shortYear ∈ f.fields → 1969 ≤ c.year ∧ c.year ≤ 2068
  month : .month ∉ f.fields → .monthName ∉ f.fields → c.month = 1
  day : .day ∉ f.fields → c.day = 1
  hour : .hour ∉ f.fields → c.hour = 0
  minute : .minute ∉ f.fields → c.minute = 0
  second : .second ∉ f.fields → c.second = 0
  millisecond : .millisecond ∉ f.fields → c.microsecond = 0
  whole : 1000 ∣ c.microsecond

/-- The components of the numbers that an assignment gives to the fields of a format. -/
def assigned (f : DateFormat) (value : Field → Nat) : DateTime.Components :=
  components (f.fields.map fun g => (g, value g))

/-- The numbers shown of components stand for the components, where the format represents them. -/
theorem assigned_shown (h : f.Represents c) : f.assigned (shown c) = c := by
  have hcentury : .shortYear ∈ f.fields → century (c.year % 100) = c.year := by
    intro hs
    have := h.pivot hs
    unfold century
    split <;> omega
  have hwhole : c.microsecond / 1000 * 1000 = c.microsecond := Nat.div_mul_cancel h.whole
  obtain ⟨hy, -, hm, hd, hh, hmin, hs, hms, -⟩ := h
  cases c with
  | mk year month day hour minute second microsecond =>
    simp only [assigned, components, captured?_map, shown, DateTime.Components.mk.injEq]
    refine ⟨?_, ?_, ?_, ?_, ?_, ?_, ?_⟩
    · by_cases h₁ : Field.year ∈ f.fields <;> by_cases h₂ : Field.shortYear ∈ f.fields <;>
        simp_all
    · by_cases h₁ : Field.month ∈ f.fields <;> by_cases h₂ : Field.monthName ∈ f.fields <;>
        simp_all
    · by_cases h₁ : Field.day ∈ f.fields <;> simp_all
    · by_cases h₁ : Field.hour ∈ f.fields <;> simp_all
    · by_cases h₁ : Field.minute ∈ f.fields <;> simp_all
    · by_cases h₁ : Field.second ∈ f.fields <;> simp_all
    · by_cases h₁ : Field.millisecond ∈ f.fields <;> simp_all

/-- What the fields of a format show of the components assigned to them are the assigned numbers. -/
theorem shown_assigned {value : Field → Nat} (hrange : ∀ g ∈ f.fields, g.InRange (value g)) :
    ∀ g ∈ f.fields, shown (f.assigned value) g = value g := by
  obtain ⟨-, hyear, hmonth⟩ := f.fields_wellFormed
  intro g hg
  have hr := hrange g hg
  -- most fields have a component of their own; the others are told apart by what the format lacks
  cases g <;> simp only [shown, assigned, components, captured?_map, if_pos hg] <;> try rfl
  case shortYear =>
    have hlt : value .shortYear < 100 := hr
    rw [if_neg fun hy => hyear ⟨hy, hg⟩]
    simp only [Option.map_some, Option.none_or, Option.getD_some, century]
    split <;> omega
  case month =>
    rw [if_neg fun hn => hmonth ⟨hg, hn⟩]
    rfl
  case millisecond =>
    rw [Option.getD_some, Nat.mul_div_cancel _ (by decide)]

/-- A format represents the components that numbers in the range of its fields stand for. -/
theorem represents_assigned {value : Field → Nat} (hrange : ∀ g ∈ f.fields, g.InRange (value g)) :
    f.Represents (f.assigned value) where
  year h h' := by simp [assigned, components, captured?_map, h, h']
  pivot h := by
    obtain ⟨-, hyear, -⟩ := f.fields_wellFormed
    have hlt : value .shortYear < 100 := hrange _ h
    have hy : Field.year ∉ f.fields := fun hy => hyear ⟨hy, h⟩
    simp only [assigned, components, captured?_map, if_neg hy, if_pos h, Option.map_some,
      Option.none_or, Option.getD_some, century]
    split <;> omega
  month h h' := by simp [assigned, components, captured?_map, h, h']
  day h := by simp [assigned, components, captured?_map, h]
  hour h := by simp [assigned, components, captured?_map, h]
  minute h := by simp [assigned, components, captured?_map, h]
  second h := by simp [assigned, components, captured?_map, h]
  millisecond h := by simp [assigned, components, captured?_map, h]
  whole := Nat.dvd_mul_left _ _

/-! ### Texts that spell components -/

/-- Whether a text spells components in a format: it is cut into pieces, one for each part of the
format, that show them. -/
def Spells (f : DateFormat) (t : String) (c : DateTime.Components) : Prop :=
  f.Represents c ∧ ∃ pieces, List.Forall₂ (Part.Shows (shown c)) f.parts pieces ∧
    t.toList = pieces.flatten

/-- A text that spells components is captured with the numbers shown of them. -/
theorem Spells.capture? (h : f.Spells t c) :
    capture? f.parts t.toList = some (f.fields.map fun g => (g, shown c g)) := by
  obtain ⟨-, pieces, hpieces, ht⟩ := h
  rw [ht]
  exact Part.capture?_eq_some_of_shows hpieces

/-- A captured text spells the components of the captured numbers. -/
theorem spells_of_capture? {captures : List (Field × Nat)}
    (h : DateFormat.capture? f.parts t.toList = some captures) :
    f.Spells t (components captures) := by
  obtain ⟨hfields, hpieces⟩ := Part.shows_of_capture? h
  have hfields : captures.map (·.1) = f.fields := hfields
  have hnodup : (captures.map (·.1)).Nodup := hfields ▸ f.fields_wellFormed.1
  -- since no field repeats, the captured numbers are those of an assignment
  obtain ⟨value, hvalue⟩ : ∃ value : Field → Nat, ∀ e ∈ captures, value e.1 = e.2 :=
    ⟨fun g => (captured? captures g).getD 0, fun e he => by simp [captured?_eq_some hnodup he]⟩
  have hcaptures : captures = f.fields.map fun g => (g, value g) := by
    rw [← hfields, List.map_map]
    refine (List.map_id captures).symm.trans (List.map_congr_left fun e he => ?_)
    exact Prod.ext rfl (hvalue e he).symm
  obtain ⟨pieces, hshows, ht⟩ := hpieces value hvalue
  have hrange : ∀ g ∈ f.fields, g.InRange (value g) := Part.inRange_of_shows hshows
  have hassigned : components captures = f.assigned value := by rw [hcaptures, assigned]
  rw [hassigned]
  exact ⟨represents_assigned hrange, pieces,
    Part.shows_congr (fun g hg => (shown_assigned hrange g hg).symm) hshows, ht⟩

/-- A text spells at most one combination of components. -/
theorem Spells.eq {c' : DateTime.Components} (h : f.Spells t c) (h' : f.Spells t c') : c = c' := by
  have heq := Option.some.inj (h.capture?.symm.trans h'.capture?)
  rw [← assigned_shown h.1, ← assigned_shown h'.1, assigned, assigned, heq]

/-- A text is read as a date-time exactly when it spells its components. -/
theorem parse?_eq_some_iff_spells : f.parse? t = some d ↔ f.Spells t d.toComponents := by
  rw [parse?]
  constructor
  · intro h
    split at h
    · simp at h
    · rename_i captures hcapture
      rw [DateTime.of?_eq_some_iff.mp h]
      exact spells_of_capture? hcapture
  · intro h
    rw [h.capture?]
    exact DateTime.of?_eq_some_iff.mpr (assigned_shown h.1).symm

/-- Rendering writes the numbers shown of a date-time. -/
theorem toList_render (f : DateFormat) (d : DateTime) :
    (f.render d).toList = f.parts.flatMap (Part.write (shown d.toComponents)) := by
  rw [render, String.toList_ofList]
  refine List.flatMap_congr fun part _ => ?_
  cases part with
  | literal l => rfl
  | field g => cases g <;> rfl

/-- The numbers that fields show of a date-time lie in their ranges. -/
theorem inRange_shown (d : DateTime) (g : Field) : g.InRange (shown d.toComponents g) := by
  obtain ⟨⟨-, hyear⟩, hmonth, ⟨-, hday⟩, hhour, hminute, hsecond, hmicro⟩ := d.valid
  have hdays : daysInMonth d.year d.month ≤ 31 := by
    unfold daysInMonth
    split_ifs <;> decide
  cases g <;> simp only [Field.InRange, shown, reduceCtorEq, if_false, if_true]
  case year => exact Nat.lt_of_le_of_lt hyear (by decide)
  case monthName => exact hmonth
  case millisecond => exact Nat.div_lt_of_lt_mul hmicro
  case shortYear => exact Nat.mod_lt _ (by decide)
  case month => exact Nat.lt_of_le_of_lt hmonth.2 (by decide)
  case day => exact Nat.lt_of_le_of_lt (hday.trans hdays) (by decide)
  case hour => exact hhour.trans (by decide)
  case minute => exact hminute.trans (by decide)
  case second => exact hsecond.trans (by decide)

/-- A rendered date-time spells its components, where the format represents it. -/
theorem spells_render (h : f.Represents d.toComponents) : f.Spells (f.render d) d.toComponents :=
  ⟨h, _, Part.shows_write fun g _ => inRange_shown d g, by rw [toList_render, List.flatMap_def]⟩

/-! ### The inverse laws -/

/-- Whether the digits of a text at the places of fields are ASCII digits. -/
def HasAsciiFields (f : DateFormat) (t : String) : Prop :=
  ∀ c ∈ Part.fieldChars f.parts t.toList, Text.isDigit c = true → c.isDigit = true

/-- A text with the digits at the places of fields exchanged for ASCII digits. -/
def toAscii (f : DateFormat) (t : String) : String :=
  String.ofList (Part.asciiFields f.parts t.toList)

theorem hasAsciiFields_toAscii (f : DateFormat) (t : String) : f.HasAsciiFields (f.toAscii t) := by
  intro c hc hdigit
  rw [toAscii, String.toList_ofList, Part.fieldChars_asciiFields] at hc
  obtain ⟨c, -, rfl⟩ := List.mem_map.mp hc
  exact Text.asciiDigit_isDigit (by rwa [Text.isDigit_asciiDigit] at hdigit)

/-- The texts in ASCII digits that are read as a date-time are its renderings. -/
theorem eq_render_of_parse? (hascii : f.HasAsciiFields t) (h : f.parse? t = some d) :
    f.Represents d.toComponents ∧ t = f.render d := by
  obtain ⟨hrep, pieces, hshows, ht⟩ := parse?_eq_some_iff_spells.mp h
  refine ⟨hrep, String.toList_inj.mp ?_⟩
  rw [toList_render, ht, Part.flatten_eq_write hshows fun c hc => hascii c (ht ▸ hc)]

theorem parse?_toAscii (f : DateFormat) (t : String) : f.parse? (f.toAscii t) = f.parse? t := by
  rw [parse?, toAscii, String.toList_ofList, Part.capture?_asciiFields, parse?]

/-- Whether a text is cut into given pieces of the form of the parts of a format. -/
def IsCut (f : DateFormat) (t : String) (pieces : List (List Char)) : Prop :=
  List.Forall₂ Part.Fits f.parts pieces ∧ t.toList = pieces.flatten

/-- Whether a text has the shape of a format. -/
def HasShape (f : DateFormat) (t : String) : Prop := ∃ pieces, f.IsCut t pieces

/-- Whether the fields of a text are no day of the calendar or no time of a day: a month is named
that does not exist, or the components that the fields stand for are not valid. -/
def NamesNoDateTime (f : DateFormat) (t : String) : Prop :=
  (∃ pieces, f.IsCut t pieces ∧ ¬ List.Forall₂ Part.NamesMonth f.parts pieces) ∨
    ∃ c, f.Spells t c ∧ ¬ DateTime.Valid c

/-- A text that spells components is cut into pieces that name existing months. -/
theorem Spells.isCut (h : f.Spells t c) :
    ∃ pieces, f.IsCut t pieces ∧ List.Forall₂ Part.NamesMonth f.parts pieces := by
  obtain ⟨-, pieces, hshows, ht⟩ := h
  exact ⟨pieces, ⟨hshows.imp fun _ _ h => h.fits.1, ht⟩, hshows.imp fun _ _ h => h.fits.2⟩

/-- A text is rejected exactly when it has not the shape of the format or its fields are no day and
time. -/
theorem parse?_eq_none_iff :
    f.parse? t = none ↔ ¬ f.HasShape t ∨ f.HasShape t ∧ f.NamesNoDateTime t := by
  constructor
  · intro h
    by_cases hshape : f.HasShape t
    · -- a text of the right shape that names existing months spells components
      refine .inr ⟨hshape, ?_⟩
      obtain ⟨pieces, hfits, ht⟩ := hshape
      by_cases hmonth : List.Forall₂ Part.NamesMonth f.parts pieces
      · obtain ⟨captures, hcaptures⟩ := Part.exists_capture? hfits hmonth
        have hspells := spells_of_capture? (t := t) (ht ▸ hcaptures)
        refine .inr ⟨_, hspells, fun hvalid => ?_⟩
        have hparse : f.parse? t = some ⟨_, hvalid⟩ := parse?_eq_some_iff_spells.mpr hspells
        rw [hparse] at h
        simp at h
      · exact .inl ⟨pieces, ⟨hfits, ht⟩, hmonth⟩
    · exact .inl hshape
  · -- a text that is read spells valid components and is cut in one way only
    intro h
    rw [Option.eq_none_iff_forall_ne_some]
    intro d hd
    have hspells := parse?_eq_some_iff_spells.mp hd
    obtain ⟨pieces, hcut, hmonth⟩ := hspells.isCut
    rcases h with hshape | ⟨-, ⟨pieces', hcut', hmonth'⟩ | ⟨c, hc, hvalid⟩⟩
    · exact hshape ⟨pieces, hcut⟩
    · rw [Part.eq_of_fits hcut'.1 hcut.1 (hcut'.2.symm.trans hcut.2)] at hmonth'
      exact hmonth' hmonth
    · rw [hc.eq hspells] at hvalid
      exact hvalid d.valid

/-- **Reading and rendering are inverse to each other.** A text whose digits at the places of fields
are ASCII digits is read as a date-time exactly when the format represents the date-time and the
text is its rendering; every other text is read as if these digits were ASCII digits; and a text is
rejected exactly when it has not the shape of the format or its fields are no day and time. -/
theorem parse?_inverse_render (f : DateFormat) :
    (∀ t d, f.HasAsciiFields t →
      (f.parse? t = some d ↔ f.Represents d.toComponents ∧ t = f.render d)) ∧
    (∀ d, f.Represents d.toComponents → f.parse? (f.render d) = some d) ∧
    (∀ t, f.parse? t = none ↔ ¬ f.HasShape t ∨ f.HasShape t ∧ f.NamesNoDateTime t) ∧
    (∀ t, f.parse? (f.toAscii t) = f.parse? t ∧ f.HasAsciiFields (f.toAscii t)) := by
  have hrender : ∀ d, f.Represents d.toComponents → f.parse? (f.render d) = some d :=
    fun d h => parse?_eq_some_iff_spells.mpr (spells_render h)
  refine ⟨fun t d hascii => ⟨eq_render_of_parse? hascii, ?_⟩, hrender,
    fun t => parse?_eq_none_iff, fun t => ⟨parse?_toAscii f t, hasAsciiFields_toAscii f t⟩⟩
  rintro ⟨hrep, rfl⟩
  exact hrender d hrep

/-- A day, the name of a month and a year of two digits. -/
def dayMonthYear : DateFormat := ⟨"DD-MMM-YY", by decide⟩

/-- The last leap day of the twentieth century. -/
def leapDay : DateTime := ⟨⟨2000, 2, 29, 0, 0, 0, 0⟩, by decide⟩

theorem leapDay_inverse_render :
    dayMonthYear.HasAsciiFields "29-Feb-00" ∧ dayMonthYear.Represents leapDay.toComponents ∧
      dayMonthYear.parse? "29-Feb-00" = some leapDay ∧
      dayMonthYear.parse? (dayMonthYear.render leapDay) = some leapDay := by
  have hascii : dayMonthYear.HasAsciiFields "29-Feb-00" := by
    have hall : ((Part.fieldChars dayMonthYear.parts "29-Feb-00".toList).all fun c =>
        !Text.isDigit c || c.isDigit) = true := by decide
    intro c hc hdigit
    simpa [hdigit] using List.all_eq_true.mp hall c hc
  have hrep : dayMonthYear.Represents leapDay.toComponents := by constructor <;> decide
  obtain ⟨hiff, hrender, -⟩ := parse?_inverse_render dayMonthYear
  exact ⟨hascii, hrep, (hiff _ _ hascii).mpr ⟨hrep, by decide⟩, hrender _ hrep⟩

end DateFormat

end TableRules
