import TableRules.Calendar.DateFormat

/-!
# Catalogs of date formats

A catalog is a non-empty list of date formats with different names. Its order matters: a text is
read with the first format that reads it (`Catalog.match?`). `Catalog.standard` is the catalog
used when none is given.
-/

namespace TableRules

/-- Why a list of names is no catalog. -/
inductive CatalogFault
  | empty
  | notText (typeName : String)
  | duplicate (name : String)
  | badFormat (fault : DateFormatFault)
  | noSection
  | notList
  | malformed
  deriving DecidableEq, Repr

namespace CatalogFault

/-- The wording of a fault. -/
def message : CatalogFault → String
  | .empty => "Date format catalog cannot be empty"
  | .notText t => "Date format must be a string, got " ++ t
  | .duplicate name => "Duplicate date format '" ++ name ++ "'"
  | .badFormat e => e.message
  | .noSection => "Date format catalog must contain a 'date_formats' section"
  | .notList => "'date_formats' must be a list"
  | .malformed => "Invalid date format catalog"

end CatalogFault

/-- An entry of a list of formats: a name, or a value of another type. -/
inductive CatalogEntry
  | name (s : String)
  | other (typeName : String)
  deriving DecidableEq, Repr

/-- Date formats in order of preference. -/
structure Catalog where
  formats : List DateFormat
  nonempty : formats ≠ []
  distinct : (formats.map DateFormat.name).Nodup

namespace Catalog

/-- Reads entries one after another, after the formats already read. -/
def collect (seen : List DateFormat) : List CatalogEntry → Except CatalogFault (List DateFormat)
  | [] => .ok seen
  | .other t :: _ => .error (.notText t)
  | .name s :: rest =>
    if seen.any fun f => f.name == s then .error (.duplicate s)
    else match DateFormat.ofName s with
      | .error e => .error (.badFormat e)
      | .ok f => collect (seen ++ [f]) rest

theorem ofName_name {s : String} {f : DateFormat} (h : DateFormat.ofName s = .ok f) :
    f.name = s := by
  unfold DateFormat.ofName at h
  split at h
  · simp at h
  · simp only [Except.ok.injEq] at h
    rw [← h]

theorem collect_nodup {seen out : List DateFormat} {entries : List CatalogEntry}
    (hseen : (seen.map DateFormat.name).Nodup) (h : collect seen entries = .ok out) :
    (out.map DateFormat.name).Nodup := by
  induction entries generalizing seen with
  | nil =>
    simp only [collect, Except.ok.injEq] at h
    rwa [← h]
  | cons e rest ih =>
    cases e with
    | other t => simp [collect] at h
    | name s =>
      simp only [collect] at h
      split at h
      · simp at h
      · rename_i hnew
        split at h
        · simp at h
        · rename_i f hf
          refine ih ?_ h
          rw [List.map_append, List.nodup_append]
          refine ⟨hseen, by simp, ?_⟩
          intro a ha b hb hab
          simp only [List.map_cons, List.map_nil, List.mem_singleton] at hb
          obtain ⟨g, hg, rfl⟩ := List.mem_map.1 ha
          refine hnew (List.any_eq_true.2 ⟨g, hg, ?_⟩)
          rw [hab, hb, ofName_name hf]
          simp

/-- The catalog with given entries. -/
def ofEntries (entries : List CatalogEntry) : Except CatalogFault Catalog :=
  match h : collect [] entries with
  | .error e => .error e
  | .ok formats =>
    if hne : formats = [] then .error .empty
    else .ok ⟨formats, hne, collect_nodup (by simp) h⟩

/-- The catalog with given names. -/
def ofNames (names : List String) : Except CatalogFault Catalog :=
  ofEntries (names.map .name)

/-- The names of the formats, in order. -/
def names (c : Catalog) : List String := c.formats.map DateFormat.name

/-- Whether a catalog has a format of a given name. -/
def contains (c : Catalog) (name : String) : Bool := c.formats.any fun f => f.name == name

/-- The format of a given name. -/
def get? (c : Catalog) (name : String) : Option DateFormat :=
  c.formats.find? fun f => f.name == name

/-- The first format that reads a text, and what it reads. -/
def match? (c : Catalog) (text : String) : Option (DateFormat × DateTime) :=
  c.formats.findSome? fun f => (f.parse? text).map fun d => (f, d)

/-- The names of the standard catalog. -/
def standardNames : List String :=
  ["YYYY-MM-DD", "YYYY-MM-DDThh:mm:ss", "YYYY-MM-DDThh:mm:ssZ", "YYYY-MM-DDThh:mm:ss.fff",
   "YYYY-MM-DDThh:mm:ss.fffZ", "YYYY-MM-DD hh:mm:ss", "YYYY-MM-DD hh:mm", "YYYY-MM", "YYYY",
   "YYYYMMDD", "YYYY/MM/DD", "DD/MM/YYYY", "MM/DD/YYYY", "DD-MM-YYYY", "DD.MM.YYYY",
   "DD/MM/YYYY hh:mm:ss", "DD.MM.YYYY hh:mm", "DD-MMM-YYYY", "DD MMM YYYY", "MMM YYYY",
   "DD/MM/YY", "hh:mm", "hh:mm:ss"]

/-- A catalog with a single format, the year. -/
def yearOnly : Catalog where
  formats := [⟨"YYYY", by decide⟩]
  nonempty := by simp
  distinct := by simp

/-- The catalog used when none is given. -/
def standard : Catalog :=
  match ofNames standardNames with
  | .ok c => c
  | .error _ => yearOnly

end Catalog

end TableRules
