import TableRules.Calendar.Catalog
import TableRules.Yaml.Node

/-!
# Catalogs as texts

A catalog of date formats can be given as a YAML document: a mapping whose entry `date_formats` is
the list of names.
-/

namespace TableRules.Catalog

/-- Why a text gives no catalog. -/
inductive TextFault
  | catalog (fault : CatalogFault)
  | notInCalendar (reason : String)
  deriving DecidableEq, Repr

/-- The wording of a fault. -/
def TextFault.message : TextFault → String
  | .catalog f => f.message
  | .notInCalendar reason => reason

/-- The name of the list in a document. -/
def listName : String := "date_formats"

/-- An entry of the list. -/
def entryOfNode : Yaml.Node → CatalogEntry
  | .scalar (.text s) => .name s
  | n => .other n.typeName

/-- The catalog that a document gives. -/
def ofNode (document : Yaml.Node) : Except CatalogFault Catalog :=
  match document.find? listName with
  | none => .error .noSection
  | some (.sequence items) => ofEntries (items.map entryOfNode)
  | some _ => .error .notList

/-- The catalog that a text gives. -/
def ofText (text : String) : Except TextFault Catalog :=
  match Yaml.Node.ofText text with
  | .error .malformed => .error (.catalog .malformed)
  | .error (.notInCalendar reason) => .error (.notInCalendar reason)
  | .ok document => (ofNode document).mapError .catalog

end TableRules.Catalog
