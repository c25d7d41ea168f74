import TableRules.Text.Search

/-!
# Paths

A path starts in the working folder or at a root, and goes on by names. Empty names and the name of
a single point lead nowhere and are left out, so a path has one spelling (`Path.text`); two points
lead to the folder above and stay.
-/

namespace TableRules

/-- Where a path starts. Two slashes are a root of their own, three are one. -/
inductive Root
  | workingFolder
  | root
  | secondRoot
  deriving DecidableEq, Repr

/-- The spelling of a start. -/
def Root.text : Root → String
  | .workingFolder => ""
  | .root => "/"
  | .secondRoot => "//"

/-- A start and names. -/
structure Path where
  start : Root
  names : List String
  deriving DecidableEq, Repr

namespace Path

/-- The start that a text spells. -/
def startOf : List Char → Root
  | '/' :: '/' :: '/' :: _ => .root
  | '/' :: '/' :: _ => .secondRoot
  | '/' :: _ => .root
  | _ => .workingFolder

/-- The names between the slashes of a text. -/
def namesOf (cs : List Char) : List String :=
  ((Text.splitAtChars (· == '/') cs).map String.ofList).filter fun n => n != "" && n != "."

/-- The path that a text spells. -/
def ofText (s : String) : Path := ⟨startOf s.toList, namesOf s.toList⟩

/-- The spelling of a path. -/
def text (p : Path) : String :=
  let spelled := p.start.text ++ Text.joinWith "/" p.names
  if spelled == "" then "." else spelled

/-- The path of something in a folder. -/
def child (p : Path) (name : String) : Path := ⟨p.start, p.names ++ [name]⟩

/-- The folder that holds what is at a path. -/
def folder (p : Path) : Path := ⟨p.start, p.names.dropLast⟩

/-- The last name of a path. -/
def name (p : Path) : String := p.names.getLast?.getD ""

/-- A name before its last point, and from that point on. -/
def splitAtPoint (cs : List Char) : List Char × List Char :=
  let after := (cs.reverse.takeWhile (· != '.')).reverse
  if after.length == cs.length then (cs, [])
  else (cs.take (cs.length - after.length - 1), '.' :: after)

/-- The suffix of the last name: from its last point on. A name has no suffix if that point is its
first or last character. -/
def suffix (p : Path) : String :=
  let (before, after) := splitAtPoint p.name.toList
  if before.isEmpty || after.length ≤ 1 then "" else String.ofList after

end Path

/-- The name of a source file as a module: what comes after the last slash, without the points it
starts with counting as the start of an extension, and without its extension. -/
def moduleName (file : String) : String :=
  let name := (file.toList.reverse.takeWhile (· != '/')).reverse
  let points := name.takeWhile (· == '.')
  let (before, _) := Path.splitAtPoint (name.drop points.length)
  String.ofList (points ++ before)

end TableRules
