import TableRules.Files.Surroundings
import TableRules.Report.File
import TableRules.Session.Basic

/-!
# Reports of a session

A session that is told where to put its reports writes each report to a file of its own, after the
validation and before anything is said about it. These functions work in any surroundings.
-/

namespace TableRules

variable {m : Type → Type} [Monad m]

/-- Writes a report to a file of its own in a folder; answers with the path of the file, or with
what is in the way. -/
def Report.writeTo (r : Report) (outside : Surroundings m) (folder : Path) :
    m (Except SessionFault Path) := do
  match ← outside.makeFolder folder with
  | some o => return .error (.obstacle o)
  | none =>
    let file := folder.child (reportFileName (DateTime.ofInstant (← outside.now)))
    match ← outside.write file r.fileContent with
    | some o => return .error (.obstacle o)
    | none => return .ok file

namespace Session

/-- What is found at a path, by its spelling. -/
def entryAt (outside : Surroundings m) (given : String) : m Entry :=
  outside.entry (Path.ofText given)

/-- Makes a session from the files at its paths. -/
def openFiles (o : SessionOptions) (outside : Surroundings m) :
    m (Except SessionFault Session) := do
  let reference ← entryAt outside (o.reference.getD "")
  let rules ← entryAt outside o.rules
  return make o reference rules

/-- Validates a table, and writes the report if there is a folder for it; answers with the report
and the path of its file. -/
def reportOn (s : Session) (outside : Surroundings m) (folder : Option Path) (table : Table) :
    m (Except SessionFault (Report × Option Path)) := do
  match s.validate table, folder with
  | .error f, _ => return .error f
  | .ok r, none => return .ok (r, none)
  | .ok r, some folder =>
    match ← r.writeTo outside folder with
    | .error f => return .error f
    | .ok file => return .ok (r, some file)

/-- Validates the table in a data file, and writes the report if there is a folder for it. -/
def reportOnFile (s : Session) (outside : Surroundings m) (folder : Option Path) (given : String) :
    m (Except SessionFault (Report × Option Path)) := do
  match s.readTable given (← entryAt outside given) with
  | .error f => return .error f
  | .ok table => s.reportOn outside folder table

end Session

end TableRules
