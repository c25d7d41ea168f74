import Std.Time.DateTime.Timestamp
import TableRules.CommandLine.Run

/-!
# The program

The command line of the program: runs it over real files, prints the records of its log and then its
lines, and ends with its exit status.
-/

namespace TableRules.Program

/-- What is in the way of an access to a file. -/
def obstacleOf : IO.Error → Obstacle
  | .noFileOrDirectory .. => .missing
  | .inappropriateType _ code _ => if code == 21 then .isFolder else .insideFile
  | .alreadyExists .. => .isFile
  | _ => .nameTooLong

/-- What is found at a path. -/
def entryAt (p : Path) : IO Entry := do
  if p.text.toList.contains '\x00' then return .nothing .nulInPath
  try
    let octets ← IO.FS.readBinFile p.text
    return .file (.octets (octets.toList.map UInt8.toNat))
  catch e =>
    match obstacleOf e with
    | .isFolder => return .folder
    | o => return .nothing o

/-- What is in the way of an action on files. -/
def attempt (action : IO Unit) : IO (Option Obstacle) := do
  try
    action
    return none
  catch e => return some (obstacleOf e)

/-- The files of the computer, and its clock. -/
def surroundings : Surroundings IO where
  entry := entryAt
  makeFolder p := attempt (IO.FS.createDirAll p.text)
  write p text := attempt (IO.FS.writeFile p.text text)
  now := do return (← Std.Time.Timestamp.now).toSecondsSinceUnixEpoch.val

/-- The variables that the program reads, as far as they are set. -/
def environment : IO Environment := do
  let names :=
    [Environment.workers, Environment.logLevel, Environment.logLayout, Environment.reportFolder]
  let values ← names.mapM fun n => do return (← IO.getEnv n).map fun v => (n, v)
  return values.filterMap id

/-- Prints the records of a log. -/
def printNotes (setup : LogSetup) (notes : List SessionNote) : IO Unit := do
  let created ← surroundings.now
  for (source, note) in notes do
    match LogRecord.render setup.layout ⟨note, source, 0, 0, created⟩ with
    | .ok line => IO.println line
    | .error _ => pure ()

end TableRules.Program

/-- Runs the program with the arguments of a command line. -/
def main (arguments : List String) : IO UInt32 := do
  let environment ← TableRules.Program.environment
  match ← TableRules.runCommand arguments environment TableRules.Program.surroundings with
  | .error f =>
    IO.eprintln f.message
    return 1
  | .ok r =>
    TableRules.Program.printNotes r.setup r.shownNotes
    for line in r.output do IO.println line
    for line in r.errors do IO.eprintln line
    return UInt32.ofNat r.status.code
