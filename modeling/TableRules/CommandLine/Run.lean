import TableRules.CommandLine.Validation
import TableRules.Metrics.Exposition
import TableRules.Session.Reporting

/-!
# Runs

A run validates a data file against a rules file and writes a report. Its exit status tells whether
the report has errors (1), or whether there is no report since a file could not be read or an option
is wrong (2).

The report is written before anything is said about it. Metrics are written at the end of a run that
has a plan, however it ends. A failure that is not due to the files or options of a run (`RunFault`)
ends it without an exit status.
-/

namespace TableRules

/-- How a run ends. -/
inductive ExitStatus
  | noErrors
  | errors
  | failure
  deriving DecidableEq, Repr

/-- The number of an exit status. -/
def ExitStatus.code : ExitStatus → Nat
  | .noErrors => 0
  | .errors => 1
  | .failure => 2

/-- What a run says: its exit status, its lines, and the records of its log. -/
structure RunResult where
  status : ExitStatus
  output : List String
  errors : List String
  notes : List SessionNote
  setup : LogSetup

/-- The name of the program. -/
def programName : String := "ruleval"

/-- The lines of texts that are written one after the other, each with a line feed behind it. -/
def writtenLines (texts : List String) : List String :=
  texts.flatMap fun s => Text.splitLines (s ++ "\n")

namespace RunResult

/-- The result of a run that a message ends before its log is set up. -/
def refusal (message : String) : RunResult :=
  ⟨.failure, [], writtenLines [message], [], ⟨.critical, .json⟩⟩

/-- The result of a run with wrong arguments. -/
def ofArgumentFault (f : ArgumentFault) : RunResult :=
  refusal (programName ++ ": error: " ++ f.message)

/-- The notes of a run that its log shows. -/
def shownNotes (r : RunResult) : List SessionNote :=
  r.notes.filter fun n => r.setup.least.shownUnder n.2.level

end RunResult

namespace RunPlan

/-- The result of a run without a report. -/
def refused (p : RunPlan) (notes : List SessionNote) (message : String) : RunResult :=
  ⟨.failure, [], writtenLines ["Error: " ++ message], notes, p.setup⟩

/-- The result of a run with a report that was written. -/
def reported (p : RunPlan) (notes : List SessionNote) (r : Report) (file : Path) : RunResult :=
  let lines := r.summary.lines ++ ["Report written to " ++ file.text]
  ⟨if r.hasErrors then .errors else .noErrors, writtenLines lines, [],
    notes ++ [SessionNote.reportWritten file], p.setup⟩

end RunPlan

/-! ### Running -/

section Running

variable {m : Type → Type} [Monad m]

/-- Carries out a plan up to the metrics. -/
def RunPlan.carryOut (p : RunPlan) (s : Surroundings m) (sources : RunPlan.Sources) :
    m (Except RunFault RunResult) := do
  match p.validate sources with
  | .error f => return .error f
  | .ok (notes, .refused message) => return .ok (p.refused notes message)
  | .ok (notes, .report _ _ r) =>
    match ← r.writeTo s p.config.reportFolder with
    | .error f => return .error (.session f)
    | .ok file => return .ok (p.reported notes r file)

/-- Carries out a plan and writes its metrics. -/
def RunPlan.run (p : RunPlan) (s : Surroundings m) : m (Except RunFault RunResult) := do
  let sources : RunPlan.Sources :=
    ⟨← Session.entryAt s (p.session.reference.getD ""), ← Session.entryAt s p.session.rules,
      ← Session.entryAt s p.data⟩
  let result ← p.carryOut s sources
  match p.metricsFile with
  | none => return result
  | some given =>
    let text := Text.joinWith "\n" (p.metrics sources).lines ++ "\n"
    match ← s.write (Path.ofText given) text with
    | some o => return .error (.session (.obstacle o))
    | none => return result

/-- Runs the program with checked arguments. -/
def Arguments.run (a : Arguments) (e : Environment) (s : Surroundings m) :
    m (Except RunFault RunResult) := do
  let envFile ← match a.envFile with
    | some given => do pure (some (← Session.entryAt s given))
    | none => pure none
  match RunPlan.make a e envFile with
  | .error (.refused message) => return .ok (RunResult.refusal ("Error: " ++ message))
  | .error (.failed f) => return .error f
  | .ok p => p.run s

/-- The lines that tell how the program is used. -/
def usageLines : List String :=
  let required (o : CommandOption) : Bool := CommandOption.required.contains o
  ("usage: " ++ programName ++ " [options]") ::
    (CommandOption.all.filter (· != .help)).map fun o =>
      "  " ++ o.title ++ " VALUE" ++ (if required o then " (required)" else "")

/-- Runs the program. -/
def runCommand (arguments : List String) (e : Environment) (s : Surroundings m) :
    m (Except RunFault RunResult) := do
  match Arguments.read arguments with
  | .error f => return .ok (RunResult.ofArgumentFault f)
  | .ok none => return .ok ⟨.noErrors, usageLines, [], [], ⟨.critical, .json⟩⟩
  | .ok (some a) => a.run e s

end Running

end TableRules
