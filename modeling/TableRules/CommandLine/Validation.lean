import TableRules.CommandLine.Plan
import TableRules.Metrics.Recording
import TableRules.Session.Notes

/-!
# The validation of a run

A run makes a session from its rules and reference, reads the data file and validates the table in
it (`RunPlan.validate`). What it finds at the paths of these files is given; nothing is written.
-/

namespace TableRules.RunPlan

/-- What a run finds at the paths of its files. -/
structure Sources where
  reference : Entry
  rules : Entry
  data : Entry

/-- A validation that came to an end: with a report of a table, or with a result that tells why
there is none. -/
inductive Validation
  | report (session : Session) (table : Table) (report : Report)
  | refused (message : String)

/-- The setup of the log of a run. -/
def setup (p : RunPlan) : LogSetup := ⟨p.config.logLevel, p.config.logLayout⟩

/-- The end of a run through a fault of its session: the message and the note about it, unless the
fault is not due to the files. -/
def sessionFailure (p : RunPlan) : SessionFault → Except RunFault (String × SessionNote)
  | .access f => .ok (f.message, SessionNote.runFailed "Input file access failed" f.message)
  | .rules (.malformed cause line text) =>
    let message := RulesFault.message (.malformed cause line text)
    .ok (p.session.rules ++ ": " ++ message,
      SessionNote.runFailed "Rules file is invalid" message)
  | f => .error (.session f)

/-- What a validation came to, and the notes about it. -/
def validate (p : RunPlan) (sources : Sources) : Except RunFault (List SessionNote × Validation) :=
  let refuse (before : List SessionNote) (f : SessionFault) :
      Except RunFault (List SessionNote × Validation) :=
    (p.sessionFailure f).map fun (message, note) => (before ++ [note], .refused message)
  match Session.make p.session sources.reference sources.rules with
  | .error f => refuse [] f
  | .ok s =>
    let reading := SessionNote.rulesRead p.session.rules s.engine.ruleset ++
      [SessionNote.readingData p.data]
    let table := s.readTable p.data sources.data
    let read := reading ++ SessionNote.dataRead p.data p.session.choice table
    match table with
    | .error f => refuse read f
    | .ok table =>
      match s.validate table with
      | .error f => refuse read f
      | .ok r => .ok (read ++ SessionNote.validated s.engine table r, .report s table r)

/-- The metrics of a run. -/
def metrics (p : RunPlan) (sources : Sources) : Metrics :=
  match p.session.reference.map fun given => Session.catalogOf given sources.reference with
  | some (.error _) => Metrics.empty
  | _ =>
    let parsed := Metrics.empty.timePhase "parse"
    match Session.make p.session sources.reference sources.rules with
    | .error _ => parsed
    | .ok s =>
      match s.readTable p.data sources.data with
      | .error _ => parsed
      | .ok table => parsed.recordAll (s.engine.recordings table)

end TableRules.RunPlan
