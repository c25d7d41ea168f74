import TableRules.Metrics.Counter

/-!
# Showing counters

`Metrics.lines` lists all counters in a text form: for each a line of help, a line with its type,
and one line for each series, in the order in which the series were started. A backslash, a double
quote and a line feed in the value of a label are escaped.

`Metrics.samples` are the current values of everything that is counted, and `Metrics.changes` those
that are new or differ from an earlier state.
-/

namespace TableRules

/-- A named value with its labels. -/
structure Sample where
  name : String
  labels : Labels
  value : Double
  deriving DecidableEq

namespace Sample

/-- The value of a label in a line. -/
def escape (s : String) : String :=
  String.ofList <| s.toList.flatMap fun c =>
    if c == '\\' then ['\\', '\\']
    else if c == '\n' then ['\\', 'n']
    else if c == '\x22' then ['\\', '\x22']
    else [c]

/-- The labels of a line. -/
def labelText (labels : Labels) : String :=
  if labels.isEmpty then ""
  else "\x7b" ++ Text.joinWith "," (labels.map fun (k, v) => k ++ "=\x22" ++ escape v ++ "\x22") ++
    "\x7d"

/-- The line of a value. -/
def line (s : Sample) : String := s.name ++ labelText s.labels ++ " " ++ s.value.sample

/-- Whether the labels of one sample come before those of another. -/
def labelsBefore : Labels → Labels → Bool
  | [], _ => true
  | _ :: _, [] => false
  | (k, v) :: a, (l, w) :: b =>
    if k < l then true
    else if l < k then false
    else if v < w then true
    else if w < v then false
    else labelsBefore a b

/-- Whether one sample is listed before another: by name, then by labels. -/
def before (a b : Sample) : Bool :=
  if a.name < b.name then true
  else if b.name < a.name then false
  else labelsBefore a.labels b.labels

end Sample

namespace Metrics

/-- The name of the number of rows. -/
def rowsName : String := "ruleval_dataset_rows"

/-- The lines that introduce a value. -/
def headLines (name help type : String) : List String :=
  ["# HELP " ++ name ++ " " ++ help, "# TYPE " ++ name ++ " " ++ type]

/-- The current values of a counter, in the order in which they were started. -/
def counterSamples (m : Metrics) (c : Counter) : List Sample :=
  (m.series.filter fun e => e.1.1 = c).map fun e => ⟨c.sampleName, e.1.2, e.2⟩

/-- The number of rows as a sample. -/
def rowsSample (m : Metrics) : Sample := ⟨rowsName, [], m.rows⟩

/-- The lines of a counter. -/
def counterLines (m : Metrics) (c : Counter) : List String :=
  headLines c.sampleName c.help "counter" ++ (m.counterSamples c).map Sample.line

/-- All lines; the number of rows stands after the second counter. -/
def lines (m : Metrics) : List String :=
  (Counter.all.take 2).flatMap m.counterLines ++
    headLines rowsName "Number of rows in the most recently evaluated dataset" "gauge" ++
    [m.rowsSample.line] ++ (Counter.all.drop 2).flatMap m.counterLines

/-- The current values of everything that is counted. -/
def samples (m : Metrics) : List Sample :=
  Counter.all.flatMap m.counterSamples ++ [m.rowsSample] ++
    m.phases.map fun (phase, n) =>
      ⟨"ruleval_phase_duration_seconds_count", [("phase", phase)],
        (Double.ofInt? n).getD (.infinite false)⟩

/-- The values that are new or differ from an earlier state, in order. -/
def changes (earlier m : Metrics) : List Sample :=
  (m.samples.filter fun s => !earlier.samples.contains s).mergeSort Sample.before

end Metrics

end TableRules
