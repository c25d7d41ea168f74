import TableRules.Calendar.Instant
import TableRules.Report.Basic

/-!
# Report files

Every run writes its report to a file of its own, named for the time of the run. The year is not
filled with zeros.
-/

namespace TableRules

/-- The name of the report file of a run at a given time. -/
def reportFileName (d : DateTime.Components) : String :=
  let two := Text.padded 2
  "validation_" ++ Text.decimal d.year ++ two d.month ++ two d.day ++ "_" ++ two d.hour ++
    two d.minute ++ two d.second ++ ".log"

/-- The content of the file of a report. -/
def Report.fileContent (r : Report) : String := Text.joinWith "\n" r.lines ++ "\n"

end TableRules
