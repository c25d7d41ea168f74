import TableRules.Calendar.Instant
import TableRules.Files.Path
import TableRules.Log.Record

/-!
# Layouts of log records

A log record is written as a JSON object or as a line of text. The object has the fields of the
record itself, except those whose names are taken or start with an underscore; a record may bring a
time stamp and a level of its own.
-/

namespace TableRules

/-- How log records are written. -/
inductive LogLayout
  | json
  | text
  deriving DecidableEq, Repr

namespace LogLayout

/-- The name of a layout. -/
def name : LogLayout → String
  | .json => "json"
  | .text => "text"

/-- All layouts. -/
def all : List LogLayout := [.json, .text]

/-- The layout with a name. -/
def ofName? (s : String) : Option LogLayout := all.find? fun l => l.name == s

end LogLayout

namespace LogRecord

/-- The instant of a record, with a given character between date and time. -/
def timeText (r : LogRecord) (between : String) : String :=
  let c := DateTime.ofInstant r.created
  let two := Text.padded 2
  Text.decimal c.year ++ "-" ++ two c.month ++ "-" ++ two c.day ++ between ++ two c.hour ++ ":" ++
    two c.minute ++ ":" ++ two c.second

/-- The name of the module that a record comes from. -/
def moduleText (r : LogRecord) : String := moduleName r.source.file

/-- Names that the fields of a record cannot have. -/
def takenNames : List String :=
  ["args", "asctime", "created", "exc_info", "exc_text", "filename", "funcName", "levelname",
   "levelno", "lineno", "module", "msecs", "message", "msg", "name", "pathname", "process",
   "processName", "relativeCreated", "stack_info", "thread", "threadName"]

/-- The fields of a record that are written. -/
def ownFields (r : LogRecord) : LogFields :=
  r.fields.filter fun e => !takenNames.contains e.1 && !Text.startsWith e.1 "_"

/-- Why a record cannot be written as an object. -/
inductive Fault
  | levelNotText
  deriving DecidableEq, Repr

/-- The level that is written: the record's own field, in capitals, or its level. -/
def levelField (r : LogRecord) : Except Fault JsonValue :=
  match (r.ownFields.lookup "level").filter fun v => !v.isVoid with
  | none => .ok (.text r.level.name)
  | some (.text s) => .ok (.text (Text.upper s))
  | some _ => .error .levelNotText

/-- The time stamp that is written: the record's own field, or its instant. -/
def timeField (r : LogRecord) : JsonValue :=
  ((r.ownFields.lookup "timestamp").filter fun v => !v.isVoid).getD (.text (r.timeText "T"))

/-- A record as the entries of an object. -/
def entries (r : LogRecord) : Except Fault LogFields :=
  r.levelField.map fun level =>
    let first : LogFields :=
      [("timestamp", r.timeField), ("level", level), ("logger", .text r.source.logger),
       ("module", .text r.moduleText), ("function", .text r.source.function),
       ("message", .text r.message)]
    let last : LogFields := [("process_id", .integer r.process), ("thread_id", .integer r.thread)]
    let names := (first ++ last).map (·.1)
    first ++ Keyed.ofList (r.ownFields.filter fun e => !names.contains e.1) ++ last

/-- A record as a line of text. -/
def line (r : LogRecord) : String :=
  Text.joinWith " - " [r.timeText " ", r.source.logger, r.level.name,
    r.moduleText ++ ":" ++ r.source.function, r.message]

/-- A record in a layout. -/
def render (layout : LogLayout) (r : LogRecord) : Except Fault String :=
  match layout with
  | .json => r.entries.map fun es => (JsonValue.object es).render
  | .text => .ok r.line

end LogRecord

end TableRules
