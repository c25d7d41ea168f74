import TableRules.Keyed
import TableRules.Log.Json
import TableRules.Log.Level

/-!
# Log records

What happens in a run is told in log records. Each comes from a function of a named logger, and may
carry fields of its own beside its message. All loggers stand below one root, whose name starts
theirs.
-/

namespace TableRules

/-- Fields of a log record, in order. -/
abbrev LogFields : Type := List (String × JsonValue)

/-- Where a log record comes from: a logger, a source file and a function in it. -/
structure LogSource where
  logger : String
  file : String
  function : String
  deriving DecidableEq, Repr

/-- What a log record tells. `afterFailure` says whether it is about a failure. -/
structure LogNote where
  level : LogLevel
  message : String
  fields : LogFields
  afterFailure : Bool

/-- A note with its source, the process and thread that wrote it, and the instant of writing. -/
structure LogRecord extends LogNote where
  source : LogSource
  process : Nat
  thread : Nat
  created : Int

namespace Logger

/-- The name of the root of all loggers. -/
def root : String := "ruleval"

/-- The name of a logger below the root: a name that does not start with the root's is put below
it. -/
def below (name : String) : String :=
  if name == root || Text.startsWith name (root ++ ".") then name else root ++ "." ++ name

end Logger

/-! ### Operations -/

namespace LogNote

/-- The fields of a note about an operation; fields of the operation's own replace them. -/
def operationFields (first own : LogFields) : LogFields :=
  own.foldl (fun fields e => Keyed.put e.1 e.2 fields) first

/-- The start of an operation. -/
def started (operation : String) (own : LogFields) : LogNote :=
  ⟨.info, "Starting: " ++ operation, operationFields [("operation", .text operation)] own, false⟩

/-- The end of an operation that did its work. -/
def completed (operation : String) (own : LogFields) : LogNote :=
  ⟨.info, "Completed: " ++ operation,
    operationFields [("operation", .text operation), ("status", .text "success")] own, false⟩

/-- The end of an operation that failed. -/
def failed (operation errorType errorMessage : String) (own : LogFields) : LogNote :=
  ⟨.error, "Failed: " ++ operation,
    operationFields [("operation", .text operation), ("status", .text "error"),
      ("error_type", .text errorType), ("error_message", .text errorMessage)] own, true⟩

end LogNote

end TableRules
