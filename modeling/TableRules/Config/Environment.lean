import TableRules.Keyed
import TableRules.Log.Layout

/-!
# The environment

Variables of the environment, and what the log of a run takes from them.
-/

namespace TableRules

/-- Variables and their values. -/
abbrev Environment : Type := List (String × String)

namespace Environment

/-- The value of a variable. -/
def value? (e : Environment) (name : String) : Option String := e.lookup name

/-- The variable for the number of workers. -/
def workers : String := "RULEVAL_MAX_WORKERS"

/-- The variable for the least level of the log. -/
def logLevel : String := "LOG_LEVEL"

/-- The variable for the layout of the log. -/
def logLayout : String := "LOG_FORMAT"

/-- The variable for the folder of reports. -/
def reportFolder : String := "RULEVAL_LOG_DIR"

end Environment

/-- How a log is written: from a least level on, and in a layout. -/
structure LogSetup where
  least : LogLevel
  layout : LogLayout
  deriving DecidableEq, Repr

/-- The setup of a log from names. What is not named comes from the environment; an unknown level
stands for `INFO`, and an unknown layout is text. -/
def LogSetup.ofNames (e : Environment) (level layout : Option String) : LogSetup :=
  let level := (level.filter (· != "")).getD ((e.value? Environment.logLevel).getD "INFO")
  let layout := (layout.filter (· != "")).getD ((e.value? Environment.logLayout).getD "json")
  ⟨(LogLevel.ofName? level).getD .info, if layout == LogLayout.json.name then .json else .text⟩

end TableRules
