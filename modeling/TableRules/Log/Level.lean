import TableRules.Text.LetterCase

/-!
# Log levels

The levels of log records, from the least to the most severe. Their names are read in any letter
case.
-/

namespace TableRules

/-- How severe a log record is. -/
inductive LogLevel
  | debug
  | info
  | warning
  | error
  | critical
  deriving DecidableEq, Repr

namespace LogLevel

/-- All levels, the least severe first. -/
def all : List LogLevel := [.debug, .info, .warning, .error, .critical]

/-- The name of a level. -/
def name : LogLevel → String
  | .debug => "DEBUG"
  | .info => "INFO"
  | .warning => "WARNING"
  | .error => "ERROR"
  | .critical => "CRITICAL"

/-- The level with a name. -/
def ofName? (s : String) : Option LogLevel := all.find? fun l => l.name == Text.upper s

/-- The place of a level among all levels. -/
def rank (l : LogLevel) : Nat := all.idxOf l

/-- Whether records of a level are written under a least level. -/
def shownUnder (least l : LogLevel) : Bool := least.rank ≤ l.rank

end LogLevel

end TableRules
