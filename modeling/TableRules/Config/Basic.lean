import TableRules.Config.EnvFile
import TableRules.FieldFault

/-!
# Configurations

The configuration of a run: how many workers evaluate, how the log is written, and the folder of
reports. Fields that are not given keep what they are; those that are given are checked, and all
that are wrong are told together.

A number of workers that is given as a text is read with some leniency: white space around it, a
plus sign, leading zeros, single underscores between digits and a fraction of zeros change nothing.
-/

namespace TableRules

/-- The configuration of a run. -/
structure Config where
  workers : Nat
  logLevel : LogLevel
  logLayout : LogLayout
  reportFolder : Path
  deriving DecidableEq, Repr

/-- A number of workers, as it is given. -/
inductive WorkerCount
  | number (n : Int)
  | text (s : String)
  deriving DecidableEq, Repr

/-- Fields that are given for a configuration. -/
structure ConfigFields where
  workers : Option WorkerCount
  logLevel : Option String
  logLayout : Option String
  reportFolder : Option String
  deriving DecidableEq, Repr

namespace WorkerCount

/-- White space around a number: the information separators do not belong to it. -/
def isSpace (c : Char) : Bool := Text.isBlank c && !(0x1C ≤ c.toNat && c.toNat ≤ 0x1F)

/-- Drops white space at both ends. -/
def trimSpaces (cs : List Char) : List Char :=
  ((cs.dropWhile isSpace).reverse.dropWhile isSpace).reverse

/-- Reads digits, between which single underscores may stand. -/
def readDigits? (cs : List Char) : Option Nat :=
  let groups := Text.splitAtChars (· == '_') cs
  if groups.all fun g => !g.isEmpty && g.all Char.isDigit then
    some (Text.digitsValue groups.flatten)
  else none

/-- Reads a number without a sign: digits, and a fraction of zeros that may be missing. -/
def readMagnitude? (cs : List Char) : Option Nat :=
  match cs.span (· != '.') with
  | (whole, []) => readDigits? whole
  | (whole, _ :: fraction) => if fraction.all (· == '0') then readDigits? whole else none

/-- The number that is given. -/
def value? : WorkerCount → Option Int
  | .number n => some n
  | .text s =>
    match trimSpaces s.toList with
    | '-' :: cs => (readMagnitude? cs).map fun n => -n
    | '+' :: cs => (readMagnitude? cs).map fun n => n
    | cs => (readMagnitude? cs).map fun n => n

/-- The number of workers that is given, if it is from 1 to 64. -/
def check (w : WorkerCount) : Except FieldFault Nat :=
  match w.value? with
  | none => .error (.notInteger "max_workers")
  | some n =>
    if n < 1 then .error (.below "max_workers" "1")
    else if 64 < n then .error (.above "max_workers" "64")
    else .ok n.toNat

end WorkerCount

namespace Config

/-- The configuration of a run for which nothing is given. -/
def standard : Config := ⟨1, .info, .json, Path.ofText "logs"⟩

/-- Reads the least level of the log. -/
def checkLevel (s : String) : Except FieldFault LogLevel :=
  match LogLevel.ofName? s with
  | some l => .ok l
  | none =>
    let names := Text.joinWith ", " (LogLevel.all.map LogLevel.name)
    .error (.rejected (some "log_level") ("log_level must be one of " ++ names))

/-- Reads the layout of the log. -/
def checkLayout (s : String) : Except FieldFault LogLayout :=
  match LogLayout.ofName? s with
  | some l => .ok l
  | none => .error (.notOneOf "log_format" (LogLayout.all.map LogLayout.name))

/-- Checks a field that may be given; without it, a value is kept. -/
def given {α β : Type} (check : α → Except FieldFault β) (kept : β) :
    Option α → Except FieldFault β
  | none => .ok kept
  | some a => check a

/-- A configuration with some fields replaced. -/
def withFields (c : Config) (f : ConfigFields) : Except (List FieldFault) Config :=
  let workers := given WorkerCount.check c.workers f.workers
  let level := given checkLevel c.logLevel f.logLevel
  let layout := given checkLayout c.logLayout f.logLayout
  match workers, level, layout with
  | .ok w, .ok l, .ok y => .ok ⟨w, l, y, (f.reportFolder.map Path.ofText).getD c.reportFolder⟩
  | _, _, _ =>
    .error (FieldFault.ofResult workers ++ FieldFault.ofResult level ++
      FieldFault.ofResult layout)

/-- The configuration that an environment gives. An empty value gives nothing. -/
def ofEnvironment (e : Environment) : Except (List FieldFault) Config :=
  let value (name : String) : Option String := (e.value? name).filter (· != "")
  standard.withFields
    ⟨(value Environment.workers).map .text, value Environment.logLevel,
      value Environment.logLayout, value Environment.reportFolder⟩

end Config

end TableRules
