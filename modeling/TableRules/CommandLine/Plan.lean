import TableRules.CommandLine.Arguments
import TableRules.CommandLine.Value
import TableRules.Config.Basic
import TableRules.Session.Basic

/-!
# Plans of runs

A plan is a run whose options are in order and whose configuration is known. The values are checked
in the order of the options, and before the configuration; the first value that is wrong is told
(`PlanFault.refused`).
-/

namespace TableRules

/-- A failure without an exit status. -/
inductive RunFault
  | value (option : String) (fault : ValueFault)
  | envFile (fault : Text.Utf8Fault)
  | variable (fault : VariableFault)
  | session (fault : SessionFault)

/-- The wording of a failure. -/
def RunFault.message : RunFault → String
  | .value option f => f.message option
  | .envFile f => f.message
  | .variable f => f.message
  | .session f => f.message

/-- A run whose options are in order. -/
structure RunPlan where
  session : SessionOptions
  data : String
  config : Config
  metricsFile : Option String

/-- Why there is no plan: a refusal with a message, or a failure of another kind. -/
inductive PlanFault
  | refused (message : String)
  | failed (fault : RunFault)

namespace RunPlan

/-- The value of an option, or why there is no plan. -/
def optionValue {α : Type} (option : CommandOption) (result : Except ValueFault α) :
    Except PlanFault α :=
  result.mapError fun
    | .tooManyDigits => .failed (.value option.title .tooManyDigits)
    | f => .refused (f.message option.title)

/-- The value of an option that may be left out. -/
def optionalValue {α β : Type} (option : CommandOption) (check : α → Except ValueFault β) :
    Option α → Except PlanFault (Option β)
  | none => .ok none
  | some a => (optionValue option (check a)).map some

/-- An option's value as an argument. -/
def textArgument (s : String) : Argument := .text (.text s)

/-- The environment with the variables of an environment file, if there is one. -/
def loadedEnvironment (e : Environment) (envFile : Entry) : Except PlanFault Environment :=
  match envFile.text with
  | .error (.notText f) => .error (.failed (.envFile f))
  | .error (.obstacle _) => .ok e
  | .ok text => (e.load text).mapError fun f => .failed (.variable f)

/-- The wording of wrong fields of a configuration. -/
def configMessage (faults : List FieldFault) : String :=
  Text.joinWith "\n" (faults.map fun f =>
    Text.joinWith "." f.location ++ ": " ++ f.message)

/-- The plan of a run with given arguments, where `envFile` is what is found at the path of the
environment file. The values are checked in the order of the options, and before the
configuration. -/
def make (a : Arguments) (e : Environment) (envFile : Option Entry) : Except PlanFault RunPlan := do
  let path (o : CommandOption) (s : String) := optionValue o (textArgument s).toPathText
  let rules ← path .rules a.rules
  let data ← path .data a.data
  let grammar ← path .grammar a.grammar
  let sheet ← optionValue .sheet (textArgument a.sheet).toSheet
  let delimiter ← optionalValue .delimiter Argument.toDelimiter
    ((a.delimiter.filter (· != "")).map textArgument)
  let workers ← optionalValue .workers Argument.toWorkerCount
    (a.workers.map fun n => .number (.integer n))
  let env ← match envFile with
    | some entry => loadedEnvironment e entry
    | none => pure e
  let refuse (faults : List FieldFault) : PlanFault := .refused (configMessage faults)
  let loaded ← (Config.ofEnvironment env).mapError refuse
  let config ← (loaded.withFields ⟨workers.map .number, none, none, a.logFolder⟩).mapError refuse
  return ⟨⟨rules, some grammar, config.workers, ⟨sheet, delimiter⟩⟩, data, config,
    a.metricsFile.filter (· != "")⟩

end RunPlan

end TableRules
