import TableRules.Text.Blank
import TableRules.Text.Quoted
import TableRules.Value.Coercion

/-!
# Arguments

The options of a command line are read in two passes. The first tells options from values: an
argument that starts with a hyphen is an option, unless it is a lone hyphen, a negative number or
has a space in it; an option may be spelled by the start of its name as long as only one name has
it, and may have its value behind an equals sign. Behind two hyphens there are no options. The
second pass takes the options from left to right, each with its value; of a repeated option the last
value counts.
-/

namespace TableRules

/-- The options of a command line. -/
inductive CommandOption
  | help
  | rules
  | data
  | grammar
  | logFolder
  | workers
  | sheet
  | delimiter
  | metricsFile
  | envFile
  deriving DecidableEq, Repr

namespace CommandOption

/-- All options. -/
def all : List CommandOption :=
  [.help, .rules, .data, .grammar, .logFolder, .workers, .sheet, .delimiter, .metricsFile, .envFile]

/-- The names of an option. -/
def names : CommandOption → List String
  | .help => ["-h", "--help"]
  | .rules => ["--rules"]
  | .data => ["--data"]
  | .grammar => ["--grammar"]
  | .logFolder => ["--log-dir"]
  | .workers => ["--workers"]
  | .sheet => ["--sheet"]
  | .delimiter => ["--delimiter"]
  | .metricsFile => ["--metrics-file"]
  | .envFile => ["--env-file"]

/-- An option, by all its names. -/
def title (o : CommandOption) : String := Text.joinWith "/" o.names

/-- The options that have to be given. -/
def required : List CommandOption := [.rules, .data, .grammar]

/-- All names, each with its option. -/
def named : List (String × CommandOption) := all.flatMap fun o => o.names.map fun n => (n, o)

/-- The option with a name. -/
def ofName? (name : String) : Option CommandOption := named.lookup name

/-- The options with a name that starts in a given way. -/
def startingWith (start : String) : List (String × CommandOption) :=
  named.filter fun e => Text.startsWith e.1 start

end CommandOption

/-- What is wrong with a command line. -/
inductive ArgumentFault
  | ambiguous (given : String) (matching : List String)
  | noValue (option : CommandOption)
  | extraValue (option : CommandOption) (value : String)
  | notInteger (option : CommandOption) (value : String)
  | missing (options : List CommandOption)
  | unknown (arguments : List String)
  deriving DecidableEq, Repr

/-- The wording of a fault. -/
def ArgumentFault.message : ArgumentFault → String
  | .ambiguous given matching =>
    "ambiguous option: " ++ given ++ " could match " ++ Text.joinWith ", " matching
  | .noValue o => "argument " ++ o.title ++ ": expected one argument"
  | .extraValue o value =>
    "argument " ++ o.title ++ ": ignored explicit argument " ++ Text.quoted value
  | .notInteger o value => "argument " ++ o.title ++ ": invalid int value: " ++ Text.quoted value
  | .missing options =>
    "the following arguments are required: " ++
      Text.joinWith ", " (options.map CommandOption.title)
  | .unknown arguments => "unrecognized arguments: " ++ Text.joinWith " " arguments

/-! ### Telling options from values -/

/-- An argument as the first pass sees it. `stop` is two hyphens, `other` an option that is not one
of the known. -/
inductive ArgumentPart
  | value (text : String)
  | known (text : String) (option : CommandOption) (attached : Option String)
  | other (text : String)
  | stop
  deriving DecidableEq, Repr

namespace ArgumentPart

/-- The argument that a part was made from. -/
def text : ArgumentPart → String
  | .value s => s
  | .known s _ _ => s
  | .other s => s
  | .stop => "--"

/-- The start of an argument before an equals sign, and its value behind it. -/
def splitValue (s : String) : String × Option String :=
  match s.toList.span (· != '=') with
  | (_, []) => (s, none)
  | (before, _ :: after) => (String.ofList before, some (String.ofList after))

/-- A text without the line feed that may end it. -/
def dropLineFeed (cs : List Char) : List Char :=
  if cs.getLast? == some '\n' then cs.dropLast else cs

/-- Whether a text is a negative number. -/
def isNegativeNumber (s : String) : Bool :=
  match dropLineFeed s.toList with
  | '-' :: cs =>
    match cs.span Text.isDigit with
    | (whole, []) => !whole.isEmpty
    | (_, '.' :: fraction) => !fraction.isEmpty && fraction.all Text.isDigit
    | _ => false
  | _ => false

/-- The options that an argument may be meant as, with the values attached to them. Behind a single
hyphen only a name of one letter has its value attached. -/
def candidates (s : String) : List (String × CommandOption × Option String) :=
  if Text.startsWith s "--" then
    let (start, attached) := splitValue s
    (CommandOption.startingWith start).map fun (name, o) => (name, o, attached)
  else
    let short := String.ofList (s.toList.take 2)
    (CommandOption.startingWith short).filterMap fun (name, o) =>
      if name == short then some (name, o, some (String.ofList (s.toList.drop 2)))
      else if Text.startsWith name s then some (name, o, none)
      else none

/-- An argument that no two hyphens stand before, as a part. -/
def ofArgument (s : String) : Except ArgumentFault ArgumentPart :=
  let (start, attached) := splitValue s
  if !Text.startsWith s "-" || s == "-" then .ok (.value s)
  else match CommandOption.ofName? s, CommandOption.ofName? start with
    | some o, _ => .ok (.known s o none)
    | none, some o => .ok (.known s o attached)
    | none, none =>
      match candidates s with
      | [(_, o, attached)] => .ok (.known s o attached)
      | [] =>
        if isNegativeNumber s || s.toList.contains ' ' then .ok (.value s) else .ok (.other s)
      | several => .error (.ambiguous s (several.map (·.1)))

/-- The parts of a command line. -/
def ofArguments : List String → Except ArgumentFault (List ArgumentPart)
  | [] => .ok []
  | s :: rest =>
    if s == "--" then .ok (.stop :: rest.map .value)
    else do
      let part ← ofArgument s
      let parts ← ofArguments rest
      return part :: parts

end ArgumentPart

/-! ### Taking options -/

/-- The options that were taken, with their values, and the arguments that were left. -/
structure TakenOptions where
  values : List (CommandOption × String)
  left : List String
  deriving DecidableEq, Repr

namespace TakenOptions

/-- Reads a whole number in a command line: white space may stand around it, and single underscores
between its digits. -/
def readInteger? (s : String) : Option Int :=
  let (negative, cs) := scanSign (Text.trimChars s.toList)
  let groups := Text.splitAtChars (· == '_') cs
  let digits := groups.flatten
  if (groups.all fun g => !g.isEmpty && g.all Text.isDigit) && digits.length ≤ digitLimit then
    let n : Int := Text.digitsValue digits
    some (if negative then -n else n)
  else none

/-- Takes an option with its value. -/
def take (t : TakenOptions) (o : CommandOption) (value : String) :
    Except ArgumentFault TakenOptions :=
  if o = .workers && (readInteger? value).isNone then .error (.notInteger o value)
  else .ok ⟨(o, value) :: t.values, t.left⟩

/-- Leaves an argument. -/
def leave (t : TakenOptions) (p : ArgumentPart) : TakenOptions := ⟨t.values, t.left ++ [p.text]⟩

/-- What is refused of a value that is attached to an option of help: letters that ask for help
once more do no harm, and what follows them is not looked at unless it is a value behind an equals
sign or starts with a hyphen. -/
def refusedOfHelp (given value : String) : Option String :=
  if Text.startsWith given "--" then some value
  else match (given.toList.drop 1).dropWhile (· == 'h') with
    | '=' :: rest => some (String.ofList rest)
    | '-' :: rest => some (String.ofList ('-' :: rest))
    | _ => none

/-- Takes the options of a command line; none if help is asked for. -/
def ofParts (t : TakenOptions) : List ArgumentPart → Except ArgumentFault (Option TakenOptions)
  | [] => .ok (some t)
  | .known _ .help none :: _ => .ok none
  | .known s .help (some value) :: _ =>
    match refusedOfHelp s value with
    | none => .ok none
    | some refused => .error (.extraValue .help refused)
  | .known _ o (some value) :: rest => do ofParts (← t.take o value) rest
  | .known _ o none :: .value v :: rest => do ofParts (← t.take o v) rest
  | .known _ o none :: _ => .error (.noValue o)
  | p :: rest => ofParts (t.leave p) rest

end TakenOptions

/-- The values of the options of a command line. -/
structure Arguments where
  rules : String
  data : String
  grammar : String
  logFolder : Option String
  workers : Option Int
  sheet : String
  delimiter : Option String
  metricsFile : Option String
  envFile : Option String
  deriving DecidableEq, Repr

namespace Arguments

/-- The sheet that is read if none is asked for. -/
def firstSheet : String := "0"

/-- The values of options that were taken. -/
def ofTaken (t : TakenOptions) : Except ArgumentFault Arguments :=
  let value (o : CommandOption) : Option String := t.values.lookup o
  match value .rules, value .data, value .grammar with
  | some rules, some data, some grammar =>
    if t.left.isEmpty then
      .ok ⟨rules, data, grammar, value .logFolder,
        (value .workers).bind TakenOptions.readInteger?, (value .sheet).getD firstSheet,
        value .delimiter, value .metricsFile, value .envFile⟩
    else .error (.unknown t.left)
  | _, _, _ => .error (.missing (CommandOption.required.filter fun o => (value o).isNone))

/-- The values of a command line; none if help is asked for. -/
def read (arguments : List String) : Except ArgumentFault (Option Arguments) := do
  let parts ← ArgumentPart.ofArguments arguments
  match ← TakenOptions.ofParts ⟨[], []⟩ parts with
  | none => return none
  | some t => return some (← ofTaken t)

end Arguments

end TableRules
