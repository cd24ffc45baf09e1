/-
The arguments of a command line.

Options come before the name of a command and options of the command after it.  An
option has a long name and perhaps a letter; letters may be run together.  A value is
attached, with or without an equals sign after a letter and with one after a long
name, or it is the next argument, which then must not look like an option.  An option
is given once.

An attached value is checked at once.  A value that is an argument of its own is checked
when the next option is met or when everything has been read, the arguments of the
command included, so a command may be asked for its version after a wrong value.
-/
import Custody.Settings

namespace Custody.CommandLine

/-! ### Descriptions of options -/

/-- An option. -/
structure OptionSpec where
  long : String
  letter : Option Char
  /-- Which values are taken; an option without values is a flag. -/
  accepts : Option (String → Bool)

/-- An option with any value. -/
def OptionSpec.anyText (long : String) : OptionSpec := ⟨long, none, some fun _ => true⟩

/-- A flag. -/
def OptionSpec.flag (long : String) (letter : Char) : OptionSpec := ⟨long, some letter, none⟩

/-- A number of decimals: an integer, perhaps with a sign, from 0 to 38. -/
def readDecimals? (text : String) : Option UInt8 :=
  let (negative, digits) := match text.toList with
    | '-' :: rest => (true, rest)
    | '+' :: rest => (false, rest)
    | rest => (false, rest)
  match Decimal.natural? digits with
  | none => none
  | some n => if n ≤ 38 ∧ (negative → n = 0) then some (UInt8.ofNat n) else none

/-- A word of sixty-four bits. -/
def readWord? (text : String) : Option UInt64 := Settings.word? text.toList

/-- The options before a command. -/
def generalOptions : List OptionSpec :=
  [⟨"config", some 'c', some fun v => v ≠ ""⟩,
    ⟨"output", some 'o', some fun v => (OutputFormat.ofWord? v).isSome⟩,
    .flag "verbose" 'v']

/-- The options of `init`. -/
def initOptions : List OptionSpec := [.flag "force" 'f']

/-- The options of `simulate` and `estimate`. -/
def scenarioOptions : List OptionSpec :=
  [.anyText "deposit", ⟨"decimals", none, some fun v => (readDecimals? v).isSome⟩,
    .anyText "price", ⟨"threshold", none, some fun v => (readWord? v).isSome⟩,
    ⟨"penalty", none, some fun v => (readWord? v).isSome⟩, .anyText "debt", .anyText "repay"]

/-! ### Scanning -/

/-- Why scanning stops early. -/
inductive Stop where
  /-- The arguments are wrong. -/
  | wrong
  /-- The version is asked for. -/
  | version
  /-- Help is asked for. -/
  | help
deriving DecidableEq

/-- The options that were given, with their values. -/
abbrev Given := List (String × String)

/-- Record an option, which must not have been given before and whose value has to be
acceptable. -/
def record (given : Given) (spec : OptionSpec) (value : String) : Except Stop Given :=
  if given.any (fun g => g.1 = spec.long) then .error .wrong
  else
    match spec.accepts with
    | none => .ok (given ++ [(spec.long, value)])
    | some accepts =>
      if accepts value then .ok (given ++ [(spec.long, value)]) else .error .wrong

/-- Whether an argument cannot be the value of an option before it. -/
def looksLikeOption (argument : String) : Bool :=
  match argument.toList with
  | '-' :: _ :: _ => true
  | _ => false

/-- An option of which more has to be read or checked. -/
inductive Pending where
  | nothing
  /-- The value of the option is the next argument. -/
  | unvalued (spec : OptionSpec)
  /-- The value has been read and not been checked. -/
  | unchecked (spec : OptionSpec) (value : String)

/-- Check the value that was read last; there has to be one. -/
def settle (given : Given) : Pending → Except Stop Given
  | .nothing => .ok given
  | .unvalued _ => .error .wrong
  | .unchecked spec value => record given spec value

/-- A value attached to a letter, less an equals sign. -/
def attached : List Char → String
  | '=' :: rest => String.ofList rest
  | rest => String.ofList rest

/-- Read letters run together. -/
def letters (specs : List OptionSpec) (given : Given) : List Char → Except Stop (Given × Pending)
  | [] => .ok (given, .nothing)
  | 'V' :: _ => .error .version
  | 'h' :: _ => .error .help
  | c :: rest =>
    match specs.find? fun spec => spec.letter = some c with
    | none => .error .wrong
    | some spec =>
      match spec.accepts, rest with
      | none, rest => do letters specs (← record given spec "") rest
      | some _, [] => .ok (given, .unvalued spec)
      | some _, rest => do return (← record given spec (attached rest), .nothing)

/-- A long name and the value attached to it, if there is an equals sign. -/
def splitName (name : List Char) : String × Option String :=
  let before := String.ofList (name.takeWhile (· ≠ '='))
  match name.dropWhile (· ≠ '=') with
  | [] => (before, none)
  | _ :: value => (before, some (String.ofList value))

/-- Read a long option. -/
def long (specs : List OptionSpec) (given : Given) (name : List Char) :
    Except Stop (Given × Pending) :=
  match splitName name with
  | ("version", none) => .error .version
  | ("help", none) => .error .help
  | (name, value) =>
    match specs.find? fun spec => spec.long = name with
    | none => .error .wrong
    | some spec =>
      match spec.accepts, value with
      | none, none => do return (← record given spec "", .nothing)
      | none, some _ => .error .wrong
      | some _, none => .ok (given, .unvalued spec)
      | some _, some value => do return (← record given spec value, .nothing)

/-- What scanning found: the options, and the arguments from the first that is none. -/
structure Scan where
  given : Given
  pending : Pending
  rest : List String
  /-- Whether two hyphens ended the options. -/
  ended : Bool

/-- Scan options up to the first argument that belongs to none. -/
def scan (specs : List OptionSpec) (given : Given) (pending : Pending) :
    List String → Except Stop Scan
  | [] => .ok ⟨given, pending, [], false⟩
  | argument :: rest =>
    match pending, argument.toList with
    | .unvalued spec, _ =>
      if looksLikeOption argument then .error .wrong
      else scan specs given (.unchecked spec argument) rest
    | pending, ['-', '-'] => .ok ⟨given, pending, rest, true⟩
    | pending, '-' :: '-' :: name => do
      let (given, pending) ← long specs (← settle given pending) name
      scan specs given pending rest
    | pending, '-' :: c :: cs => do
      let (given, pending) ← letters specs (← settle given pending) (c :: cs)
      scan specs given pending rest
    | pending, _ => .ok ⟨given, pending, argument :: rest, false⟩

/-- Scan the options of a command, which takes no other arguments. -/
def scanAll (specs : List OptionSpec) (arguments : List String) : Except Stop Given := do
  let found ← scan specs [] .nothing arguments
  if found.rest = [] then settle found.given found.pending else throw .wrong

/-! ### Commands -/

/-- The texts of a scenario as they were given. -/
structure ScenarioTexts where
  deposit : String
  decimals : UInt8
  price : String
  threshold : UInt64
  penalty : UInt64
  debt : String
  repay : String
deriving DecidableEq

/-- What to do. -/
inductive Command where
  /-- Write a file with the usual settings. -/
  | init (force : Bool)
  /-- Run a liquidation. -/
  | simulate (texts : ScenarioTexts)
  /-- Preview a liquidation. -/
  | estimate (texts : ScenarioTexts)
  /-- Show the settings in force. -/
  | params
deriving DecidableEq

/-- A command with the options before it. -/
structure Invocation where
  config : Option String
  output : Option OutputFormat
  verbose : Bool
  command : Command
deriving DecidableEq

/-- What the arguments ask for. -/
inductive Request where
  | run (invocation : Invocation)
  /-- The version, of a command if one is named. -/
  | version (command : Option String)
  | help
  | wrong
deriving DecidableEq

/-- The value of an option that was given. -/
def value? (given : Given) (name : String) : Option String :=
  (given.find? fun g => g.1 = name).map (·.2)

/-- The texts of a scenario; debt and repayment have to be given. -/
def scenarioTexts? (given : Given) : Option ScenarioTexts := do
  return {
    deposit := (value? given "deposit").getD "1"
    decimals := ((value? given "decimals").bind readDecimals?).getD 18
    price := (value? given "price").getD "2000"
    threshold := ((value? given "threshold").bind readWord?).getD 8000
    penalty := ((value? given "penalty").bind readWord?).getD 500
    debt := ← value? given "debt"
    repay := ← value? given "repay" }

/-- The options of a command and what it makes of them. -/
def commandNamed? (name : String) :
    Option (List OptionSpec × (Given → Option Command)) :=
  match name with
  | "init" => some (initOptions, fun given => some (.init (value? given "force").isSome))
  | "simulate" => some (scenarioOptions, fun given => (scenarioTexts? given).map .simulate)
  | "estimate" => some (scenarioOptions, fun given => (scenarioTexts? given).map .estimate)
  | "params" => some ([], fun _ => some .params)
  | _ => none

/-- What a scan that stopped early asks for. -/
def Stop.request (command : Option String) : Stop → Request
  | .wrong => .wrong
  | .version => .version command
  | .help => .help

/-- A command with the options before it; the path of the settings may come from the
environment. -/
def invoke (general : Given) (path : Option String) (command : Command) : Request :=
  match value? general "config", path with
  | none, some "" => .wrong
  | config, path =>
    .run {
      config := config <|> path
      output := (value? general "output").bind OutputFormat.ofWord?
      verbose := (value? general "verbose").isSome
      command := command }

/-- What a command and its arguments ask for. -/
def commandRequest (name : String) (arguments : List String) : Except Request Command :=
  match commandNamed? name with
  | none => .error .wrong
  | some (specs, make) =>
    match scanAll specs arguments with
    | .error stop => .error (stop.request (some name))
    | .ok given =>
      match make given with
      | none => .error .wrong
      | some command => .ok command

/-- Help about a command or about all of them.  Help has no options of its own. -/
def helpAbout : List String → Request
  | [] => .help
  | [name] => if (commandNamed? name).isSome ∨ name = "help" then .help else .wrong
  | _ => .wrong

/-- What the options, the name of a command and its arguments ask for. -/
def requestOf (general : Scan) (path : Option String) (name : String)
    (arguments : List String) : Request :=
  if name = "help" then helpAbout arguments
  else
    match commandRequest name arguments with
    | .error request => request
    | .ok command =>
      match settle general.given general.pending with
      | .error stop => stop.request none
      | .ok given => invoke given path command

/-- What arguments ask for; `path` is the path of the settings in the environment. -/
def parse (path : Option String) (arguments : List String) : Request :=
  match scan generalOptions [] .nothing arguments with
  | .error stop => stop.request none
  | .ok general =>
    match general.ended, general.rest with
    | false, name :: arguments => requestOf general path name arguments
    | _, _ => .wrong

end Custody.CommandLine
