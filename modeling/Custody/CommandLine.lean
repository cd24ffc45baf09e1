/-
The commands of the operator's tool.

A command is a function of its arguments, the environment and what is found at the
path of the settings.  The settings are loaded before any command runs, so a command
that would replace a broken file is refused like the others.  A command that writes a file
does so before it prints anything.
-/
import Custody.CommandLine.Arguments
import Custody.CommandLine.Files
import Custody.Scenario
import Custody.Units
import Custody.Calendar

namespace Custody.CommandLine

/-- The version of the tool. -/
def version : String := "0.1.0"

/-- The name of the protocol. -/
def protocolName : String := "mUSD"

/-- The name of the tool. -/
def toolName : String := "musd"

/-- What a command may ask about its surroundings. -/
structure Surroundings where
  /-- The variables of the environment. -/
  lookup : String → Option String
  /-- What is found at a path. -/
  look : String → Found
  /-- Whether the output is a terminal. -/
  terminal : Bool

/-- Whether the output is coloured.  A terminal that knows colours gets them unless a
variable says no, and a variable can ask for them wherever the output goes. -/
def Surroundings.colours (s : Surroundings) : Bool :=
  let knows := s.terminal && (s.lookup "NO_COLOR").isNone && (s.lookup "TERM").any (· ≠ "dumb")
  knows && (s.lookup "CLICOLOR").getD "1" ≠ "0" || (s.lookup "CLICOLOR_FORCE").getD "0" ≠ "0"

/-- What a command leaves. -/
structure Outcome where
  code : UInt32
  output : String
  errors : String
  /-- A file to be written before anything is printed: its path and its text. -/
  file : Option (String × String)
deriving DecidableEq

/-- A command that printed this. -/
def printed (text : String) : Outcome := ⟨0, text, "", none⟩

/-- A command that was refused. -/
def refused (colours : Bool) (message : String) : Outcome :=
  ⟨1, "", paint colours [.red, .bold] "Error:" ++ " " ++ message ++ "\n", none⟩

/-- A command whose file could not be written. -/
def unwritten (colours : Bool) (path reason : String) : Outcome :=
  refused colours s!"writing {path}: {(SettingsError.io reason).message}"

/-! ### Settings -/

/-- A path below a directory. -/
def join (directory name : String) : String :=
  if directory = "" then name
  else if directory.endsWith "/" then directory ++ name
  else directory ++ "/" ++ name

/-- The path of the settings when none is given. -/
def defaultPath (lookup : String → Option String) : String :=
  join (join ((lookup "HOME").getD "") ".musd") "config.json"

/-- The path of the settings. -/
def path (s : Surroundings) (i : Invocation) : String :=
  i.config.getD (defaultPath s.lookup)

/-- The settings in force; the form of output may be given with the command. -/
def settings (s : Surroundings) (i : Invocation) : Except SettingsError Settings := do
  let file ← match s.look (path s i) with
    | .nothing => .ok none
    | .text content => .ok (some content)
    | .unreadable reason => .error (.io reason)
  let settings ← Settings.resolve file s.lookup
  return { settings with output := i.output.getD settings.output }

/-! ### Reports -/

/-- An amount of the debt token. -/
def debtText (a : Amount) : String :=
  Units.format a debtDecimals ++ " " ++ protocolName

/-- A liquidation in JSON. -/
def outcomeJson (o : Custody.Outcome) : Json :=
  .record [("borrower", .text o.borrower.toHex), ("liquidator", .text o.liquidator.toHex),
    ("token", .text o.token.toHex), ("health_factor_before", .natural o.healthBefore.toNat),
    ("debt_repaid", .natural o.debtRepaid.val),
    ("collateral_seized", .natural o.collateralSeized.val),
    ("bad_debt_recorded", .natural o.badDebtRecorded.val)]

/-- A simulated liquidation in JSON. -/
def simulationJson (s : Simulation) : Json :=
  .record [("timestamp", .natural s.timestamp.toNat), ("outcome", outcomeJson s.outcome),
    ("health_factor_after", .natural s.healthAfter.toNat),
    ("remaining_debt", .natural s.remainingDebt.val),
    ("remaining_collateral", .natural s.remainingCollateral.val),
    ("total_bad_debt", .natural s.totalBadDebt.val)]

/-- The report of a simulated liquidation. -/
def simulationReport (decimals : UInt8) (s : Simulation) : Report where
  title := "Liquidation Outcome"
  rows := [
    ("As of", Timestamp.format s.timestamp),
    ("Health factor before", Units.ratio s.outcome.healthBefore),
    ("Debt repaid", debtText s.outcome.debtRepaid),
    ("Collateral seized", Units.format s.outcome.collateralSeized decimals),
    ("Bad debt recorded", debtText s.outcome.badDebtRecorded),
    ("Remaining debt", debtText s.remainingDebt),
    ("Remaining collateral", Units.format s.remainingCollateral decimals),
    ("Health factor after", Units.ratio s.healthAfter)]
  payload := simulationJson s

/-- A preview of a liquidation in JSON. -/
def estimateJson (e : Estimate) : Json :=
  .record [("timestamp", .natural e.timestamp.toNat), ("health_factor", .natural e.health.toNat),
    ("liquidatable", .bool e.liquidatable), ("max_repayable", .natural e.maxRepayable.val),
    ("quote", .record [("debt_to_repay", .natural e.quote.repay.val),
      ("collateral_to_seize", .natural e.quote.seize.val),
      ("bad_debt", .natural e.quote.shortfall.val), ("capped", .bool e.quote.capped)])]

/-- Whether a borrower can be liquidated, in words. -/
def liquidatableText (colours liquidatable : Bool) : String :=
  if liquidatable then paint colours [.red, .bold] "yes" else paint colours [.green] "no"

/-- The report of a preview. -/
def estimateReport (colours : Bool) (decimals : UInt8) (e : Estimate) : Report where
  title := "Seizure Estimate"
  rows := [
    ("As of", Timestamp.format e.timestamp),
    ("Health factor", Units.ratio e.health),
    ("Liquidatable", liquidatableText colours e.liquidatable),
    ("Max repayable", debtText e.maxRepayable),
    ("Debt to repay", debtText e.quote.repay),
    ("Collateral to seize", Units.format e.quote.seize decimals),
    ("Bad debt", debtText e.quote.shortfall),
    ("Capped", if e.quote.capped then "true" else "false")]
  payload := estimateJson e

/-- The report of the settings in force, found at a path. -/
def settingsReport (path : String) (s : Settings) : Report where
  title := protocolName ++ " Parameters"
  rows := [
    ("Config", path),
    ("Close factor", Units.percent s.liquidation.closeFactor),
    ("Full liquidation below", Units.ratio s.liquidation.fullThreshold),
    ("Dust floor", debtText dustFloor),
    ("Log filter", s.logFilter),
    ("Output", s.output.name)]
  payload := .record [
    ("close_factor_bps", .natural s.liquidation.closeFactor.toNat),
    ("config_path", .text path),
    ("full_liquidation_threshold_bps", .natural s.liquidation.fullThreshold.toNat),
    ("log_filter", .text s.logFilter),
    ("min_liquidation_amount", .text (toString dustFloor)),
    ("output", .text s.output.name),
    ("version", .text version)]

/-- Print a report; a payload ends its line. -/
def report (s : Surroundings) (format : OutputFormat) (r : Report) : Outcome :=
  printed (r.render format s.colours ++ if format = .text then "" else "\n")

/-! ### Commands -/

/-- An error with the step in which it arose. -/
def during {α : Type} (step : String) : Except Error α → Except String α
  | .error e => .error s!"{step}: {e.message}"
  | .ok a => .ok a

/-- The scenario that texts describe. -/
def scenario (t : ScenarioTexts) : Except String Scenario := do
  return {
    deposit := ← during "--deposit" (Units.parse t.deposit t.decimals)
    decimals := t.decimals
    price := ← during "--price" (Units.parse t.price debtDecimals)
    threshold := t.threshold
    penalty := t.penalty
    debt := ← during "--debt" (Units.parse t.debt debtDecimals)
    repay := ← during "--repay" (Units.parse t.repay debtDecimals) }

/-- Print a report or say why there is none. -/
def reportOf (s : Surroundings) (format : OutputFormat) : Except String Report → Outcome
  | .error message => refused s.colours message
  | .ok r => report s format r

/-- Write a file with the usual settings. -/
def init (s : Surroundings) (path : String) (force : Bool) : Outcome :=
  if s.look path ≠ .nothing ∧ ¬ force then
    refused s.colours s!"Config file already exists: {path}. Use --force to overwrite."
  else
    ⟨0, paint s.colours [.green] "✓" ++ " Configuration written to "
      ++ paint s.colours [.yellow] path ++ "\n", "", some (path, Settings.standard.save)⟩

/-- Run a command with the settings in force. -/
def execute (s : Surroundings) (path : String) (settings : Settings) : Command → Outcome
  | .init force => init s path force
  | .simulate texts => reportOf s settings.output do
    let scenario ← scenario texts
    let simulation ← during "liquidation failed" (scenario.simulate settings.liquidation)
    return simulationReport scenario.decimals simulation
  | .estimate texts => reportOf s settings.output do
    let scenario ← scenario texts
    let estimate ← during "estimate failed" (scenario.estimate settings.liquidation)
    return estimateReport s.colours scenario.decimals estimate
  | .params => report s settings.output (settingsReport path settings)

/-- Load the settings and run a command. -/
def invocation (s : Surroundings) (i : Invocation) : Outcome :=
  match settings s i with
  | .error e => refused s.colours s!"loading configuration from {path s i}: {e.message}"
  | .ok settings => execute s (path s i) settings i.command

/-- How to use the tool. -/
def usage : String :=
  "Usage: musd [-c PATH] [-o FORMAT] [-v] init | simulate | estimate | params\n"

/-- Answer arguments.  Wrong arguments are answered by the exit code alone. -/
def run (s : Surroundings) (arguments : List String) : Outcome :=
  match parse (s.lookup "MUSD_CONFIG") arguments with
  | .wrong => ⟨2, "", "", none⟩
  | .help => printed usage
  | .version none => printed s!"{toolName} {version}\n"
  | .version (some command) => printed s!"{toolName}-{command} {version}\n"
  | .run i => invocation s i

/-! ### Among files -/

/-- What a command leaves of a tree of files, once it has written the file that it asks for. -/
def carryOut (colours : Bool) (f : Files) (outcome : Outcome) : Outcome × Files :=
  match outcome.file with
  | none => (outcome, f)
  | some (path, content) =>
    match Files.write path content f with
    | .ok _ written => (outcome, written)
    | .error fault written => (unwritten colours path fault.message, written)

/-- Answer arguments in a tree of files. -/
def answer (lookup : String → Option String) (terminal : Bool) (f : Files)
    (arguments : List String) : Outcome × Files :=
  let s : Surroundings := ⟨lookup, f.look, terminal⟩
  carryOut s.colours f (run s arguments)

end Custody.CommandLine
