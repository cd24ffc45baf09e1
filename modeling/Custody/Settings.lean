/-
Settings of the command line.

Settings come from a JSON file and are then overridden by variables of the
environment.  Fields that the file leaves out have their usual values.  Overrides are
applied one by one; when one is refused, the earlier ones stay.
-/
import Custody.Json.Records
import Custody.Report
import Custody.Text.Blank

namespace Custody

/-- Sizing of liquidations, filter of the log, form of output. -/
structure Settings where
  liquidation : LiquidationParams
  logFilter : String
  output : OutputFormat
deriving DecidableEq

/-- Why settings are refused. -/
inductive SettingsError where
  /-- A file could not be read or written. -/
  | io (reason : String)
  /-- A text has the wrong form. -/
  | parse (reason : String)
  /-- Settings could not be written. -/
  | serialize (reason : String)
  /-- A value is out of range. -/
  | validation (reason : String)
deriving DecidableEq

/-- The wording of an error. -/
def SettingsError.message : SettingsError → String
  | io reason => s!"IO error: {reason}"
  | parse reason => s!"Parse error: {reason}"
  | serialize reason => s!"Serialization error: {reason}"
  | validation reason => s!"Validation error: {reason}"

namespace Settings

/-- The settings without a file. -/
def standard : Settings := ⟨.standard, "info", .text⟩

/-! ### Files -/

/-- The sizing of liquidations in JSON. -/
def liquidationJson (p : LiquidationParams) : Json :=
  .record [("close_factor_bps", .natural p.closeFactor.toNat),
    ("full_liquidation_threshold_bps", .natural p.fullThreshold.toNat)]

/-- Settings in JSON. -/
def toJson (s : Settings) : Json :=
  .record [("liquidation", liquidationJson s.liquidation), ("log_filter", .text s.logFilter),
    ("output", .text s.output.name)]

/-- The text that is written to a file. -/
def save (s : Settings) : String :=
  s.toJson.pretty

/-- A field that is there is read; one that is left out has its usual value. -/
def field? {α : Type} (usual : α) (read : Json → Option α) : Option Json → Option α
  | none => some usual
  | some v => read v

/-- Settings from JSON. -/
def ofJson? (v : Json) : Option Settings := do
  match ← v.optionalFields? ["liquidation", "log_filter", "output"] with
  | [liquidation, logFilter, output] =>
    return {
      liquidation := ← field? standard.liquidation LiquidationParams.ofJson? liquidation
      logFilter := ← field? standard.logFilter Json.toText? logFilter
      output := ← field? standard.output (fun v => v.tag?.bind OutputFormat.ofName?) output }
  | _ => none

/-- The wording for a file that is not of the right form. -/
def malformed : String := "malformed settings"

/-- Settings from the text of a file. -/
def load (text : String) : Except SettingsError Settings :=
  match (Json.ofText? text).bind ofJson? with
  | none => .error (.parse malformed)
  | some s => .ok s

/-! ### Environment -/

/-- The digits of a number with or without a plus sign in front. -/
def unsigned : List Char → List Char
  | '+' :: rest => rest
  | text => text

/-- A word of sixty-four bits from a text, which may have a plus sign. -/
def word? (text : List Char) : Option UInt64 := do
  let n ← Decimal.natural? (unsigned text)
  if n < UInt64.size then some (UInt64.ofNat n) else none

/-- Basis points from a variable. -/
def readBps (key value : String) : Except SettingsError UInt64 :=
  match word? (Blank.trim value.toList) with
  | none => .error (.parse s!"{key} is not a bps value: {value}")
  | some bps => .ok bps

/-- The form of output that a word means. -/
def readFormat (word : String) : Except SettingsError OutputFormat :=
  match OutputFormat.ofWord? word with
  | none => .error (.validation s!"Unknown format: {word}")
  | some format => .ok format

/-- Overrides by one variable, if it is set. -/
def override {α : Type} (value : Option String) (read : String → Except SettingsError α)
    (write : α → Settings → Settings) (s : Settings) :
    EStateM.Result SettingsError Settings Unit :=
  match value with
  | none => .ok () s
  | some value =>
    match read value with
    | .error e => .error e s
    | .ok a => .ok () (write a s)

/-- Apply the variables of an environment. -/
def applyEnvironment (lookup : String → Option String) :
    EStateM SettingsError Settings Unit := do
  override (lookup "MUSD_CLOSE_FACTOR_BPS") (readBps "MUSD_CLOSE_FACTOR_BPS")
    fun bps s => { s with liquidation := { s.liquidation with closeFactor := bps } }
  override (lookup "MUSD_FULL_LIQUIDATION_THRESHOLD_BPS")
    (readBps "MUSD_FULL_LIQUIDATION_THRESHOLD_BPS")
    fun bps s => { s with liquidation := { s.liquidation with fullThreshold := bps } }
  override (lookup "MUSD_LOG") (fun filter => .ok filter)
    fun filter s => { s with logFilter := filter }
  override (lookup "MUSD_OUTPUT") readFormat fun format s => { s with output := format }

/-! ### Checking -/

/-- Check the ranges of all values. -/
def validate (s : Settings) : Except SettingsError Unit :=
  match s.liquidation.validate with
  | .error e => .error (.validation e.message)
  | .ok () =>
    if Blank.trim s.logFilter.toList = [] then
      .error (.validation "log filter cannot be empty")
    else .ok ()

/-- The settings in force: those of a file, if there is one, with the overrides. -/
def resolve (file : Option String) (lookup : String → Option String) :
    Except SettingsError Settings := do
  let s ← match file with
    | none => .ok standard
    | some text => load text
  match applyEnvironment lookup s with
  | .error e _ => .error e
  | .ok _ s => do
    s.validate
    return s

end Settings

end Custody
