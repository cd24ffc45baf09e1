/-
The operator's tool as a program.

Everything is decided by `CommandLine.run`; here the environment and the file of the
settings are read, a file is written, and texts are printed.
-/
import Custody.CommandLine

namespace Custody.CommandLine

/-- The number of a failure of the disk.  Some calls give it with a minus sign. -/
def diskCode : IO.Error → UInt32
  | .alreadyExists _ code _ | .inappropriateType _ code _ | .invalidArgument _ code _
  | .noFileOrDirectory _ code _ | .noSuchThing _ code _ | .permissionDenied _ code _
  | .resourceExhausted _ code _ | .otherError code _ =>
    if code < 0x80000000 then code else 0 - code
  | _ => 0

/-- The fault of a path behind a failure of the disk. -/
def diskFault? (e : IO.Error) : Option PathFault :=
  match diskCode e with
  | 2 => some .missing
  | 17 => some .occupied
  | 20 => some .notDirectory
  | 21 => some .isDirectory
  | 36 => some .longName
  | _ => none

/-- The wording of a failure of the disk. -/
def diskReason (e : IO.Error) : String :=
  match diskFault? e with
  | some fault => fault.message
  | none => toString e

/-- What the disk holds at a path. -/
def lookOnDisk (path : String) : IO Found := do
  try
    return .ofBytes (← IO.FS.readBinFile path)
  catch e =>
    match diskFault? e with
    | some .missing | some .notDirectory | some .longName => return .nothing
    | _ => return .unreadable (diskReason e)

/-- Make a directory; one that is there already will do. -/
def makeDirectoryOnDisk (path : Path) : IO Unit := do
  try IO.FS.createDir path.toString
  catch e =>
    if diskFault? e = some .occupied then IO.FS.createDirAll path.toString else throw e

/-- Make a directory and what is missing above it.  The parts come last first. -/
def makeDirectoriesOnDisk : (reversed : List String) → IO Unit
  | [] => pure ()
  | last :: above => do
    if Path.stays last then makeDirectoriesOnDisk above
    else
      let path : Path := ⟨(last :: above).reverse⟩
      try makeDirectoryOnDisk path
      catch e =>
        if diskFault? e = some .missing then
          makeDirectoriesOnDisk above
          makeDirectoryOnDisk path
        else throw e

/-- Write a file and make the directories above it. -/
def writeToDisk (path content : String) : IO Unit := do
  makeDirectoriesOnDisk (Path.ofString path).directory.parts.reverse
  IO.FS.writeFile path content

/-- The variables that matter, with their values. -/
def environment : IO (List (String × String)) :=
  ["MUSD_CONFIG", "MUSD_CLOSE_FACTOR_BPS", "MUSD_FULL_LIQUIDATION_THRESHOLD_BPS", "MUSD_LOG",
    "MUSD_OUTPUT", "HOME", "NO_COLOR", "TERM", "CLICOLOR",
    "CLICOLOR_FORCE"].filterMapM fun name => do
      return (← IO.getEnv name).map fun value => (name, value)

/-- The path that the arguments name, or the usual one. -/
def pathOf (lookup : String → Option String) (arguments : List String) : String :=
  match parse (lookup "MUSD_CONFIG") arguments with
  | .run i => i.config.getD (defaultPath lookup)
  | _ => defaultPath lookup

/-- Print what a command leaves, once its file is written. -/
def perform (colours : Bool) (outcome : Outcome) : IO Outcome := do
  match outcome.file with
  | none => return outcome
  | some (path, content) =>
    try
      writeToDisk path content
      return outcome
    catch e => return unwritten colours path (diskReason e)

end Custody.CommandLine

open Custody.CommandLine

/-- Run the tool. -/
def main (arguments : List String) : IO UInt32 := do
  let known ← environment
  let lookup (name : String) : Option String := (known.find? fun v => v.1 = name).map (·.2)
  let found ← lookOnDisk (pathOf lookup arguments)
  let output ← IO.getStdout
  let around : Surroundings := ⟨lookup, fun _ => found, ← output.isTty⟩
  let outcome ← perform around.colours (run around arguments)
  output.putStr outcome.output
  output.flush
  (← IO.getStderr).putStr outcome.errors
  return outcome.code
