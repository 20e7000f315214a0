import BackupWatch.Command.Run

/-!
The program: it gathers its arguments, the variables of its options and the configuration file,
and prints what the command gives. Reports go to the error stream.
-/

namespace BackupWatch

open Command

/-- The variables of the options that are set. -/
def readVariables : IO (List (String × String)) := do
  let found ← Flag.ofJob.mapM fun flag => do
    let value ← IO.getEnv flag.variableName
    return value.map fun v => (flag.variableName, v)
  return found.filterMap id

/-- The bytes of a file, if it can be read. -/
def readFile (path : String) : IO (Option ByteArray) := do
  match ← (IO.FS.readBinFile path).toBaseIO with
  | .ok bytes => return some bytes
  | .error _ => return none

/-- Carries out a request where there is no cluster. -/
def performHere (request : Request) : IO UInt32 := do
  let content ← match request.configPath with
    | some path => readFile path
    | none => pure none
  let (lines, result) := performAlone request fun _ => content
  lines.forM IO.println
  match result with
  | .ok _ => return 0
  | .error report =>
    IO.eprintln report.text
    return 1

end BackupWatch

open BackupWatch Command

def main (arguments : List String) : IO UInt32 := do
  match readArguments (← readVariables) arguments with
  | .error refusal => return refusal.exitCode.toUInt32
  | .ok read => performHere read.request
