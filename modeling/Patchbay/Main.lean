import Patchbay.CommandLine.Run

/-!
The program: files are read and written here, and all else is decided by the command line.
-/

open Patchbay CommandLine

def readText? (name : String) : IO (Option String) := do
  try
    return some (← IO.FS.readFile name)
  catch _ => return none

def writeText (name text : String) : IO Bool := do
  try
    IO.FS.writeFile name text
    return true
  catch _ => return false

def filesToRead (args : List String) : List String :=
  match Request.ofArguments args with
  | .ok r => r.patch :: r.settings.toList
  | .error _ => []

def main (args : List String) : IO UInt32 := do
  let texts ← (filesToRead args).mapM fun name => return (name, ← readText? name)
  let outcome := run args fun name => (texts.lookup name).join
  IO.print outcome.output
  match outcome.file with
  | none => return outcome.exit.toUInt32
  | some (name, text) =>
    if ← writeText name text then return outcome.exit.toUInt32 else return 1
