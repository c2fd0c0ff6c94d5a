import Guardianship.Command
import Guardianship.Randomness.KeyStream
import Guardianship.Suite.Standard

/-!
# The program

Holds a ceremony by the settings in `ceremony.toml`, or in the file that `CEREMONY_CONFIG` names, and
prints the report.
-/

namespace Guardianship.Command

/-- What is found at a path. -/
def look (path : String) : IO Settings.Found := do
  try return .file (← IO.FS.readBinFile path).toList
  catch e =>
    match e with
    | .inappropriateType _ 21 _ => return .directory
    | .noFileOrDirectory .. | .inappropriateType .. => return .nothing
    | e => throw e

/-- Writes the report to its file; tells why that cannot be done. -/
def save (path text : String) : IO (Option FileFault) := do
  try
    IO.FS.writeFile path text
    return none
  catch e =>
    match e with
    | .noFileOrDirectory .. => return some .missingDirectory
    | .inappropriateType _ 20 _ => return some .notDirectory
    | .inappropriateType _ 21 _ => return some .isDirectory
    | e => return some (.other (toString e))

/-- Says what went wrong. -/
def fail (e : Error) : IO UInt32 := do
  IO.eprintln ("Error: " ++ e.message)
  return failureCode

/-- A random key for the draws of one run. -/
def drawKey : IO KeyStream := do
  return ⟨.ofNatLE (Octets.toNatLE (← IO.getRandomBytes 32).toList), 0⟩

def program : IO UInt32 := do
  let named? ← IO.getEnv "CEREMONY_CONFIG"
  let found ← look (named?.getD Settings.defaultFile)
  let result : Except Error (Result Suite.standard) := (run found (← drawKey)).1
  match result with
  | .error e => fail e
  | .ok result =>
    for line in result.logLines (← IO.getEnv "RUST_LOG") do
      IO.println line
    match result.settings.reportFile? with
    | none => pure ()
    | some path =>
      if let some fault ← save path result.text then return ← fail (.file fault)
    IO.println result.text
    return 0

end Guardianship.Command

def main : IO UInt32 := Guardianship.Command.program
