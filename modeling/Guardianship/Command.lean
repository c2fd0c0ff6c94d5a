import Guardianship.Ceremony
import Guardianship.Event.Filter
import Guardianship.Message.Wire

/-!
# The command

A run of the program: settings are read, a ceremony is held, and the report is printed as JSON and
written to a file if the settings name one.  This file says what is computed and what is said when
it fails; files, the terminal and random octets are left to the one who calls it.
-/

namespace Guardianship.Command

variable {S : Suite} {ρ : Type} [RandomSource ρ]

/-- Why the report cannot be written to its file. -/
inductive FileFault
  | missingDirectory
  | notDirectory
  | isDirectory
  | nameTooLong
  | other (text : String)
deriving DecidableEq, Repr

def FileFault.message : FileFault → String
  | missingDirectory => "No such file or directory (os error 2)"
  | notDirectory => "Not a directory (os error 20)"
  | isDirectory => "Is a directory (os error 21)"
  | nameTooLong => "File name too long (os error 36)"
  | other text => text

inductive Error
  | settings (cause : Settings.Error)
  | ceremony (cause : Ceremony.Error)
  | file (cause : FileFault)
deriving DecidableEq, Repr

def Error.message : Error → String
  | settings cause => cause.message
  | ceremony cause => cause.message
  | file cause => cause.message

/-- What is said about an error, up to the end of its first line. -/
def Error.firstLine (e : Error) : String :=
  String.ofList (("Error: " ++ e.message).toList.takeWhile (· ≠ '\n'))

/-- What a run of the program comes to. -/
structure Result (S : Suite) where
  settings : Settings
  report : Report S

/-- Reads the settings and holds the ceremony. -/
def run (found : Settings.Found) : StateM ρ (Except Error (Result S)) := do
  match Settings.load found with
  | .error e => return .error (.settings e)
  | .ok settings =>
    match ← Ceremony.hold settings with
    | .error e => return .error (.ceremony e)
    | .ok report => return .ok ⟨settings, report⟩

/-- The text of the report. -/
def Result.text (r : Result S) : String := ((Wire.report S).encode r.report).pretty 0

/-- What is worth telling about a run. -/
def Result.events (r : Result S) : List Event :=
  let terms : Terms := ⟨r.report.ceremonyId, r.report.guardians, r.report.quorum⟩
  [.started r.report.mediator terms,
    .published r.report.ceremonyId (S.encode r.report.jointKey.key)]

/-- The lines of the events that a run shows; `override?` goes before the filter of the settings if
it names a level. -/
def Result.logLines (r : Result S) (override? : Option String) : List String :=
  let filter :=
    match override? with
    | some f => if (Event.filterWeight? f).isSome then f else r.settings.logging.level
    | none => r.settings.logging.level
  (r.events.filter (Event.isShown filter)).map Event.line

/-- The exit code after an error. -/
def failureCode : UInt32 := 1

end Guardianship.Command
