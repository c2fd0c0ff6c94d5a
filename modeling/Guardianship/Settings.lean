import Guardianship.Json.Codec
import Guardianship.Terms
import Guardianship.Toml.Text

/-!
# Settings

What the one who runs a ceremony may choose: the terms and who mediates, how often guardians ask for
news and how long they may take, what is logged, and where the report goes.  Everything has a
default, and a settings file names what differs from it.
-/

namespace Guardianship

namespace Settings

/-- Who takes part in the ceremony. -/
structure Roles where
  ceremonyId : String := "ceremony-1"
  mediator : String := "mediator"
  guardians : UInt64 := 3
  quorum : UInt64 := 2
deriving DecidableEq, Repr

/-- The pace of the ceremony. -/
structure Pace where
  /-- Milliseconds from one question for news to the next. -/
  interval : UInt64 := 10
  /-- Seconds until the ceremony is given up. -/
  timeout : UInt64 := 30
deriving DecidableEq, Repr

/-- The seconds of thirty years. -/
def thirtyYears : Nat := 30 * 365 * 24 * 3600

/-- When the ceremony is given up, in milliseconds.  A limit of more than thirty years is none. -/
def Pace.limit? (p : Pace) : Option Nat :=
  if p.timeout.toNat ≤ thirtyYears then some (1000 * p.timeout.toNat) else none

/-- What is logged. -/
structure Logging where
  level : String := "info"
deriving DecidableEq, Repr

/-- Where the report goes besides standard output. -/
structure Output where
  /-- A file; empty for none. -/
  path : String := ""
deriving DecidableEq, Repr

end Settings

structure Settings where
  roles : Settings.Roles := {}
  pace : Settings.Pace := {}
  logging : Settings.Logging := {}
  output : Settings.Output := {}
deriving DecidableEq, Repr

namespace Settings

/-- The terms of the ceremony, unless there can be none on them. -/
def terms (s : Settings) : Except Terms.Error Terms :=
  Terms.agree s.roles.ceremonyId s.roles.guardians s.roles.quorum

/-- The file for the report, if there is one. -/
def reportFile? (s : Settings) : Option String :=
  if s.output.path.isEmpty then none else some s.output.path

/-! ### As messages -/

open Codec Row

def rolesCodec : Codec Roles :=
  let standard : Roles := {}
  record "CeremonySection"
    (cons (optional "ceremony_id" text standard.ceremonyId) <|
      cons (optional "mediator_id" text standard.mediator) <|
      cons (optional "number_of_guardians" (word "usize") standard.guardians) <|
      cons (optional "quorum" (word "usize") standard.quorum) nil)
    (fun r => (r.ceremonyId, r.mediator, r.guardians, r.quorum, ()))
    (fun (ceremonyId, mediator, guardians, quorum, ()) =>
      ⟨ceremonyId, mediator, guardians, quorum⟩)

def paceCodec : Codec Pace :=
  let standard : Pace := {}
  record "RuntimeConfig"
    (cons (optional "poll_interval_ms" (word "u64") standard.interval) <|
      cons (optional "timeout_secs" (word "u64") standard.timeout) nil)
    (fun p => (p.interval, p.timeout, ()))
    (fun (interval, timeout, ()) => ⟨interval, timeout⟩)

def loggingCodec : Codec Logging :=
  let standard : Logging := {}
  record "LoggingConfig" (cons (optional "level" text standard.level) nil)
    (fun l => (l.level, ())) (fun (level, ()) => ⟨level⟩)

def outputCodec : Codec Output :=
  let standard : Output := {}
  record "OutputConfig" (cons (optional "path" text standard.path) nil)
    (fun o => (o.path, ())) (fun (path, ()) => ⟨path⟩)

def codec : Codec Settings :=
  record "CeremonyConfig"
    (cons (optional "ceremony" rolesCodec {}) <|
      cons (optional "runtime" paceCodec {}) <|
      cons (optional "logging" loggingCodec {}) <|
      cons (optional "output" outputCodec {}) nil)
    (fun s => (s.roles, s.pace, s.logging, s.output, ()))
    (fun (roles, pace, logging, output, ()) => ⟨roles, pace, logging, output⟩)

/-! ### From a file -/

/-- What is found where settings are looked for. -/
inductive Found
  | nothing
  | directory
  | file (content : Octets)

/-- Why a settings file is of no use. -/
inductive Error
  | directory
  | notText
  /-- The text is not well formed or does not fit the settings. -/
  | malformed
deriving DecidableEq, Repr

def Error.message : Error → String
  | directory => "Is a directory (os error 21)"
  | notText => "stream did not contain valid UTF-8"
  | malformed => "TOML parse error"

/-- The file in which settings are looked for, unless another one is named. -/
def defaultFile : String := "ceremony.toml"

/-- The settings in the text of a file. -/
def ofText (s : String) : Except Error Settings :=
  match Toml.ofText? s with
  | none => .error .malformed
  | some t =>
    match codec.decode .settings t.toDocument with
    | .ok settings => .ok settings
    | .error _ => .error .malformed

/-- The settings in the content of a file. -/
def ofOctets (content : Octets) : Except Error Settings :=
  match Octets.toText? content with
  | none => .error .notText
  | some s => ofText s

/-- The settings from what is found; without a file they are those of default. -/
def load : Found → Except Error Settings
  | .nothing => .ok {}
  | .directory => .error .directory
  | .file content => ofOctets content

end Settings

end Guardianship
