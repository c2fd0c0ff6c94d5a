import Guardianship.Dealing
import Guardianship.Json
import Guardianship.Octets.Hex
import Guardianship.Terms

/-!
# Events

What guardians and the mediator report about their work, for the one who watches a ceremony.  Each
event has a level, a message, and fields with the particulars.
-/

namespace Guardianship

/-- What was submitted for a pair. -/
inductive Submission
  | share
  | verdict
  | disclosure
deriving DecidableEq, Repr

def Submission.word : Submission → String
  | share => "backup"
  | verdict => "verification"
  | disclosure => "challenge"

/-- How much of a round is complete. -/
structure Progress where
  done : Nat
  expected : Nat
deriving DecidableEq, Repr

def Progress.text (p : Progress) : String := s!"{p.done}/{p.expected}"

inductive Event
  | started (mediator : String) (terms : Terms)
  | announced (ceremony guardian : String) (progress : Progress)
  | allAnnounced (ceremony : String)
  | sharesTooEarly (ceremony : String)
  | shareReceived (ceremony : String) (pair : Pair) (progress : Progress)
  | allSharesReceived (ceremony : String)
  | verdictsTooEarly (ceremony : String)
  | verdictReceived (ceremony : String) (pair : Pair) (good : Bool) (progress : Progress)
  | allVerdictsReceived (ceremony : String) (failed : Nat)
  | selfAddressed (ceremony : String) (pair : Pair) (what : Submission)
  | unannounced (ceremony : String) (pair : Pair) (what : Submission)
  | upheld (ceremony : String) (pair : Pair)
  | notUpheld (ceremony : String) (pair : Pair)
  | published (ceremony : String) (key : Octets)
  | reset (previous : String) (terms : Terms)
  | dealt (guardian : String) (count : Nat)
  | misaddressed (guardian recipient : String)
  | unopened (owner recipient : String) (cause : SealedShare.Error)
  | refused (guardian owner : String)

/-- How much an event matters. -/
inductive Level
  | debug
  | info
  | warn
deriving DecidableEq, Repr

def Level.word : Level → String
  | debug => "DEBUG"
  | info => "INFO"
  | warn => "WARN"

namespace Event

def level : Event → Level
  | started .. | allAnnounced .. | allSharesReceived .. | allVerdictsReceived .. | upheld ..
  | published .. | reset .. => .info
  | announced .. | sharesTooEarly .. | shareReceived .. | verdictsTooEarly ..
  | verdictReceived .. | dealt .. => .debug
  | selfAddressed .. | unannounced .. | notUpheld .. | misaddressed .. | unopened ..
  | refused .. => .warn

def message : Event → String
  | started .. => "starting key ceremony"
  | announced .. => "received announcement"
  | allAnnounced .. => "all guardians announced"
  | sharesTooEarly .. => "ignoring backups before all guardians announced"
  | shareReceived .. => "received partial key backup"
  | allSharesReceived .. => "all partial key backups received"
  | verdictsTooEarly .. => "ignoring verifications before all backups received"
  | verdictReceived .. => "received backup verification"
  | allVerdictsReceived .. => "all backup verifications received"
  | selfAddressed .. => "dropping self-addressed submission"
  | unannounced .. => "dropping submission for unannounced guardian"
  | upheld .. => "challenge upheld backup"
  | notUpheld .. => "challenge failed verification"
  | published .. => "published joint key"
  | reset .. => "resetting key ceremony"
  | dealt .. => "generated partial key backups"
  | misaddressed .. => "ignoring backup addressed to another guardian"
  | unopened .. => "could not decrypt partial key backup"
  | refused .. => "partial key backup failed verification"

def ceremonyField (ceremony : String) : String × Json := ("ceremony_id", .string ceremony)

def pairField (p : Pair) : String × Json := ("pair", .string p.text)

def progressField (p : Progress) : String × Json := ("progress", .string p.text)

def countField (name : String) (n : Nat) : String × Json := (name, .natural n.toUInt64)

def termsFields (t : Terms) : List (String × Json) :=
  [ceremonyField t.ceremonyId, ("guardians", .natural t.guardians), ("quorum", .natural t.quorum)]

/-- The particulars of an event by name. -/
def fields : Event → List (String × Json)
  | started mediator terms => ("mediator", .string mediator) :: termsFields terms
  | announced c guardian progress =>
    [ceremonyField c, ("guardian", .string guardian), progressField progress]
  | allAnnounced c | sharesTooEarly c | allSharesReceived c | verdictsTooEarly c =>
    [ceremonyField c]
  | shareReceived c pair progress => [ceremonyField c, pairField pair, progressField progress]
  | verdictReceived c pair good progress =>
    [ceremonyField c, pairField pair, ("verified", .bool good), progressField progress]
  | allVerdictsReceived c failed => [ceremonyField c, countField "failed" failed]
  | selfAddressed c pair what | unannounced c pair what =>
    [ceremonyField c, pairField pair, ("kind", .string what.word)]
  | upheld c pair | notUpheld c pair => [ceremonyField c, pairField pair]
  | published c key => [ceremonyField c, ("joint_public_key", .string (Hex.encode key))]
  | reset previous terms => ("previous", .string previous) :: termsFields terms
  | dealt guardian count => [("guardian", .string guardian), countField "backups" count]
  | misaddressed guardian recipient =>
    [("guardian", .string guardian), ("designated", .string recipient)]
  | unopened owner recipient cause =>
    [("owner", .string owner), ("designated", .string recipient),
      ("error", .string cause.message)]
  | refused guardian owner => [("guardian", .string guardian), ("owner", .string owner)]

end Event

end Guardianship
