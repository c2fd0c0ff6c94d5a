import Guardianship.Suite

/-!
# The messages of a ceremony

What guardians and the mediator send each other, by the round to which it belongs: announced keys,
sealed shares, verdicts on shares, and disclosures of shares that are disputed.  Shares, verdicts
and disclosures go from an owner, whose secret is shared, to a recipient, to whom the share is
addressed.
-/

namespace Guardianship

/-- A guardian's key for the transport of shares. -/
structure TransportKey where
  owner : String
  /-- The point at which the guardian's shares are evaluated. -/
  order : UInt64
  key : Block 32
deriving DecidableEq

/-- A guardian's election key with the commitments to its secret polynomial. -/
structure ElectionKey (S : Suite) where
  owner : String
  order : UInt64
  key : S.Element
  commitments : List S.Element
deriving DecidableEq

/-- Both keys of a guardian, as announced in the first round. -/
structure Announcement (S : Suite) where
  election : ElectionKey S
  transport : TransportKey
deriving DecidableEq

/-- The guardian who announces, as named by the election key. -/
def Announcement.owner {S : Suite} (a : Announcement S) : String := a.election.owner

/-- A value of the owner's polynomial, sealed to the recipient. -/
structure SealedShare (S : Suite) where
  owner : String
  recipient : String
  order : UInt64
  sealed : Octets
  commitments : List S.Element
deriving DecidableEq

/-- Whether a share was found good, by its recipient or by the mediator. -/
structure Verdict where
  owner : String
  recipient : String
  judge : String
  good : Bool
deriving DecidableEq, Repr

/-- The value of a disputed share, disclosed by its owner. -/
structure Disclosure (S : Suite) where
  owner : String
  recipient : String
  order : UInt64
  value : S.Scalar
  commitments : List S.Element
deriving DecidableEq

/-- The key of the election, and a hash of what it was combined of. -/
structure JointKey (S : Suite) where
  key : S.Element
  transcript : Block 32
deriving DecidableEq

/-! ### Pairs -/

/-- From an owner to a recipient. -/
structure Pair where
  owner : String
  recipient : String
deriving DecidableEq, Repr

namespace Pair

/-- A guardian would be sharing with itself. -/
def isSelf (p : Pair) : Bool := p.owner = p.recipient

def text (p : Pair) : String := p.owner ++ "->" ++ p.recipient

/-- By owner and then by recipient, in the order of code points. -/
def le (p q : Pair) : Bool :=
  p.owner < q.owner || (p.owner == q.owner && !(q.recipient < p.recipient))

end Pair

variable {S : Suite}

def SealedShare.pair (m : SealedShare S) : Pair := ⟨m.owner, m.recipient⟩

def Verdict.pair (m : Verdict) : Pair := ⟨m.owner, m.recipient⟩

def Disclosure.pair (m : Disclosure S) : Pair := ⟨m.owner, m.recipient⟩

/-! ### Where a ceremony stands -/

/-- What the verdicts of all shares come to. -/
structure VerdictSummary where
  allSent : Bool
  allGood : Bool
  failed : List Pair
deriving DecidableEq, Repr

/-- What a ceremony waits for next. -/
inductive Stage
  | announcing
  | backupsPending
  | verificationsPending
  | challengesPending
  | verified
deriving DecidableEq, Repr

namespace Stage

def all : List Stage :=
  [announcing, backupsPending, verificationsPending, challengesPending, verified]

/-- The name of a stage in messages. -/
def name : Stage → String
  | announcing => "Announcing"
  | backupsPending => "BackupsPending"
  | verificationsPending => "VerificationsPending"
  | challengesPending => "ChallengesPending"
  | verified => "Verified"

/-- The name of a stage for the eye. -/
def label : Stage → String
  | announcing => "announcing"
  | backupsPending => "backups_pending"
  | verificationsPending => "verifications_pending"
  | challengesPending => "challenges_pending"
  | verified => "verified"

end Stage

/-! ### What a ceremony leaves behind -/

/-- What a guardian did in a ceremony. -/
structure Outcome where
  guardian : String
  order : UInt64
  sharesSent : UInt64
  sharesReceived : UInt64
  sharesRefused : UInt64
  disclosed : UInt64
  upheld : UInt64
deriving DecidableEq, Repr

/-- The result of a ceremony. -/
structure Report (S : Suite) where
  ceremonyId : String
  mediator : String
  guardians : UInt64
  quorum : UInt64
  stage : Stage
  jointKey : JointKey S
  disclosures : UInt64
  outcomes : List Outcome
deriving DecidableEq

end Guardianship
