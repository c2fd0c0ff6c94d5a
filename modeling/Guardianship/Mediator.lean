import Guardianship.Dealing
import Guardianship.Ledger
import Guardianship.Terms

/-!
# The mediator

The mediator holds what guardians have sent, opens a round when the one before is complete, judges
disclosures, and combines the joint key when every share has been found good.

A round is complete when the number of messages is right.  Submissions of a guardian to itself and
those that name an unknown guardian are dropped, so that the right number of messages is one for
every ordered pair of different guardians.  A message for a pair that is already there takes the
place of the one before.

Everything that changes a mediator is a `Request`, and `Reachable` says which mediators arise from
requests in any order.
-/

namespace Guardianship

variable {S : Suite}

/-- What a mediator holds of one ceremony. -/
structure Mediator (S : Suite) where
  id : String
  terms : Terms
  transportKeys : Ledger String TransportKey
  electionKeys : Ledger String (ElectionKey S)
  shares : Ledger Pair (SealedShare S)
  verdicts : Ledger Pair Verdict
  disclosures : Ledger Pair (Disclosure S)

namespace Mediator

/-- A mediator that has received nothing. -/
def start (id : String) (terms : Terms) : Mediator S :=
  ⟨id, terms, .empty, .empty, .empty, .empty, .empty⟩

/-! ### Completeness of the rounds -/

/-- How many guardians are expected. -/
def expected (m : Mediator S) : Nat := m.terms.guardians.toNat

/-- Every guardian has announced both of its keys. -/
def allAnnounced (m : Mediator S) : Bool :=
  m.electionKeys.size == m.expected && m.transportKeys.size == m.expected
    && m.electionKeys.keys.all fun id => m.transportKeys.contains id

/-- Every share is in. -/
def allSharesIn (m : Mediator S) : Bool :=
  m.allAnnounced && m.shares.size == m.terms.pairCount

/-- The verdict on every share is in. -/
def allVerdictsIn (m : Mediator S) : Bool :=
  m.allSharesIn && m.verdicts.size == m.terms.pairCount

/-- The pairs whose verdict is bad, in the order in which verdicts on them first came. -/
def failed (m : Mediator S) : List Pair :=
  (m.verdicts.entries.filter fun e => !e.2.good).map Prod.fst

/-- What the verdicts come to; nothing before all of them are in. -/
def summary (m : Mediator S) : VerdictSummary :=
  if m.allVerdictsIn then ⟨true, m.failed.isEmpty, m.failed⟩ else ⟨false, false, []⟩

/-- Every share has been found good. -/
def allGood (m : Mediator S) : Bool := m.summary.allGood

/-- What the ceremony waits for. -/
def stage (m : Mediator S) : Stage :=
  if !m.allAnnounced then .announcing
  else if !m.allSharesIn then .backupsPending
  else if !m.allVerdictsIn then .verificationsPending
  else if !m.allGood then .challengesPending
  else .verified

/-- Submissions for a pair are kept: two different guardians that have announced. -/
def admits (m : Mediator S) (p : Pair) : Bool :=
  !p.isSelf && m.electionKeys.contains p.owner && m.electionKeys.contains p.recipient

/-! ### The first round: announcements -/

/-- Keeps both keys of an announcement, each under the owner that it names itself. -/
def announce (m : Mediator S) (a : Announcement S) : Mediator S :=
  { m with
    transportKeys := m.transportKeys.insert a.transport.owner a.transport
    electionKeys := m.electionKeys.insert a.election.owner a.election }

/-- Both keys of a guardian. -/
def announcementOf? (m : Mediator S) (k : ElectionKey S) (owner : String) :
    Option (Announcement S) :=
  (m.transportKeys.get? owner).map fun t => ⟨k, t⟩

/-- The announcements of all guardians but the one who asks, once all are in. -/
def roster (m : Mediator S) (requester : Option String) : Option (List (Announcement S)) :=
  if m.allAnnounced then
    some ((m.electionKeys.entries.filter fun e => some e.1 ≠ requester).filterMap fun e =>
      m.announcementOf? e.2 e.1)
  else none

/-! ### The second round: shares -/

/-- Keeps a share, if its pair is admitted. -/
def receiveShare (m : Mediator S) (s : SealedShare S) : Mediator S :=
  if m.admits s.pair then { m with shares := m.shares.insert s.pair s } else m

/-- Keeps shares, once all guardians have announced. -/
def receiveShares (m : Mediator S) (ss : List (SealedShare S)) : Mediator S :=
  if m.allAnnounced then ss.foldl receiveShare m else m

/-- The shares for one guardian, or all of them, once all guardians have announced. -/
def sharesFor (m : Mediator S) (requester : Option String) : Option (List (SealedShare S)) :=
  if m.allAnnounced then
    match requester with
    | none => some m.shares.values
    | some id =>
      some ((m.electionKeys.keys.filter fun owner => owner ≠ id).filterMap fun owner =>
        m.shares.get? ⟨owner, id⟩)
  else none

/-! ### The third round: verdicts -/

/-- Keeps a verdict, if its pair is admitted. -/
def receiveVerdict (m : Mediator S) (v : Verdict) : Mediator S :=
  if m.admits v.pair then { m with verdicts := m.verdicts.insert v.pair v } else m

/-- Keeps verdicts, once all shares are in. -/
def receiveVerdicts (m : Mediator S) (vs : List Verdict) : Mediator S :=
  if m.allSharesIn then vs.foldl receiveVerdict m else m

/-! ### The fourth round: disclosures -/

/-- The disclosure is of what was announced: it has the commitments of its owner and the order of
its recipient. -/
def matchesAnnounced (m : Mediator S) (d : Disclosure S) : Bool :=
  (m.electionKeys.get? d.owner).map ElectionKey.commitments = some d.commitments
    && (m.electionKeys.get? d.recipient).map ElectionKey.order = some d.order

/-- The mediator's verdict on a disclosure. -/
def judge (m : Mediator S) (d : Disclosure S) : Verdict :=
  let v := d.judge m.id
  { v with good := v.good && m.matchesAnnounced d }

/-- Keeps a disclosure, if its pair is admitted. -/
def keepDisclosure (m : Mediator S) (d : Disclosure S) : Mediator S :=
  if m.admits d.pair then { m with disclosures := m.disclosures.insert d.pair d } else m

/-- Keeps a disclosure, and a good verdict on it in place of the one before. -/
def receiveDisclosure (m : Mediator S) (d : Disclosure S) : Mediator S :=
  let v := m.judge d
  let m := m.keepDisclosure d
  if v.good then m.receiveVerdict v else m

/-! ### The joint key -/

/-- The key combined of all election keys, once every share has been found good. -/
def jointKey? (m : Mediator S) : Option (JointKey S) :=
  if m.allGood then some (JointKey.combine m.electionKeys.values) else none

/-- Forgets everything and starts again on other terms. -/
def reset (m : Mediator S) (terms : Terms) : Mediator S := start m.id terms

/-! ### Requests -/

/-- Whatever changes a mediator. -/
inductive Request (S : Suite)
  | announce (a : Announcement S)
  | shares (ss : List (SealedShare S))
  | verdicts (vs : List Verdict)
  | disclosure (d : Disclosure S)
  | reset (terms : Terms)

/-- The mediator after a request. -/
def apply (m : Mediator S) : Request S → Mediator S
  | .announce a => m.announce a
  | .shares ss => m.receiveShares ss
  | .verdicts vs => m.receiveVerdicts vs
  | .disclosure d => m.receiveDisclosure d
  | .reset terms => m.reset terms

/-- The mediators that arise from any requests. -/
inductive Reachable : Mediator S → Prop
  | start (id : String) (terms : Terms) : Reachable (start id terms)
  | apply {m : Mediator S} (r : Request S) : Reachable m → Reachable (m.apply r)

end Mediator

end Guardianship
