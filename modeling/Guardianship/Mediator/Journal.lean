import Guardianship.Event
import Guardianship.Mediator

/-!
# The mediator's journal

Which events each request to a mediator gives rise to, told from the mediator before the request.
Questions give rise to none, except that publishing the joint key is reported.
-/

namespace Guardianship.Mediator

variable {S : Suite}

/-- The event of starting a ceremony. -/
def startEvents (id : String) (terms : Terms) : List Event := [.started id terms]

/-- An event, if a round is complete that was not. -/
def onCompletion (before after : Bool) (e : Event) : List Event :=
  if !before && after then [e] else []

/-- Why a submission is dropped; no event if it is admitted. -/
def dropEvents (m : Mediator S) (what : Submission) (p : Pair) : List Event :=
  if p.isSelf then [.selfAddressed m.terms.ceremonyId p what]
  else if m.admits p then []
  else [.unannounced m.terms.ceremonyId p what]

def announceEvents (m : Mediator S) (a : Announcement S) : List Event :=
  let after := m.announce a
  .announced m.terms.ceremonyId a.owner ⟨after.electionKeys.size, m.expected⟩
    :: onCompletion m.allAnnounced after.allAnnounced (.allAnnounced m.terms.ceremonyId)

/-- The events of shares that are kept or dropped one by one. -/
def shareEvents (m : Mediator S) : List (SealedShare S) → List Event
  | [] => []
  | s :: rest =>
    let after := m.receiveShare s
    let events :=
      if m.admits s.pair then
        [.shareReceived m.terms.ceremonyId s.pair ⟨after.shares.size, m.terms.pairCount⟩]
      else m.dropEvents .share s.pair
    events ++ shareEvents after rest

def sharesEvents (m : Mediator S) (ss : List (SealedShare S)) : List Event :=
  if m.allAnnounced then
    m.shareEvents ss
      ++ onCompletion m.allSharesIn (m.receiveShares ss).allSharesIn
        (.allSharesReceived m.terms.ceremonyId)
  else [.sharesTooEarly m.terms.ceremonyId]

/-- The events of verdicts that are kept or dropped one by one. -/
def verdictEvents (m : Mediator S) : List Verdict → List Event
  | [] => []
  | v :: rest =>
    let after := m.receiveVerdict v
    let events :=
      if m.admits v.pair then
        [.verdictReceived m.terms.ceremonyId v.pair v.good
          ⟨after.verdicts.size, m.terms.pairCount⟩]
      else m.dropEvents .verdict v.pair
    events ++ verdictEvents after rest

def verdictsEvents (m : Mediator S) (vs : List Verdict) : List Event :=
  if m.allSharesIn then
    let after := m.receiveVerdicts vs
    m.verdictEvents vs
      ++ onCompletion m.allVerdictsIn after.allVerdictsIn
        (.allVerdictsReceived m.terms.ceremonyId after.summary.failed.length)
  else [.verdictsTooEarly m.terms.ceremonyId]

def disclosureEvents (m : Mediator S) (d : Disclosure S) : List Event :=
  let p := d.pair
  m.dropEvents .disclosure p ++
    if (m.judge d).good then
      if m.admits p then [.upheld m.terms.ceremonyId p] else m.dropEvents .verdict p
    else [.notUpheld m.terms.ceremonyId p]

def resetEvents (m : Mediator S) (terms : Terms) : List Event :=
  [.reset m.terms.ceremonyId terms]

/-- The events of a request. -/
def events (m : Mediator S) : Request S → List Event
  | .announce a => m.announceEvents a
  | .shares ss => m.sharesEvents ss
  | .verdicts vs => m.verdictsEvents vs
  | .disclosure d => m.disclosureEvents d
  | .reset terms => m.resetEvents terms

/-- The events of asking for the joint key. -/
def jointKeyEvents (m : Mediator S) : List Event :=
  match m.jointKey? with
  | some k => [.published m.terms.ceremonyId (S.encode k.key)]
  | none => []

end Guardianship.Mediator
