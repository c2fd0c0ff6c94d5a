import Guardianship.Dealing
import Guardianship.Ledger
import Guardianship.Terms

/-!
# A guardian

A guardian holds its own polynomial and transport secret, the announcements that it knows, the
shares that it has dealt and those that it has received.  It talks to other guardians through the
mediator only.
-/

namespace Guardianship

variable {S : Suite} {ρ : Type} [RandomSource ρ]

/-- What a guardian holds in one ceremony. -/
structure Guardian (S : Suite) where
  id : String
  order : UInt64
  terms : Terms
  polynomial : Polynomial S
  /-- The secret of the transport key. -/
  secret : Block 32
  /-- Announcements by owner, the guardian's own among them. -/
  known : Ledger String (Announcement S)
  /-- Shares of the guardian's secret, by recipient. -/
  dealt : Ledger String (SealedShare S)
  /-- Shares of others' secrets, by owner. -/
  received : Ledger String (SealedShare S)

namespace Guardian

/-- Why a guardian cannot do what it is asked to. -/
inductive Error
  /-- At zero the polynomial has its secret for a value. -/
  | zeroOrder
  | polynomial (e : Polynomial.Error)
  /-- An announcement has a transport key of someone else. -/
  | foreignTransportKey (owner : String)
  | envelope (e : Envelope.Error)
deriving DecidableEq, Repr

def Error.message : Error → String
  | zeroOrder => "invalid sequence order 0"
  | polynomial e => "crypto error: " ++ e.message
  | foreignTransportKey owner => s!"key set for guardian {owner} carries a foreign auxiliary key"
  | envelope e => "crypto error: " ++ e.message

/-! ### Keys -/

/-- Draws the polynomial of a guardian at a place in the order. -/
def drawPolynomial (order quorum : UInt64) : StateM ρ (Except Error (Polynomial S)) :=
  if order = 0 then return .error .zeroOrder
  else do
    match ← Polynomial.draw quorum.toNat with
    | .ok p => return .ok p
    | .error e => return .error (.polynomial e)

/-- What a guardian announces. -/
def announcement (g : Guardian S) : Announcement S :=
  ⟨.ofPolynomial g.id g.order g.polynomial, .ofSecret S g.id g.order g.secret⟩

/-- Takes note of an announcement, in place of an earlier one of the same owner. -/
def learn (g : Guardian S) (a : Announcement S) : Guardian S :=
  { g with known := g.known.insert a.owner a }

/-- A guardian with given secrets, who knows nobody but itself. -/
def ofSecrets (id : String) (order : UInt64) (terms : Terms) (p : Polynomial S)
    (secret : Block 32) : Guardian S :=
  let g : Guardian S := ⟨id, order, terms, p, secret, .empty, .empty, .empty⟩
  g.learn g.announcement

/-- Draws the secrets of a guardian. -/
def create (id : String) (order : UInt64) (terms : Terms) :
    StateM ρ (Except Error (Guardian S)) := do
  match ← drawPolynomial order terms.quorum with
  | .error e => return .error e
  | .ok p =>
    let secret ← drawBlock
    return .ok (ofSecrets id order terms p secret)

/-- As many guardians are known as take part. -/
def allKnown (g : Guardian S) : Bool := g.known.size == g.terms.guardians.toNat

/-! ### Shares -/

/-- Deals a share to each of the given guardians but itself. -/
def dealTo (g : Guardian S) : List (String × Announcement S) → Ledger String (SealedShare S) →
    StateM ρ (Except Error (Ledger String (SealedShare S)))
  | [], dealt => return .ok dealt
  | (owner, a) :: rest, dealt =>
    if owner = g.id then dealTo g rest dealt
    else if a.transport.owner ≠ owner then return .error (.foreignTransportKey owner)
    else do
      match ← SealedShare.deal g.id g.polynomial a.transport with
      | .error e => return .error (.envelope e)
      | .ok s => dealTo g rest (dealt.insert owner s)

/-- Deals a share to every other guardian that is known, in place of all shares dealt before.  There
is a guardian afterwards in any case; the shares are put in place when all of them have been made. -/
def dealShares (g : Guardian S) : StateM ρ (Except Error Unit × Guardian S) := do
  match ← g.dealTo g.known.entries .empty with
  | .error e => return (.error e, g)
  | .ok dealt => return (.ok (), { g with dealt })

/-- The guardian that has dealt its shares, if it could. -/
def deal (g : Guardian S) : StateM ρ (Except Error (Guardian S)) := do
  let after ← g.dealShares
  return after.1.map fun _ => after.2

/-- Keeps a share that is addressed to this guardian. -/
def accept (g : Guardian S) (s : SealedShare S) : Guardian S :=
  if s.recipient = g.id then { g with received := g.received.insert s.owner s } else g

/-- As many shares have been received as there are other guardians. -/
def allReceived (g : Guardian S) : Bool := g.received.size + 1 == g.terms.guardians.toNat

/-! ### Verdicts and disclosures -/

/-- The share has the commitments that its owner announced, and the guardian's own order. -/
def matchesAnnounced (g : Guardian S) (s : SealedShare S) : Bool :=
  (g.known.get? s.owner).map (fun a => a.election.commitments) = some s.commitments
    && s.order == g.order

/-- The guardian's verdict on a share. -/
def judge (g : Guardian S) (s : SealedShare S) : Verdict :=
  let v := s.judge g.id g.secret
  { v with good := v.good && g.matchesAnnounced s }

/-- The verdicts on all shares received. -/
def verdicts (g : Guardian S) : List Verdict := g.received.values.map g.judge

/-- The disclosure of the share dealt to a recipient. -/
def disclose (g : Guardian S) (recipient : String) : Option (Disclosure S) :=
  (g.dealt.get? recipient).map fun s => s.disclose g.polynomial

end Guardian

end Guardianship
