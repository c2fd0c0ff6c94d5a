import Guardianship.Envelope
import Guardianship.Message
import Guardianship.Polynomial

/-!
# Dealing, judging and combining

The computations of a ceremony that need no memory.  An owner deals a share by sealing a value of
its polynomial to a recipient; the recipient judges the share by opening it and checking the value
against the commitments; a disclosed value is checked in the same way by anyone.  The joint key is
the sum of all election keys, with a hash of whose commitments went into it.
-/

namespace Guardianship

variable {S : Suite}

/-! ### Public keys -/

/-- The election key of a guardian with a polynomial. -/
def ElectionKey.ofPolynomial (owner : String) (order : UInt64) (p : Polynomial S) :
    ElectionKey S :=
  ⟨owner, order, p.publicKey, p.commitments⟩

/-- The transport key of a guardian with a secret. -/
def TransportKey.ofSecret (S : Suite) (owner : String) (order : UInt64) (secret : Block 32) :
    TransportKey :=
  ⟨owner, order, S.publicKey secret⟩

/-! ### Shares -/

namespace SealedShare

/-- What a share is bound to: its owner and its recipient. -/
def boundData (owner recipient : String) : Octets :=
  Fields.encode [Octets.ofText owner, Octets.ofText recipient]

/-- Why a share cannot be opened. -/
inductive Error
  | envelope (e : Envelope.Error)
  | encoding (e : EncodingError)
deriving DecidableEq, Repr

def Error.message : Error → String
  | envelope e => e.message
  | encoding e => e.message

/-- The share of an owner for the holder of a transport key, sealed with a secret that is used
once. -/
def sealWith (secret : Block 32) (owner : String) (p : Polynomial S) (key : TransportKey) :
    Except Envelope.Error (SealedShare S) := do
  let value := p.evaluate key.order
  let e ← Envelope.sealFor S secret key.key (S.encodeScalar value) (boundData owner key.owner)
  return ⟨owner, key.owner, key.order, e.encode, p.commitments⟩

/-- Deals a share with a drawn secret. -/
def deal {ρ : Type} [RandomSource ρ] (owner : String) (p : Polynomial S) (key : TransportKey) :
    StateM ρ (Except Envelope.Error (SealedShare S)) := do
  let secret ← drawBlock
  return sealWith secret owner p key

/-- The value of a share, for the holder of the recipient's secret. -/
def reveal (s : SealedShare S) (secret : Block 32) : Except Error S.Scalar :=
  match Envelope.decode s.sealed with
  | .error e => .error (.envelope e)
  | .ok e =>
    match Envelope.openWith S secret e (boundData s.owner s.recipient) with
    | .error e => .error (.envelope e)
    | .ok text =>
      match S.decodeScalar text with
      | .error e => .error (.encoding e)
      | .ok value => .ok value

/-- The share can be opened, and its value agrees with the commitments it carries. -/
def isGood (s : SealedShare S) (secret : Block 32) : Bool :=
  match s.reveal secret with
  | .ok value => Commitments.accepts s.commitments s.order value
  | .error _ => false

/-- The verdict of a judge who holds a secret. -/
def judge (s : SealedShare S) (judge : String) (secret : Block 32) : Verdict :=
  ⟨s.owner, s.recipient, judge, s.isGood secret⟩

/-- The disclosure of a share by the owner of the polynomial. -/
def disclose (s : SealedShare S) (p : Polynomial S) : Disclosure S :=
  ⟨s.owner, s.recipient, s.order, p.evaluate s.order, p.commitments⟩

end SealedShare

namespace Disclosure

/-- The value agrees with the commitments that the disclosure carries. -/
def isGood (d : Disclosure S) : Bool := Commitments.accepts d.commitments d.order d.value

/-- The verdict of a judge on a disclosure alone. -/
def judge (d : Disclosure S) (judge : String) : Verdict :=
  ⟨d.owner, d.recipient, judge, d.isGood⟩

end Disclosure

/-! ### The joint key -/

namespace JointKey

/-- What one key contributes to the transcript: its owner, and then each commitment. -/
def contribution (k : ElectionKey S) : List Octets :=
  Octets.ofText k.owner :: k.commitments.map S.encode

/-- The octets that are hashed. -/
def transcriptOf (keys : List (ElectionKey S)) : Octets :=
  Fields.encode (keys.flatMap contribution)

/-- The key combined of election keys in the given order. -/
def combine (keys : List (ElectionKey S)) : JointKey S :=
  ⟨S.sum (keys.map ElectionKey.key), Context.transcript.deriveKey (transcriptOf keys)⟩

end JointKey

end Guardianship
