import Guardianship.Blake3

/-!
# Contexts of key derivation

Every key that is derived in a ceremony has a registered context, so that a key derived for one
purpose is never the key for another.
-/

namespace Guardianship

/-- What a derived key is for. -/
inductive Context
  | envelopeKey
  | envelopeNonce
  | transcript
deriving DecidableEq, Repr

namespace Context

def text : Context → String
  | envelopeKey => "Ceremony v1 ecies-encryption-key"
  | envelopeNonce => "Ceremony v1 ecies-nonce"
  | transcript => "Ceremony v1 commitment-hash"

/-- The contexts in the order of their registration. -/
def all : List Context := [envelopeKey, envelopeNonce, transcript]

/-- The text of some context. -/
def isRegistered (s : String) : Bool := all.any fun c => c.text = s

/-- The key derived from key material in a context. -/
def deriveKey (c : Context) (material : Octets) : Block 32 := Blake3.deriveKey c.text material

end Context

end Guardianship
