import Guardianship.Octets

/-!
# The Poly1305 authenticator

A tag of 16 octets for a message under a key that is used once: the message's blocks, each with a
one put after its last octet, are the coefficients of a polynomial over the integers modulo
`2 ^ 130 - 5`, evaluated at the first half of the key; the second half is added to the value.
-/

namespace Guardianship.Cipher.Poly1305

def modulus : Nat := 0x3fffffffffffffffffffffffffffffffb

/-- The bits of the evaluation point that are kept. -/
def mask : Nat := 0x0ffffffc0ffffffc0ffffffc0fffffff

/-- A block as a number, with a one after its last octet. -/
def coefficient (xs : Octets) : Nat := Octets.toNatLE xs + Octets.bound xs.length

/-- Horner's rule over the blocks of a message. -/
def accumulate (r : Nat) (blocks : List Octets) : Nat :=
  blocks.foldl (fun acc b => (acc + coefficient b) * r % modulus) 0

/-- The tag of a message of at least one octet. -/
def tag (key : Block 32) (message : Octets) : Block 16 :=
  let r := Octets.toNatLE (key.octets.take 16) &&& mask
  let s := Octets.toNatLE (key.octets.drop 16)
  Block.ofNatLE (accumulate r (message.pieces 16 (by decide)) + s)

end Guardianship.Cipher.Poly1305
