import Guardianship.EncodingError
import Guardianship.Octets

/-!
# Suites of groups and key agreements

A ceremony needs a group whose elements have an order, written additively, with an encoding of its
elements; and a key agreement between holders of secrets.  Everything else in this library is
stated for any such suite.  Scalars are the integers modulo the order of the group, encoded in 32
octets with the least significant first.
-/

namespace Guardianship

/-- A group with a generator, and a key agreement. -/
structure Suite where
  order : Nat
  order_pos : 0 < order
  order_le : order ≤ Octets.bound 32
  Element : Type
  decEq : DecidableEq Element
  identity : Element
  generator : Element
  add : Element → Element → Element
  multiply : Fin order → Element → Element
  encode : Element → Octets
  decode : Octets → Except EncodingError Element
  /-- The scalar that random octets stand for, if they are not to be drawn again. -/
  sample : Block 32 → Option (Fin order)
  /-- The public key of a secret for the key agreement. -/
  publicKey : Block 32 → Block 32
  /-- The value that the holder of a secret agrees on with the holder of a public key. -/
  agree : Block 32 → Block 32 → Block 32

namespace Suite

variable (S : Suite)

instance : @NeZero Nat Zero.ofOfNat0 S.order := ⟨Nat.ne_of_gt S.order_pos⟩

instance : DecidableEq S.Element := S.decEq

/-- The integers modulo the order of the group. -/
abbrev Scalar := Fin S.order

/-- The scalar of a number. -/
def scalar (n : Nat) : S.Scalar := Fin.ofNat S.order n

/-- The multiple of the generator that commits to a scalar. -/
def commit (a : S.Scalar) : S.Element := S.multiply a S.generator

/-- What is shown of a scalar: never its value, since scalars are secrets and shares. -/
def describeScalar (_ : S.Scalar) : String := "ElementModQ(<redacted>)"

/-- What is left of a scalar that is no longer needed. -/
def wipe (_ : S.Scalar) : S.Scalar := 0

/-- The sum of elements, the identity for none. -/
def sum (ps : List S.Element) : S.Element := ps.foldl S.add S.identity

/-! ### Scalars as octets -/

def encodeScalar (a : S.Scalar) : Octets := Octets.ofNatLE 32 a.val

def decodeScalar (xs : Octets) : Except EncodingError S.Scalar :=
  if xs.length = 32 then
    if h : Octets.toNatLE xs < S.order then .ok ⟨Octets.toNatLE xs, h⟩
    else .error .scalarRange
  else .error (.scalarLength xs.length)

variable {S}

@[simp] theorem length_encodeScalar (a : S.Scalar) : (S.encodeScalar a).length = 32 := by
  simp [encodeScalar]

theorem decodeScalar_encodeScalar (a : S.Scalar) :
    S.decodeScalar (S.encodeScalar a) = .ok a := by
  have h : Octets.toNatLE (S.encodeScalar a) = a.val :=
    Octets.toNatLE_ofNatLE (Nat.lt_of_lt_of_le a.isLt S.order_le)
  simp only [decodeScalar, length_encodeScalar, h, if_true]
  rw [dif_pos a.isLt]

end Suite

end Guardianship
