import Guardianship.Octets
import Guardianship.Modular

/-!
# Key agreement on Curve25519

A secret of 32 octets, a public key computed from it, and the agreed value that two parties
compute from their own secret and the other's public key.  Only the first coordinate of points is
used; a ladder over the bits of the secret keeps two neighbouring multiples of the other's point.
-/

namespace Guardianship.Curve25519

def modulus : Nat := 0x7fffffffffffffffffffffffffffffffffffffffffffffffffffffffffffffed

instance : @NeZero Nat Zero.ofOfNat0 modulus := ⟨by decide⟩

/-- The field of the curve. -/
abbrev Field := Fin modulus

/-- A quarter of the curve's coefficient less two. -/
def a24 : Field := 121665

def inverse (x : Field) : Field := Modular.power x (modulus - 2)

/-- A point by the quotient `x / z`, which is all that is known of it. -/
structure Projective where
  x : Field
  z : Field

/-- The two neighbouring multiples `k · P` and `(k + 1) · P`. -/
structure Rungs where
  lower : Projective
  upper : Projective

/-- From `k` to `2 k` and `2 k + 1`; `u` is the first coordinate of the point multiplied. -/
def Rungs.double (u : Field) (r : Rungs) : Rungs :=
  let a := r.lower.x + r.lower.z
  let aa := a * a
  let b := r.lower.x - r.lower.z
  let bb := b * b
  let e := aa - bb
  let c := r.upper.x + r.upper.z
  let d := r.upper.x - r.upper.z
  let da := d * a
  let cb := c * b
  let s := da + cb
  let t := da - cb
  ⟨⟨aa * bb, e * (aa + a24 * e)⟩, ⟨s * s, u * (t * t)⟩⟩

def Rungs.swap (r : Rungs) : Rungs := ⟨r.upper, r.lower⟩

/-- One bit of the multiplier. -/
def Rungs.climb (u : Field) (bit : Bool) (r : Rungs) : Rungs :=
  if bit then (r.swap.double u).swap else r.double u

/-- The ladder over the lowest `count` bits of a multiplier, the highest of them first. -/
def climbBits (u : Field) (k : Nat) : Nat → Rungs → Rungs
  | 0, r => r
  | count + 1, r => climbBits u k count (r.climb u (k.testBit count))

/-- The first coordinate of a multiple of a point. -/
def multiply (k : Nat) (u : Field) : Field :=
  let r := climbBits u k 255 ⟨⟨1, 0⟩, ⟨u, 1⟩⟩
  r.lower.x * inverse r.lower.z

/-- The multiplier that a secret stands for: a multiple of eight with bit 254 set. -/
def clamp (secret : Block 32) : Nat :=
  secret.toNatLE % (1 <<< 254) / 8 * 8 + 1 <<< 254

/-- The first coordinate that a public key stands for; its highest bit is ignored. -/
def coordinate (publicKey : Block 32) : Field := Fin.ofNat modulus (publicKey.toNatLE % (1 <<< 255))

/-- The value agreed on by the holder of a secret with the holder of a public key. -/
def agree (secret publicKey : Block 32) : Block 32 :=
  Block.ofNatLE (multiply (clamp secret) (coordinate publicKey)).val

/-- The public key that belongs to a secret. -/
def publicKey (secret : Block 32) : Block 32 :=
  Block.ofNatLE (multiply (clamp secret) 9).val

end Guardianship.Curve25519
