import Guardianship.Bls12.Element
import Guardianship.Curve25519
import Guardianship.Suite

/-!
# The standard suite

Election keys are points of BLS12-381, and transport keys agree on Curve25519.
-/

namespace Guardianship.Suite

/-- The inverse of `2 ^ 256`, by which drawn numbers are multiplied. -/
def drawFactor : Fin Bls12.order :=
  Modular.power (Fin.ofNat Bls12.order (1 <<< 256)) (Bls12.order - 2)

/-- A scalar is drawn as a number of 255 bits below the order, times a fixed factor. -/
def sampleScalar (b : Block 32) : Option (Fin Bls12.order) :=
  let v := b.toNatLE % (1 <<< 255)
  if h : v < Bls12.order then some (⟨v, h⟩ * drawFactor) else none

/-- Points of BLS12-381 and key agreement on Curve25519. -/
def standard : Suite where
  order := Bls12.order
  order_pos := by decide
  order_le := by decide
  Element := Bls12.Element
  decEq := inferInstance
  identity := Bls12.Element.identity
  generator := Bls12.Element.generator
  add := Bls12.Element.add
  multiply k p := p.multiply k.val
  encode := Bls12.Element.encode
  decode := Bls12.Element.decode
  sample := sampleScalar
  publicKey := Curve25519.publicKey
  agree := Curve25519.agree

end Guardianship.Suite
