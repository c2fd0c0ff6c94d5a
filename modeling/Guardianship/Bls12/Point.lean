import Guardianship.Modular

/-!
# Points of the curve BLS12-381

The curve `y² = x³ + 4` over a field of 381 bits.  A point is the point at infinity or a pair of
coordinates.  Sums and multiples are computed with a common denominator of the coordinates
(`Scaled`), so that only the result needs a division.
-/

namespace Guardianship.Bls12

/-- The modulus of the field of coordinates. -/
def modulus : Nat :=
  0x1a0111ea397fe69a4b1ba7b6434bacd764774b84f38512bf6730d2a0f6b0f6241eabfffeb153ffffb9feffffffffaaab

/-- The order of the group of points that are used. -/
def order : Nat := 0x73eda753299d7d483339d80809a1d80553bda402fffe5bfeffffffff00000001

instance : @NeZero Nat Zero.ofOfNat0 modulus := ⟨by decide⟩

instance : @NeZero Nat Zero.ofOfNat0 order := ⟨by decide⟩

/-- The field of coordinates. -/
abbrev Coordinate := Fin modulus

namespace Coordinate

def inverse (a : Coordinate) : Coordinate := Modular.power a (modulus - 2)

/-- A square root, if there is one: the modulus is three more than a multiple of four. -/
def root? (a : Coordinate) : Option Coordinate :=
  let r := Modular.power a ((modulus + 1) / 4)
  if r * r = a then some r else none

end Coordinate

/-- A pair of coordinates, or the point at infinity. -/
inductive Point
  | infinity
  | affine (x y : Coordinate)
deriving DecidableEq

/-- The right hand side of the curve's equation. -/
def cubic (x : Coordinate) : Coordinate := x * x * x + 4

namespace Point

/-- The point satisfies the curve's equation. -/
def onCurve : Point → Bool
  | infinity => true
  | affine x y => y * y = cubic x

/-! ### Arithmetic with a common denominator -/

/-- The point `(x / z², y / z³)`, or infinity if `z` is zero. -/
structure Scaled where
  x : Coordinate
  y : Coordinate
  z : Coordinate

namespace Scaled

def infinity : Scaled := ⟨1, 1, 0⟩

def ofPoint : Point → Scaled
  | .infinity => infinity
  | .affine x y => ⟨x, y, 1⟩

def toPoint (p : Scaled) : Point :=
  if p.z = 0 then .infinity
  else
    let i := Coordinate.inverse p.z
    let ii := i * i
    .affine (p.x * ii) (p.y * (ii * i))

def double (p : Scaled) : Scaled :=
  let a := p.x * p.x
  let b := p.y * p.y
  let c := b * b
  let h := p.x + b
  let g := h * h - a - c
  let d := g + g
  let e := a + a + a
  let x := e * e - (d + d)
  let cc := c + c
  let cccc := cc + cc
  let yz := p.y * p.z
  ⟨x, e * (d - x) - (cccc + cccc), yz + yz⟩

/-- Adds a point that is given by its coordinates. -/
def add (p : Scaled) : Point → Scaled
  | .infinity => p
  | .affine x y =>
    if p.z = 0 then ⟨x, y, 1⟩
    else
      let zz := p.z * p.z
      let h := x * zz - p.x
      let r := y * (zz * p.z) - p.y
      if h = 0 then if r = 0 then p.double else infinity
      else
        let hh := h * h
        let hhh := h * hh
        let v := p.x * hh
        let x' := r * r - hhh - (v + v)
        ⟨x', r * (v - x') - p.y * hhh, p.z * h⟩

/-- The multiple of a point by the number of which `count` low bits of `k` remain. -/
def multiplyBits (p : Point) (k : Nat) : Nat → Scaled → Scaled
  | 0, acc => acc
  | count + 1, acc =>
    let twice := acc.double
    multiplyBits p k count (if k.testBit count then twice.add p else twice)

end Scaled

/-! ### Sums and multiples -/

def add (p q : Point) : Point := ((Scaled.ofPoint p).add q).toPoint

/-- The multiple of a point by a number. -/
def multiply (k : Nat) (p : Point) : Point :=
  (Scaled.multiplyBits p k (k.log2 + 1) Scaled.infinity).toPoint

/-- The point is on the curve and its multiple by the order of the group is infinity. -/
def inSubgroup (p : Point) : Bool :=
  p.onCurve && (Scaled.multiplyBits p order (order.log2 + 1) Scaled.infinity).z = 0

/-- The point that every public key is a multiple of. -/
def generator : Point :=
  .affine
    0x17f1d3a73197d7942695638c4fa9ac0fc3688c4f9774b905a14e3a3f171bac586c55e83ff97a1aeffb3af00adb22c6bb
    0x08b3f481e3aaa0f1a09e30ed741d8ae4fcf5e095d5d00af600db18cb2c04b3edd03cc744a2888ae40caa232946c5e7e1

end Point

end Guardianship.Bls12
