import Guardianship.Bls12.Point
import Guardianship.Octets

/-!
# Points as octets

A point is written as the 48 octets of its first coordinate, most significant first.  The three
highest bits, which the coordinate leaves free, say that the form is compressed, that the point is
infinity, and that the second coordinate is the larger one of the two that are possible.

Reading takes the first 48 octets and leaves the rest aside.  It refuses a text without the first
flag, a coordinate that is not reduced or on no point of the curve, and points outside the group.
-/

namespace Guardianship.Bls12

/-- The length of a point's octets. -/
def pointSize : Nat := 48

/-- Why octets are no point. -/
inductive PointError
  /-- The octets stand for no point of the group. -/
  | invalid
  /-- The flag of the compressed form is missing. -/
  | flags
deriving DecidableEq, Repr

namespace Coordinate

/-- The larger one of a coordinate and its negative. -/
def isLarger (y : Coordinate) : Bool := modulus < 2 * y.val

end Coordinate

namespace Point

def compressedFlag : Nat := 1 <<< 383
def infinityFlag : Nat := 1 <<< 382
def largerFlag : Nat := 1 <<< 381

/-- The octets as a number: the flags and the first coordinate. -/
def toNumber : Point → Nat
  | infinity => compressedFlag + infinityFlag
  | affine x y => compressedFlag + (if y.isLarger then largerFlag else 0) + x.val

/-- The octets of a point. -/
def encode (p : Point) : Octets := Octets.ofNatBE pointSize p.toNumber

@[simp] theorem length_encode (p : Point) : p.encode.length = pointSize := by
  simp [encode]

/-- The point with a given first coordinate whose second is the larger one or not. -/
def lift? (x : Coordinate) (larger : Bool) : Option Point :=
  (Coordinate.root? (cubic x)).map fun y =>
    .affine x (if y.isLarger = larger then y else 0 - y)

/-- The point of the curve that a number stands for. -/
def ofNumber (n : Nat) : Except PointError Point :=
  if n.testBit 383 then
    if n.testBit 382 then .ok .infinity
    else
      let x := n % largerFlag
      if h : x < modulus then
        match lift? ⟨x, h⟩ (n.testBit 381) with
        | some p => .ok p
        | none => .error .invalid
      else .error .invalid
  else .error .flags

/-- The point of the group that octets stand for. -/
def decode (xs : Octets) : Except PointError Point :=
  let head := xs.take pointSize
  if head.length < pointSize then .error .invalid
  else
    match ofNumber (Octets.toNatBE head) with
    | .ok p => if p = .infinity ∨ p.inSubgroup = true then .ok p else .error .invalid
    | .error e => .error e

end Point

end Guardianship.Bls12
