/-!
# Binary floating point of 64 bits

A finite value is a sign and a number `mantissa · 2 ^ exponent`.  All arithmetic is exact up to one
rounding to the nearest value, with ties to the even mantissa (`ofRatio?`).
-/

namespace Guardianship

/-- A finite value of 64-bit binary floating point. -/
structure Binary64 where
  negative : Bool
  mantissa : Nat
  exponent : Int
deriving DecidableEq, Repr

namespace Binary64

/-- The least exponent there is. -/
def minExponent : Int := -1074

/-- The greatest exponent there is. -/
def maxExponent : Int := 971

/-- One more than the greatest mantissa. -/
def mantissaBound : Nat := 1 <<< 53

def zero (negative : Bool) : Binary64 := ⟨negative, 0, minExponent⟩

/-- The quotient rounded to the nearest number, a half going to the even neighbour. -/
def roundQuotient (num den : Nat) : Nat :=
  let q := num / den
  let r := num % den
  if den < 2 * r ∨ (den = 2 * r ∧ q % 2 = 1) then q + 1 else q

/-- The quotient of two numbers times a power of two, as a quotient. -/
def scaled (num den : Nat) (e : Int) : Nat × Nat :=
  if 0 ≤ e then (num <<< e.toNat, den) else (num, den <<< (-e).toNat)

/-- The value nearest to a quotient of two numbers, unless that is too large. -/
def ofRatio? (negative : Bool) (num den : Nat) : Option Binary64 :=
  if num = 0 then some (zero negative)
  else
    let e := (num.log2 : Int) - den.log2 - 52
    -- The quotient lies between `2 ^ (e + 51)` and `2 ^ (e + 53)`.
    let (a, b) := scaled num den (-e)
    let e := max (if a < b <<< 52 then e - 1 else e) minExponent
    let (a, b) := scaled num den (-e)
    let m := roundQuotient a b
    let (m, e) := if m = mantissaBound then (m / 2, e + 1) else (m, e)
    if maxExponent < e then none else some ⟨negative, m, e⟩

/-- The value nearest to a number. -/
def ofNat? (n : Nat) : Option Binary64 := ofRatio? false n 1

def times? (x y : Binary64) : Option Binary64 :=
  let (a, b) := scaled (x.mantissa * y.mantissa) 1 (x.exponent + y.exponent)
  ofRatio? (x.negative != y.negative) a b

def divide? (x y : Binary64) : Option Binary64 :=
  let (a, b) := scaled x.mantissa y.mantissa (x.exponent - y.exponent)
  ofRatio? (x.negative != y.negative) a b

def withSign (negative : Bool) (x : Binary64) : Binary64 := { x with negative := negative }

end Binary64

end Guardianship
