import Guardianship.Json

/-!
# The values of written numbers

A number is written as a sign, whole digits, and perhaps digits after a point and a power of ten.
Without the last two it is a whole number, if it has 64 bits; anything else is a floating point
value, computed from the digits that fit into 64 bits and one product or quotient with a power of
ten.  A value too large for floating point is refused.
-/

namespace Guardianship.Json

/-- A number as it is written. -/
structure Numeral where
  negative : Bool
  whole : List Nat
  fraction : Option (List Nat)
  /-- The sign of the power of ten, and its digits. -/
  power : Option (Bool × List Nat)

namespace Numeral

/-- The greatest number of 64 bits. -/
def wordMax : Nat := UInt64.size - 1

/-- The greatest power of ten that is computed with. -/
def powerMax : Nat := UInt32.size / 2 - 1

/-- Takes whole digits while they fit, and counts those that are left. -/
def takeWhole : List Nat → Nat → Nat × Nat
  | [], s => (s, 0)
  | d :: ds, s =>
    if s * 10 + d ≤ wordMax then takeWhole ds (s * 10 + d) else (s, ds.length + 1)

/-- Takes digits after the point while they fit, and counts those taken. -/
def takeFraction : List Nat → Nat → Nat → Nat × Nat
  | [], s, taken => (s, taken)
  | d :: ds, s, taken =>
    if s * 10 + d ≤ wordMax then takeFraction ds (s * 10 + d) (taken + 1) else (s, taken)

/-- The greatest power of ten by which a value is multiplied or divided at once. -/
def stepMax : Nat := 308

def powerOfTen? (k : Nat) : Option Binary64 := Binary64.ofNat? (Nat.pow 10 k)

/-- Divides by a power of ten, in steps while anything is left. -/
def divideByPower? (x : Binary64) (k : Nat) : Option Binary64 :=
  if k ≤ stepMax then (powerOfTen? k).bind x.divide?
  else if x.mantissa = 0 then some x
  else ((powerOfTen? stepMax).bind x.divide?).bind fun y => divideByPower? y (k - stepMax)
termination_by k
decreasing_by
  have hs : 0 < stepMax := by decide
  omega

/-- The value of digits and a power of ten. -/
def scale? (significand : Nat) (power : Int) : Option Binary64 := do
  let x ← Binary64.ofNat? significand
  if power < 0 then divideByPower? x (-power).toNat
  else if power.toNat ≤ stepMax then (powerOfTen? power.toNat).bind x.times?
  else if x.mantissa = 0 then some x
  else none

def digitsValue (ds : List Nat) : Nat := ds.foldl (fun n d => 10 * n + d) 0

/-- The floating point value of a numeral. -/
def float? (n : Numeral) : Option Binary64 :=
  let (s, dropped) := takeWhole n.whole 0
  let (s, taken) := takeFraction (n.fraction.getD []) s 0
  let start : Int := dropped - taken
  let value :=
    match n.power with
    | none => scale? s start
    | some (below, ds) =>
      let e := digitsValue ds
      if powerMax < e then
        if s ≠ 0 ∧ below = false then none else some (Binary64.zero false)
      else scale? s (if below then start - e else start + e)
  value.map (Binary64.withSign n.negative)

/-- The value of a numeral, unless it is too large. -/
def value? (n : Numeral) : Option Number :=
  let w := digitsValue n.whole
  if n.fraction.isNone ∧ n.power.isNone ∧ w ≤ wordMax then
    if n.negative = false then some (.natural w.toUInt64)
    else if 0 < w ∧ w ≤ UInt64.size / 2 then some (.negative w)
    else (Binary64.ofNat? w).map fun x => .float (x.withSign true)
  else n.float?.map .float

end Numeral

end Guardianship.Json
