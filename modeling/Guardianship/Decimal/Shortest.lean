import Guardianship.Decimal.Binary64

/-!
# The shortest decimal that reads back

A floating point value is shown by the fewest decimal digits that round to it, and of those by the
nearest.  For each number of digits the two neighbours of the value on that decimal grid are tried
against the interval of numbers that round to the value.
-/

namespace Guardianship.Decimal

/-- The number `digits · 10 ^ exponent`. -/
structure Shown where
  digits : Nat
  exponent : Int
deriving DecidableEq, Repr

/-- The numbers that round to a value: `low` to `high`, in units of `2 ^ exponent`. -/
structure Interval where
  low : Nat
  middle : Nat
  high : Nat
  exponent : Int
  closed : Bool

/-- The numbers that round to a value that is not zero. -/
def Interval.around (x : Binary64) : Interval :=
  let below :=
    if x.mantissa = Binary64.mantissaBound / 2 ∧ Binary64.minExponent < x.exponent then 1 else 2
  ⟨4 * x.mantissa - below, 4 * x.mantissa, 4 * x.mantissa + 2, x.exponent - 2,
    x.mantissa % 2 = 0⟩

/-- Both sides of a comparison of `k · 10 ^ t` with `n · 2 ^ e`, without fractions. -/
def sides (k : Nat) (t : Int) (n : Nat) (e : Int) : Nat × Nat :=
  ((k * Nat.pow 10 t.toNat) <<< (-e).toNat, (n * Nat.pow 10 (-t).toNat) <<< e.toNat)

/-- The number `k · 10 ^ t` rounds to the value. -/
def Interval.contains (i : Interval) (k : Nat) (t : Int) : Bool :=
  let (l, low) := sides k t i.low i.exponent
  let (h, high) := sides k t i.high i.exponent
  if i.closed then low ≤ l ∧ h ≤ high else low < l ∧ h < high

/-- The greatest `k` such that `k · 10 ^ t` is not above the value. -/
def Interval.floor (i : Interval) (t : Int) : Nat :=
  let (unit, value) := sides 1 t i.middle i.exponent
  value / unit

/-- The distance of `k · 10 ^ t` from the value, in a unit that depends on `t` alone. -/
def Interval.distance (i : Interval) (k : Nat) (t : Int) : Nat :=
  let (a, b) := sides k t i.middle i.exponent
  (a - b) + (b - a)

/-- The neighbour of the value on the grid `10 ^ t` that rounds to it, the nearer one of two. -/
def Interval.onGrid? (i : Interval) (t : Int) : Option Nat :=
  let k := i.floor t
  let near := i.distance k t < i.distance (k + 1) t
    || (i.distance k t == i.distance (k + 1) t && k % 2 == 0)
  match i.contains k t, i.contains (k + 1) t with
  | true, true => if near then some k else some (k + 1)
  | true, false => some k
  | false, true => some (k + 1)
  | false, false => none

/-- The first of `count` ever finer grids that has a neighbour of the value on it. -/
def Interval.search (i : Interval) : Nat → Int → Shown
  | 0, t => ⟨i.floor t, t⟩
  | count + 1, t =>
    match i.onGrid? t with
    | some k => ⟨k, t⟩
    | none => i.search count (t - 1)

/-- The least power of ten above the value, found upwards from `t`. -/
def Interval.magnitude (i : Interval) : Nat → Int → Int
  | 0, t => t
  | count + 1, t => if i.floor t = 0 then t else i.magnitude count (t + 1)

/-- Ten to this power is below every value that is not zero. -/
def leastPower : Int := -330

/-- The same number without zeros at the end of its digits. -/
def Shown.trim (s : Shown) : Shown :=
  if _h : s.digits % 10 = 0 ∧ s.digits ≠ 0 then
    Shown.trim ⟨s.digits / 10, s.exponent + 1⟩
  else s
termination_by s.digits
decreasing_by omega

/-- The shortest decimal that reads back as a value. -/
def shortest (x : Binary64) : Shown :=
  if x.mantissa = 0 then ⟨0, 0⟩
  else
    let i := Interval.around x
    (i.search 17 (i.magnitude 700 leastPower - 1)).trim

/-! ### Layout -/

/-- How a shortest decimal is laid out: plain between two powers of ten, else with an exponent. -/
structure Layout where
  /-- The point stands before at most this many zeros after `0.`. -/
  leadingZeros : Nat
  /-- The point stands after at most this many digits. -/
  wholeDigits : Nat

/-- Numbers in messages are plain from `0.00001` to sixteen digits before the point. -/
def messageLayout : Layout := ⟨4, 16⟩

def zeros (n : Nat) : String := String.ofList (List.replicate n '0')

/-- An exponent with its sign, which is never left out. -/
def exponentText (e : Int) : String := (if e < 0 then "-" else "+") ++ toString e.natAbs

def Layout.text (l : Layout) (s : Shown) : String :=
  let ds := toString s.digits
  let point := (ds.length : Int) + s.exponent
  if 0 ≤ s.exponent ∧ point ≤ l.wholeDigits then ds ++ zeros s.exponent.toNat ++ ".0"
  else if 0 < point ∧ point ≤ l.wholeDigits then
    String.ofList (ds.toList.take point.toNat) ++ "." ++ String.ofList (ds.toList.drop point.toNat)
  else if -(l.leadingZeros : Int) ≤ point ∧ point ≤ 0 then
    "0." ++ zeros (-point).toNat ++ ds
  else
    let tail := ds.toList.drop 1
    String.ofList (ds.toList.take 1) ++ (if tail.isEmpty then "" else "." ++ String.ofList tail)
      ++ "e" ++ exponentText (point - 1)

end Guardianship.Decimal


namespace Guardianship

/-- The text of a floating point value in messages. -/
def Binary64.text (x : Binary64) : String :=
  (if x.negative then "-" else "") ++ Decimal.messageLayout.text (Decimal.shortest x)

end Guardianship
