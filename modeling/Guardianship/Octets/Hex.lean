import Guardianship.Octets

/-!
# Hexadecimal text

Octets travel in messages as two hexadecimal digits each.  Writing uses lower case; reading takes
either case, refuses an odd number of octets first, and otherwise names the first octet of the
text that is no digit.

Main statement: what was written is read back (`decode_encode`).
-/

namespace Guardianship.Hex

/-- Why a text is not hexadecimal. -/
inductive Error
  | oddLength
  | invalidDigit (octet : UInt8) (position : Nat)
deriving DecidableEq, Repr

/-- The digit for a number below sixteen. -/
def digit (n : Nat) : Char :=
  if n < 10 then Char.ofNat (48 + n) else Char.ofNat (87 + n)

/-- The value of a digit given as an octet of text. -/
def value? (x : UInt8) : Option Nat :=
  if 48 ≤ x ∧ x ≤ 57 then some (x.toNat - 48)
  else if 97 ≤ x ∧ x ≤ 102 then some (x.toNat - 87)
  else if 65 ≤ x ∧ x ≤ 70 then some (x.toNat - 55)
  else none

/-- The value of a digit given as a character. -/
def charValue? (c : Char) : Option Nat := if c.toNat < 128 then value? c.toNat.toUInt8 else none

/-- Two lower case digits for each octet. -/
def encode (xs : Octets) : String :=
  String.ofList (xs.flatMap fun x => [digit (x.toNat / 16), digit (x.toNat % 16)])

/-- The value of the digit at a position, or the complaint about it. -/
def valueAt (x : UInt8) (position : Nat) : Except Error Nat :=
  match value? x with
  | some v => .ok v
  | none => .error (.invalidDigit x position)

/-- Reads digits pair by pair, counting positions from `position`. -/
def decodePairs : Octets → Nat → Except Error Octets
  | [], _ => .ok []
  | [_], _ => .error .oddLength
  | high :: low :: rest, position => do
    let h ← valueAt high position
    let l ← valueAt low (position + 1)
    let xs ← decodePairs rest (position + 2)
    return (16 * h + l).toUInt8 :: xs

/-- The octets that a text of hexadecimal digits stands for. -/
def decode (s : String) : Except Error Octets :=
  let text := Octets.ofText s
  if text.length % 2 = 1 then .error .oddLength else decodePairs text 0

/-! ### Reading back what was written -/

theorem utf8_digit (n : Nat) (h : n < 16) :
    ∃ x, String.utf8EncodeChar (digit n) = [x] ∧ value? x = some n := by
  have all : ∀ k : Fin 16, ∃ x, String.utf8EncodeChar (digit k) = [x] ∧ value? x = some k.val := by
    intro k
    refine ⟨(digit k).toNat.toUInt8, ?_⟩
    revert k
    decide
  exact all ⟨n, h⟩

theorem decodePairs_digits (xs : Octets) (position : Nat) :
    decodePairs ((xs.flatMap fun x => [digit (x.toNat / 16), digit (x.toNat % 16)]).flatMap
      String.utf8EncodeChar) position = .ok xs := by
  induction xs generalizing position with
  | nil => rfl
  | cons x xs ih =>
    have hx := x.toNat_lt
    obtain ⟨high, eh, vh⟩ := utf8_digit (x.toNat / 16) (by omega)
    obtain ⟨low, el, vl⟩ := utf8_digit (x.toNat % 16) (by omega)
    have back : (16 * (x.toNat / 16) + x.toNat % 16).toUInt8 = x := by
      rw [Nat.div_add_mod]
      apply UInt8.toNat_inj.mp
      simp
    simp [eh, el, decodePairs, valueAt, vh, vl, ih, back, bind, Except.bind, pure, Except.pure]

theorem length_digits (xs : Octets) :
    ((xs.flatMap fun x => [digit (x.toNat / 16), digit (x.toNat % 16)]).flatMap
      String.utf8EncodeChar).length = 2 * xs.length := by
  induction xs with
  | nil => rfl
  | cons x xs ih =>
    have hx := x.toNat_lt
    obtain ⟨high, eh, _⟩ := utf8_digit (x.toNat / 16) (by omega)
    obtain ⟨low, el, _⟩ := utf8_digit (x.toNat % 16) (by omega)
    simp only [List.flatMap_cons, List.flatMap_append, List.length_append, ih, eh, el,
      List.flatMap_nil, List.length_cons, List.length_nil]
    omega

theorem decode_encode (xs : Octets) : decode (encode xs) = .ok xs := by
  simp only [decode, encode, Octets.ofText, String.toList_ofList]
  rw [length_digits, if_neg (by omega)]
  exact decodePairs_digits xs 0

end Guardianship.Hex
