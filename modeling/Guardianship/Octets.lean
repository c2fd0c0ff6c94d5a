/-!
# Octet strings

Every key, ciphertext and digest of a ceremony is a string of octets.  This file holds the two
readings of such a string as a number, least significant octet first (`toNatLE`) and last
(`toNatBE`), their inverses of a given width, the UTF-8 form of a text, and strings of a fixed
length (`Block`).

Main statements: a number that fits the width is read back (`toNatLE_ofNatLE`), and a string is
written back from its value (`ofNatLE_toNatLE`).
-/

namespace Guardianship

/-- A string of octets. -/
abbrev Octets := List UInt8

namespace Octets

/-- The low `width` octets of a number, least significant first. -/
def ofNatLE : Nat → Nat → Octets
  | 0, _ => []
  | width + 1, n => n.toUInt8 :: ofNatLE width (n / 256)

/-- The number a string stands for, least significant octet first. -/
def toNatLE : Octets → Nat
  | [] => 0
  | x :: xs => x.toNat + 256 * toNatLE xs

/-- The low `width` octets of a number, most significant first. -/
def ofNatBE (width n : Nat) : Octets := (ofNatLE width n).reverse

/-- The number a string stands for, most significant octet first. -/
def toNatBE (xs : Octets) : Nat := toNatLE xs.reverse

/-- The UTF-8 form of a text. -/
def ofText (s : String) : Octets := s.toList.flatMap String.utf8EncodeChar

/-- The text with this UTF-8 form, if there is one. -/
def toText? (xs : Octets) : Option String := String.fromUTF8? (ByteArray.mk xs.toArray)

/-- Octet by octet exclusive or, as long as the shorter argument. -/
def xor (xs ys : Octets) : Octets := List.zipWith (· ^^^ ·) xs ys

/-- The string cut into pieces of `size` octets, the last of which may be shorter. -/
def pieces (size : Nat) (hs : 0 < size) (xs : Octets) : List Octets :=
  match _rest : xs.drop size with
  | [] => [xs]
  | y :: ys => xs.take size :: pieces size hs (y :: ys)
termination_by xs.length
decreasing_by
  have hl := congrArg List.length _rest
  simp only [List.length_drop, List.length_cons] at hl
  simp only [List.length_cons]
  omega

/-- One more than the greatest number that octets of a width stand for. -/
def bound (width : Nat) : Nat := Nat.pow 256 width

theorem bound_zero : bound 0 = 1 := rfl

theorem bound_succ (width : Nat) : bound (width + 1) = 256 * bound width := Nat.mul_comm _ _

@[simp] theorem length_ofNatLE (width n : Nat) : (ofNatLE width n).length = width := by
  induction width generalizing n with
  | zero => rfl
  | succ width ih => simp [ofNatLE, ih]

@[simp] theorem length_ofNatBE (width n : Nat) : (ofNatBE width n).length = width := by
  simp [ofNatBE]

/-- The most significant octet is the last one. -/
theorem ofNatLE_concat (width n : Nat) :
    ofNatLE (width + 1) n = ofNatLE width n ++ [(n / bound width).toUInt8] := by
  induction width generalizing n with
  | zero => rw [bound_zero, Nat.div_one]; rfl
  | succ width ih =>
    rw [ofNatLE, ih, Nat.div_div_eq_div_mul, ← bound_succ]
    rfl

theorem ofNatBE_cons (width n : Nat) :
    ofNatBE (width + 1) n = (n / bound width).toUInt8 :: ofNatBE width n := by
  simp [ofNatBE, ofNatLE_concat]

/-- Pieces of one length come to a multiple of it. -/
theorem length_flatMap_of_length {α : Type} {f : α → Octets} {k : Nat}
    (h : ∀ a, (f a).length = k) (as : List α) : (as.flatMap f).length = as.length * k := by
  induction as with
  | nil => simp
  | cons a as ih => rw [List.flatMap_cons, List.length_append, h, ih, List.length_cons,
      Nat.succ_mul, Nat.add_comm]

theorem toNatLE_lt (xs : Octets) : toNatLE xs < bound xs.length := by
  induction xs with
  | nil => decide
  | cons x xs ih =>
    have hx := x.toNat_lt
    rw [List.length_cons, bound_succ]
    simp only [toNatLE]
    omega

theorem toNatLE_ofNatLE {width n : Nat} (h : n < bound width) :
    toNatLE (ofNatLE width n) = n := by
  induction width generalizing n with
  | zero =>
    rw [bound_zero] at h
    simp only [ofNatLE, toNatLE]
    omega
  | succ width ih =>
    have hd : n / 256 < bound width := by
      rw [bound_succ] at h
      exact Nat.div_lt_of_lt_mul h
    simp only [ofNatLE, toNatLE, ih hd]
    have : n.toUInt8.toNat = n % 256 := by simp
    omega

theorem ofNatLE_toNatLE (xs : Octets) : ofNatLE xs.length (toNatLE xs) = xs := by
  induction xs with
  | nil => rfl
  | cons x xs ih =>
    have hx := x.toNat_lt
    have h1 : (x.toNat + 256 * toNatLE xs) / 256 = toNatLE xs := by omega
    have h2 : (x.toNat + 256 * toNatLE xs).toUInt8 = x := by
      apply UInt8.toNat_inj.mp
      simp
    simp only [List.length_cons, toNatLE, ofNatLE, h1, h2, ih]

theorem toNatBE_lt (xs : Octets) : toNatBE xs < bound xs.length := by
  simpa [toNatBE] using toNatLE_lt xs.reverse

theorem toNatBE_ofNatBE {width n : Nat} (h : n < bound width) :
    toNatBE (ofNatBE width n) = n := by
  simp [toNatBE, ofNatBE, toNatLE_ofNatLE h]

theorem ofNatBE_toNatBE (xs : Octets) : ofNatBE xs.length (toNatBE xs) = xs := by
  have h := ofNatLE_toNatLE xs.reverse
  rw [List.length_reverse] at h
  simp [toNatBE, ofNatBE, h]

end Octets

/-- A string of exactly `n` octets. -/
structure Block (n : Nat) where
  octets : Octets
  length_eq : octets.length = n
deriving DecidableEq

namespace Block

variable {n : Nat}

/-- A string as a block, if it has the right length. -/
def ofOctets? (xs : Octets) : Option (Block n) :=
  if h : xs.length = n then some ⟨xs, h⟩ else none

/-- The low `n` octets of a number, least significant first. -/
def ofNatLE (value : Nat) : Block n := ⟨Octets.ofNatLE n value, Octets.length_ofNatLE n value⟩

/-- The number a block stands for, least significant octet first. -/
def toNatLE (b : Block n) : Nat := b.octets.toNatLE

@[simp] theorem ofOctets?_octets (b : Block n) : ofOctets? b.octets = some b := by
  simp [ofOctets?, b.length_eq]

theorem octets_of_ofOctets? {xs : Octets} {b : Block n} (h : ofOctets? xs = some b) :
    b.octets = xs := by
  unfold ofOctets? at h
  split at h
  · simp at h; subst h; rfl
  · simp at h

end Block

end Guardianship
