import Guardianship.Proofs.Bls12.Primes
import Guardianship.Proofs.Suite.Laws
import Guardianship.Suite.Standard

/-!
# The suite of exponents

A lawful suite on which everything can be computed.  Its elements are the exponents of points, which
are the integers modulo the order of BLS12-381 under addition; its key agreement is that of
exponents of public keys, modulo `2 ^ 256`.  The suite is lawful (`lawful_exponents`), its two sides
agree (`agrees_exponents`), and its elements can be sent (`readable_exponents`).

In the suite `flaggedExponents` elements are written in as many octets as points, with flags.
-/

namespace Guardianship

open scoped Fin.CommRing

/-! ### The suite -/

namespace Suite

/-- A number modulo `2 ^ 256`. -/
def exponent (n : ℕ) : Block 32 := .ofNatLE (n % Octets.bound 32)

/-- Exponents in place of points, and multiples of nine in place of public keys. -/
def exponents : Suite where
  order := Bls12.order
  order_pos := standard.order_pos
  order_le := standard.order_le
  Element := Fin Bls12.order
  decEq := inferInstance
  identity := 0
  generator := 1
  add a b := a + b
  multiply k a := k * a
  encode a := Octets.ofNatLE 32 a.val
  decode xs := if h : Octets.toNatLE xs < Bls12.order then .ok ⟨_, h⟩ else .error .elementInvalid
  sample := sampleScalar
  publicKey a := exponent (a.toNatLE * 9)
  agree a b := exponent (a.toNatLE * b.toNatLE)

theorem toNatLE_exponent (n : ℕ) : (exponent n).toNatLE = n % Octets.bound 32 :=
  Octets.toNatLE_ofNatLE (Nat.mod_lt n (by decide))

theorem agrees_exponents : exponents.Agrees := by
  intro a b
  show exponent (a.toNatLE * (exponent (b.toNatLE * 9)).toNatLE)
    = exponent (b.toNatLE * (exponent (a.toNatLE * 9)).toNatLE)
  rw [toNatLE_exponent, toNatLE_exponent, exponent, exponent, Nat.mul_mod_mod, Nat.mul_mod_mod,
    Nat.mul_left_comm]

theorem decode_exponents {xs : Octets} (h : Octets.toNatLE xs < Bls12.order) :
    exponents.decode xs = .ok (⟨Octets.toNatLE xs, h⟩ : Fin Bls12.order) := dif_pos h

theorem toNatLE_encode_exponents (a : Fin Bls12.order) :
    Octets.toNatLE (exponents.encode a) = a.val :=
  Octets.toNatLE_ofNatLE (Nat.lt_of_lt_of_le a.isLt exponents.order_le)

theorem readable_exponents : exponents.Readable := by
  intro a
  have hval := toNatLE_encode_exponents a
  have hlt : Octets.toNatLE (exponents.encode a) < Bls12.order := by
    rw [hval]
    exact Fin.isLt _
  have hread : (⟨Octets.toNatLE (exponents.encode a), hlt⟩ : Fin Bls12.order) = a := by
    apply Fin.ext
    exact hval
  rw [decode_exponents hlt, hread]

/-- Repeated addition of a residue is multiplication. -/
theorem times_exponents (a : Fin Bls12.order) :
    ∀ n : ℕ, exponents.times a n = (n : Fin Bls12.order) * a
  | 0 => by
    rw [Nat.cast_zero, zero_mul]
    rfl
  | n + 1 => by
    rw [Nat.cast_succ, add_mul, one_mul, ← times_exponents a n]
    rfl

theorem lawful_exponents : exponents.Lawful where
  prime_order := Bls12.prime_order
  add_assoc := fun a b c : Fin Bls12.order => add_assoc a b c
  add_comm := fun a b : Fin Bls12.order => add_comm a b
  identity_add := fun a : Fin Bls12.order => zero_add a
  times_order :=
    (times_exponents 1 Bls12.order).trans (by rw [Fin.natCast_self, zero_mul]; rfl)
  generator_ne := by decide +kernel
  generates := fun p : Fin Bls12.order =>
    ⟨p.val, (times_exponents 1 p.val).trans (by rw [mul_one, Fin.cast_val_eq_self])⟩
  multiply_eq := fun k p : Fin Bls12.order =>
    ((times_exponents p k.val).trans (by rw [Fin.cast_val_eq_self]; rfl)).symm

/-! ### Exponents in the form of points -/

/-- The exponents again, written in 48 octets: flags come first, and zero is written like
infinity. -/
def flaggedExponents : Suite :=
  { exponents with
    encode := fun a : Fin Bls12.order => (if a = 0 then 0xc0 else 0x80) :: Octets.ofNatBE 47 a.val
    decode := fun xs => exponents.decode xs.tail.reverse }

theorem times_flaggedExponents (a : Fin Bls12.order) :
    ∀ n : ℕ, flaggedExponents.times a n = exponents.times a n
  | 0 => rfl
  | n + 1 => congrArg (fun b : Fin Bls12.order => b + a) (times_flaggedExponents a n)

theorem lawful_flaggedExponents : flaggedExponents.Lawful where
  prime_order := lawful_exponents.prime_order
  add_assoc := lawful_exponents.add_assoc
  add_comm := lawful_exponents.add_comm
  identity_add := lawful_exponents.identity_add
  times_order := (times_flaggedExponents _ _).trans lawful_exponents.times_order
  generator_ne := lawful_exponents.generator_ne
  generates p := by
    obtain ⟨n, hn⟩ := lawful_exponents.generates p
    exact ⟨n, (times_flaggedExponents _ n).trans hn⟩
  multiply_eq k p :=
    (lawful_exponents.multiply_eq k p).trans (times_flaggedExponents p k.val).symm

theorem compressed_flaggedExponents : flaggedExponents.Compressed where
  length_encode a := by
    show (Octets.ofNatBE 47 _).length + 1 = 48
    rw [Octets.length_ofNatBE]
  encode_injective := by
    have hbound : Bls12.order ≤ Octets.bound 47 := by decide
    have hread : ∀ a : Fin Bls12.order, Octets.toNatBE (Octets.ofNatBE 47 a.val) = a.val :=
      fun a => Octets.toNatBE_ofNatBE (Nat.lt_of_lt_of_le a.isLt hbound)
    intro a b hab
    have htail := (List.cons.inj hab).2
    exact Fin.ext (by rw [← hread a, htail, hread b])
  head_encode a := by
    refine ⟨_, _, rfl, ?_⟩
    split_ifs <;> decide

end Suite

end Guardianship
