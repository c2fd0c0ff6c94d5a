import Guardianship.Bls12.Point
import Guardianship.Proofs.Polynomial.Values
import Mathlib.FieldTheory.Finite.Basic
import Mathlib.Tactic.NormNum.Prime

/-!
# The primes of BLS12-381

A number is prime if one less than it has a divisor beyond its root, whose prime factors are known,
and there is a residue whose order is divisible by it, also modulo every factor of the number
(`prime_of_factors`).  The order of the group is certified by the factors of its predecessor
(`prime_order`), and the modulus of coordinates is at the end of a chain of primes each of which
certifies the next (`prime_modulus`).
-/

namespace Guardianship.Bls12

open scoped Fin.CommRing

section Factors

variable {n : ℕ} [NeZero n]

/-- Residues modulo a number, read modulo one of its factors. -/
def toFactor {r : ℕ} (hr : r ∣ n) : Fin n →+* ZMod r :=
  (ZMod.castHom hr (ZMod r)).comp (ZMod.finEquiv n).toRingHom

theorem toFactor_eq_val {r : ℕ} (hr : r ∣ n) (a : Fin n) : toFactor hr a = (a.val : ZMod r) := by
  conv_lhs => rw [← Fin.cast_val_eq_self a]
  exact map_natCast _ _

/-- A residue that has no factor in common with the modulus is zero modulo none of them. -/
theorem toFactor_ne_zero {r : ℕ} (hr : r ∣ n) (hprime : r.Prime) {a : Fin n}
    (ha : a.val.Coprime n) : toFactor hr a ≠ 0 := by
  intro h0
  rw [toFactor_eq_val, ZMod.natCast_eq_zero_iff] at h0
  exact hprime.one_lt.ne' (Nat.eq_one_of_dvd_coprimes ha h0 hr)

/-- **A number with a large factored divisor of its predecessor is prime** if the order of some
residue is divisible by it. -/
theorem prime_of_factors (a : Fin n) (qs : List ℕ) (hqs : ∀ q ∈ qs, q.Prime)
    (hn : 1 < n) (hdvd : qs.prod ∣ n - 1) (hlarge : n < qs.prod * qs.prod)
    (hone : Modular.power a (n - 1) = 1)
    (hcoprime : ∀ q ∈ qs, (Modular.power a ((n - 1) / q) - 1).val.Coprime n) : n.Prime := by
  obtain ⟨k, hk⟩ := hdvd
  have hpos : 0 < qs.prod := Nat.pos_of_ne_zero fun h0 => by simp [h0] at hlarge
  have hr := Nat.minFac_dvd n
  have hprime := Nat.minFac_prime hn.ne'
  have : Fact n.minFac.Prime := ⟨hprime⟩
  -- a power of the residue whose order modulo the least factor is the divisor
  let b : ZMod n.minFac := toFactor hr a ^ k
  have hb : b ^ qs.prod = 1 := by
    rw [← pow_mul, mul_comm, ← hk, ← map_pow, ← Modular.power_eq_pow, hone, map_one]
  have horder : orderOf b = qs.prod := by
    refine orderOf_eq_of_pow_and_pow_div_prime hpos hb fun q hq hdvd hpow => ?_
    obtain ⟨r, hmem, hqr⟩ := hq.prime.dvd_prod_iff.mp hdvd
    obtain rfl := (Nat.prime_dvd_prime_iff_eq hq (hqs r hmem)).mp hqr
    refine toFactor_ne_zero hr hprime (hcoprime q hmem) ?_
    have hexp : (n - 1) / q = k * (qs.prod / q) := by
      rw [hk, mul_comm, Nat.mul_div_assoc _ hdvd]
    rw [map_sub, Modular.power_eq_pow, map_pow, hexp, pow_mul, map_one, sub_eq_zero]
    exact hpow
  have hb0 : b ≠ 0 := by
    intro h0
    rw [h0, zero_pow hpos.ne'] at hb
    exact zero_ne_one hb
  -- so the least factor is greater than the divisor, and there is no room for another one
  have hle : qs.prod ≤ n.minFac - 1 :=
    Nat.le_of_dvd (Nat.sub_pos_of_lt hprime.one_lt) (horder ▸ ZMod.orderOf_dvd_card_sub_one hb0)
  by_contra hcomposite
  have hsq := Nat.minFac_sq_le_self (Nat.pos_of_neZero n) hcomposite
  have hlt : qs.prod < n.minFac := by omega
  have hroot : qs.prod * qs.prod < n.minFac ^ 2 := by
    rw [sq]
    exact Nat.mul_lt_mul'' hlt hlt
  omega

end Factors

/-! ### The order of the group -/

/-- The prime factors of the predecessor of the order. -/
def factors : List ℕ :=
  List.replicate 32 2 ++ [3, 11, 19, 10177, 125527, 859267, 906349, 906349, 2508409, 2529403,
    52437899, 254760293, 254760293]

set_option maxRecDepth 20000 in
theorem prime_of_mem_factors : ∀ q ∈ factors, q.Prime := by
  norm_num [factors]

/-- **The order of the group is prime**: seven has the order of all residues but zero. -/
theorem prime_order : order.Prime := by
  refine prime_of_factors 7 factors prime_of_mem_factors ?_ ?_ ?_ ?_ ?_ <;> decide +kernel

/-! ### The modulus of coordinates -/

/-- Primes each of which divides the predecessor of the next one, and the last one that of the
modulus. -/
def chain : List ℕ :=
  [421987, 13090036741, 3819663927398918131021, 1125266252156850182658904441386709967,
    15778400344354997994418419698270088123916926905054652752758194827714659]

theorem prime_of_mem_chain : ∀ q ∈ chain, q.Prime := by
  have h₀ : Nat.Prime 421987 := by norm_num
  have h₁ : Nat.Prime 13090036741 := by
    refine prime_of_factors 2 [421987] (by simpa using h₀) ?_ ?_ ?_ ?_ ?_ <;> decide +kernel
  -- here the prime of the chain does not reach beyond the root by itself
  have h₂ : Nat.Prime 3819663927398918131021 := by
    refine prime_of_factors 3 [5, 13090036741] (by simpa [Nat.prime_five] using h₁) ?_ ?_ ?_ ?_ ?_
      <;> decide +kernel
  have h₃ : Nat.Prime 1125266252156850182658904441386709967 := by
    refine prime_of_factors 2 [3819663927398918131021] (by simpa using h₂) ?_ ?_ ?_ ?_ ?_
      <;> decide +kernel
  have h₄ : Nat.Prime
      15778400344354997994418419698270088123916926905054652752758194827714659 := by
    refine prime_of_factors 2 [1125266252156850182658904441386709967] (by simpa using h₃)
      ?_ ?_ ?_ ?_ ?_ <;> decide +kernel
  simp only [chain, List.forall_mem_cons]
  exact ⟨h₀, h₁, h₂, h₃, h₄, List.forall_mem_nil _⟩

/-- **The modulus of coordinates is prime.** -/
theorem prime_modulus : modulus.Prime := by
  refine prime_of_factors 2 (chain.drop 4)
    (fun q hq => prime_of_mem_chain q (List.mem_of_mem_drop hq)) ?_ ?_ ?_ ?_ ?_ <;> decide +kernel

end Guardianship.Bls12
