import Guardianship.Polynomial
import Mathlib.Algebra.Field.ZMod
import Mathlib.LinearAlgebra.Vandermonde

/-!
# Values of polynomials

Horner's rule gives the sum of the coefficients times powers (`horner_eq_sum`), and powers by
squaring are powers (`Modular.power_eq_pow`).  Over a prime modulus a list of coefficients is
determined by its values at as many different points (`eq_of_horner_eq`), and numbers of 64 bits
are different points if the modulus is large enough (`Suite.scalar_injOn`).
-/

namespace Guardianship

open scoped Fin.CommRing

theorem Modular.power_eq_pow {n : ℕ} [NeZero n] (a : Fin n) (e : ℕ) : power a e = a ^ e := by
  induction e using Nat.strong_induction_on generalizing a with
  | _ e ih =>
    rcases Nat.eq_zero_or_pos e with rfl | hpos
    · rw [power_zero, pow_zero]
      rfl
    · rcases Nat.even_or_odd' e with ⟨k, rfl | rfl⟩
      · rw [power_even, ih k (by omega), pow_mul, sq]
      · rw [power_odd, ih k (by omega), pow_succ, pow_mul, sq, mul_comm]

namespace Suite

variable (S : Suite)

/-- The value at a point of the polynomial with given coefficients, by Horner's rule. -/
def horner (as : List S.Scalar) (x : S.Scalar) : S.Scalar :=
  as.foldr (fun a value => value * x + a) 0

variable {S}

@[simp] theorem horner_nil (x : S.Scalar) : S.horner [] x = 0 := rfl

@[simp] theorem horner_cons (a : S.Scalar) (as : List S.Scalar) (x : S.Scalar) :
    S.horner (a :: as) x = S.horner as x * x + a := rfl

theorem horner_eq_sum (x : S.Scalar) :
    ∀ as : List S.Scalar, S.horner as x = ∑ i : Fin as.length, as[i] * x ^ (i : ℕ)
  | [] => by simp
  | a :: as => by
    rw [horner_cons, horner_eq_sum x as, Finset.sum_mul]
    simp only [List.length_cons, Fin.sum_univ_succ, Fin.getElem_fin, Fin.val_zero,
      List.getElem_cons_zero, pow_zero, mul_one, Fin.val_succ, List.getElem_cons_succ, pow_succ,
      mul_assoc]
    rw [add_comm]

theorem isDomain_scalar (hq : S.order.Prime) : IsDomain S.Scalar :=
  have : Fact S.order.Prime := ⟨hq⟩
  MulEquiv.isDomain (ZMod S.order) (ZMod.finEquiv S.order).toMulEquiv

/-- **Interpolation is unique**: as many values at different points as there are coefficients
leave no choice of them. -/
theorem eq_of_horner_eq (hq : S.order.Prime) {as bs : List S.Scalar}
    (hlen : as.length = bs.length) {ι : Type} [Fintype ι] {x : ι → S.Scalar}
    (hx : Function.Injective x) (hcard : as.length ≤ Fintype.card ι)
    (heq : ∀ i, S.horner as (x i) = S.horner bs (x i)) : as = bs := by
  have := isDomain_scalar hq
  -- pick as many of the points as there are coefficients
  obtain ⟨e⟩ : Nonempty (Fin as.length ↪ ι) :=
    Function.Embedding.nonempty_of_card_le (by rwa [Fintype.card_fin])
  have hzero : (fun i : Fin as.length => as[i] - bs[i]) = 0 := by
    refine Matrix.eq_zero_of_forall_index_sum_mul_pow_eq_zero (hx.comp e.injective) fun j => ?_
    have hj := sub_eq_zero.mpr (heq (e j))
    rw [horner_eq_sum, horner_eq_sum] at hj
    rw [← hj, ← Equiv.sum_comp (finCongr hlen) fun i => bs[i] * x (e j) ^ (i : ℕ),
      ← Finset.sum_sub_distrib]
    exact Finset.sum_congr rfl fun i _ => sub_mul _ _ _
  refine List.ext_getElem hlen fun i hi _ => ?_
  exact sub_eq_zero.mp (congrFun hzero ⟨i, hi⟩)

/-- Different numbers below the modulus are different scalars. -/
theorem scalar_injOn {a b : ℕ} (ha : a < S.order) (hb : b < S.order)
    (h : S.scalar a = S.scalar b) : a = b := by
  have hval := congrArg Fin.val h
  simpa only [scalar, Fin.val_ofNat, Nat.mod_eq_of_lt ha, Nat.mod_eq_of_lt hb] using hval

theorem scalar_uint64_injective (hq : 2 ^ 64 ≤ S.order) :
    Function.Injective fun x : UInt64 => S.scalar x.toNat := by
  intro x y hxy
  have hx := x.toNat_lt
  have hy := y.toNat_lt
  exact UInt64.toNat_inj.mp (scalar_injOn (by omega) (by omega) hxy)

end Suite

theorem Polynomial.evaluate_eq_horner {S : Suite} (p : Polynomial S) (x : UInt64) :
    p.evaluate x = S.horner p.coefficients (S.scalar x.toNat) := rfl

/-- At zero a polynomial has its secret for a value. -/
theorem Polynomial.evaluate_zero {S : Suite} (p : Polynomial S) : p.evaluate 0 = p.secret := by
  obtain ⟨_ | ⟨a, as⟩, cs, hne, hcs⟩ := p
  · exact absurd rfl hne
  · show S.horner as 0 * 0 + a = a
    rw [mul_zero, zero_add]

end Guardianship
