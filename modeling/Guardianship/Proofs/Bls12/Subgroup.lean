import Guardianship.Proofs.Bls12.Curve
import Guardianship.Proofs.Bls12.Primes
import Mathlib.GroupTheory.Coset.Card

/-!
# The subgroup of prime order

The multiple of a point by doubling and adding is its multiple in the group of the curve
(`Point.ofCurve_nsmul`), so a point passes the reader's test exactly if its multiple by the order is
zero (`Point.inSubgroup_ofCurve`).  These points (`primeSubgroup`) are the ones that can get into a
ceremony (`Point.admitted_iff`).  They are the multiples of the generator
(`exists_nsmul_generator`), so there are as many as the order says (`card_primeSubgroup`): there are
at most two points for each first coordinate (`card_curve_le`), too few for a second cyclic group of
this order.
-/

namespace Guardianship.Bls12

open scoped Fin.CommRing Coordinate

/-- The points of the curve whose multiple by the order is zero. -/
noncomputable def primeSubgroup : AddSubgroup curve.Point := (nsmulAddMonoidHom order).ker

theorem mem_primeSubgroup {P : curve.Point} : P ∈ primeSubgroup ↔ order • P = 0 :=
  AddMonoidHom.mem_ker

namespace Point

/-! ### Multiples -/

/-- Doubling and adding counts the copies of a point in binary. -/
theorem toPoint_multiplyBits (P : curve.Point) (k : ℕ) :
    ∀ (count n : ℕ) (acc : Scaled), acc.toPoint = ofCurve (n • P) →
      (Scaled.multiplyBits (ofCurve P) k count acc).toPoint =
        ofCurve ((n * 2 ^ count + k % 2 ^ count) • P)
  | 0, n, acc, hacc => by
    rw [Scaled.multiplyBits, hacc, pow_zero, Nat.mul_one, Nat.mod_one, Nat.add_zero]
  | count + 1, n, acc, hacc => by
    have htwice : acc.double.toPoint = ofCurve ((n + n) • P) := by
      rw [Scaled.toPoint_double, hacc, add_nsmul, ofCurve_add]
    have hnext : (if k.testBit count then acc.double.add (ofCurve P) else acc.double).toPoint =
        ofCurve ((n + n + (k.testBit count).toNat) • P) := by
      cases k.testBit count with
      | false => exact htwice
      | true =>
        refine (Scaled.toPoint_add _ _).trans ?_
        rw [htwice, ← ofCurve_add]
        exact congrArg ofCurve (succ_nsmul P (n + n)).symm
    have hbinary : (n + n + (k.testBit count).toNat) * 2 ^ count + k % 2 ^ count =
        n * 2 ^ (count + 1) + k % 2 ^ (count + 1) := by
      rw [Nat.mod_pow_succ, Nat.toNat_testBit]
      ring
    rw [Scaled.multiplyBits, toPoint_multiplyBits P k count _ _ hnext, hbinary]

theorem toPoint_multiplyBits_log2 (P : curve.Point) (k : ℕ) :
    (Scaled.multiplyBits (ofCurve P) k (k.log2 + 1) Scaled.infinity).toPoint = ofCurve (k • P) := by
  have hmultiple := toPoint_multiplyBits P k (k.log2 + 1) 0 Scaled.infinity
    (congrArg ofCurve (zero_nsmul P)).symm
  rwa [Nat.zero_mul, Nat.zero_add, Nat.mod_eq_of_lt Nat.lt_log2_self] at hmultiple

/-- **Multiples of points are those of the curve's group.** -/
theorem ofCurve_nsmul (k : ℕ) (P : curve.Point) : ofCurve (k • P) = (ofCurve P).multiply k :=
  (toPoint_multiplyBits_log2 P k).symm

theorem ofCurve_eq_infinity_iff {P : curve.Point} : ofCurve P = .infinity ↔ P = 0 :=
  ofCurve_injective.eq_iff' rfl

/-- **The test for the group** multiplies by the order. -/
theorem inSubgroup_ofCurve {P : curve.Point} :
    (ofCurve P).inSubgroup = true ↔ P ∈ primeSubgroup := by
  rw [inSubgroup, onCurve_ofCurve, Bool.true_and, decide_eq_true_iff, mem_primeSubgroup,
    ← ofCurve_eq_infinity_iff, ← toPoint_multiplyBits_log2]
  exact ⟨Scaled.toPoint_of_z_eq_zero, Scaled.z_eq_zero_of_toPoint⟩

theorem exists_of_inSubgroup {p : Point} (h : p.inSubgroup = true) :
    ∃ P ∈ primeSubgroup, ofCurve P = p := by
  obtain ⟨P, rfl⟩ := exists_ofCurve (onCurve_of_inSubgroup h)
  exact ⟨P, inSubgroup_ofCurve.mp h, rfl⟩

theorem inSubgroup_generator : generator.inSubgroup = true := by decide +kernel

/-- **The points of a ceremony** are those of the subgroup. -/
theorem admitted_iff {p : Point} : p.Admitted ↔ ∃ P ∈ primeSubgroup, ofCurve P = p := by
  constructor
  · intro h
    induction h with
    | infinity => exact ⟨0, zero_mem _, rfl⟩
    | generator => exact exists_of_inSubgroup inSubgroup_generator
    | add _ _ ihp ihq =>
      obtain ⟨P, hP, rfl⟩ := ihp
      obtain ⟨Q, hQ, rfl⟩ := ihq
      exact ⟨P + Q, add_mem hP hQ, ofCurve_add P Q⟩
    | multiply k _ ih =>
      obtain ⟨P, hP, rfl⟩ := ih
      exact ⟨k • P, nsmul_mem hP k, ofCurve_nsmul k P⟩
    | decoded h =>
      obtain ⟨-, -, rfl | h⟩ := decode_eq_ok_iff.mp h
      · exact ⟨0, zero_mem _, rfl⟩
      · exact exists_of_inSubgroup h
  · rintro ⟨P, hP, rfl⟩
    exact .decoded (decode_encode (.inr (inSubgroup_ofCurve.mpr hP)))

/-- The order is odd, so no point of the subgroup is its own opposite. -/
theorem y_ne_zero_of_inSubgroup {x y : Coordinate} (h : (affine x y).inSubgroup = true) :
    y ≠ 0 := by
  rintro rfl
  obtain ⟨P, hmem, hP⟩ := exists_of_inSubgroup h
  obtain ⟨k, hk⟩ : ∃ k, order = 2 * k + 1 := ⟨order / 2, by decide⟩
  have htwice : 2 • P = 0 := by
    rw [two_nsmul]
    cases P with
    | zero => exact add_zero 0
    | some x' y' hns =>
      obtain ⟨rfl, rfl⟩ := Point.affine.inj hP
      exact WeierstrassCurve.Affine.Point.add_self_of_Y_eq (by rw [negY_eq, neg_zero])
  have hzero : P = 0 := by
    have horder := mem_primeSubgroup.mp hmem
    rwa [hk, add_nsmul, one_nsmul, mul_nsmul, htwice, nsmul_zero, zero_add] at horder
  rw [ofCurve_eq_infinity_iff.mpr hzero] at hP
  cases hP

end Point

/-! ### The number of points -/

/-- The second coordinate is determined by its square and by being the larger one or not. -/
theorem Coordinate.eq_of_mul_self {y y' : Coordinate} (h : y * y = y' * y')
    (hlarger : isLarger y = isLarger y') : y = y' := by
  have hchoose := choose_root (mul_self_eq_mul_self_iff.mp h)
  rwa [if_pos hlarger] at hchoose

/-- What an encoding keeps of a point of the curve. -/
def sign : curve.Point → Option (Coordinate × Bool)
  | .zero => none
  | .some x y _ => some (x, y.isLarger)

theorem sign_injective : Function.Injective sign
  | .zero, .zero, _ => rfl
  | .some x y h, .some x' y' h', heq => by
    obtain ⟨rfl, hlarger⟩ := Prod.mk.inj (Option.some.inj heq)
    obtain rfl := Coordinate.eq_of_mul_self
      ((nonsingular_iff.mp h).trans (nonsingular_iff.mp h').symm) hlarger
    rfl

theorem finite_curve : Finite curve.Point := Finite.of_injective sign sign_injective

theorem card_curve_le : Nat.card curve.Point ≤ 2 * modulus + 1 := by
  have hcard : Nat.card (Option (Coordinate × Bool)) = 2 * modulus + 1 := by
    rw [Finite.card_option, Nat.card_prod, Nat.card_eq_fintype_card, Fintype.card_fin,
      Nat.card_eq_fintype_card, Fintype.card_bool, Nat.mul_comm]
  rw [← hcard]
  exact Nat.card_le_card_of_injective sign sign_injective

/-! ### Multiples of the generator -/

section Generator

variable {G : curve.Point} (hG : Point.ofCurve G = Point.generator)
include hG

theorem addOrderOf_generator : addOrderOf G = order := by
  have : Fact order.Prime := ⟨prime_order⟩
  refine addOrderOf_eq_prime ?_ ?_
  · exact mem_primeSubgroup.mp (Point.inSubgroup_ofCurve.mp (hG ▸ Point.inSubgroup_generator))
  · rintro rfl
    cases hG

/-- **The group is cyclic**: another point of this order would make a second factor of the order in
the number of all points, which is too small for that. -/
theorem exists_nsmul_generator {P : curve.Point} (hP : P ∈ primeSubgroup) : ∃ n : ℕ, n • G = P := by
  have : Fact order.Prime := ⟨prime_order⟩
  have := finite_curve
  let H := AddSubgroup.zmultiples G
  have hH : Nat.card H = order := by rw [Nat.card_zmultiples, addOrderOf_generator hG]
  by_contra hnot
  have hne : (QuotientAddGroup.mk P : curve.Point ⧸ H) ≠ 0 := fun h0 =>
    hnot (mem_multiples_iff_mem_zmultiples.mpr ((QuotientAddGroup.eq_zero_iff P).mp h0))
  have hquotient : order ∣ Nat.card (curve.Point ⧸ H) := by
    rw [← addOrderOf_eq_prime (p := order) ?_ hne]
    · exact addOrderOf_dvd_natCard _
    · rw [← QuotientAddGroup.mk_nsmul, mem_primeSubgroup.mp hP, QuotientAddGroup.mk_zero]
  have hdvd : order * order ∣ Nat.card curve.Point := by
    rw [AddSubgroup.card_eq_card_quotient_mul_card_addSubgroup H, hH]
    exact Nat.mul_dvd_mul_right hquotient order
  have hle := (Nat.le_of_dvd Nat.card_pos hdvd).trans card_curve_le
  exact absurd hle (by decide)

theorem zmultiples_generator : AddSubgroup.zmultiples G = primeSubgroup := by
  ext P
  constructor
  · intro h
    obtain ⟨k, rfl⟩ := AddSubgroup.mem_zmultiples_iff.mp h
    have horder : order • G = 0 := addOrderOf_generator hG ▸ addOrderOf_nsmul_eq_zero G
    rw [mem_primeSubgroup, smul_comm, horder, zsmul_zero]
  · intro h
    obtain ⟨n, rfl⟩ := exists_nsmul_generator hG h
    exact AddSubgroup.nsmul_mem_zmultiples G n

end Generator

/-- The subgroup has as many points as the order says. -/
theorem card_primeSubgroup : Nat.card primeSubgroup = order := by
  obtain ⟨G, hG⟩ :=
    Point.exists_ofCurve (Point.onCurve_of_inSubgroup Point.inSubgroup_generator)
  rw [← zmultiples_generator hG, Nat.card_zmultiples, addOrderOf_generator hG]

end Guardianship.Bls12
