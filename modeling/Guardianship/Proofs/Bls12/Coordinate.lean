import Guardianship.Bls12.Encoding
import Guardianship.Proofs.Bls12.Primes

/-!
# The field of coordinates

The modulus is prime, so the residues modulo it are a field, in which `inverse` inverts
(`Coordinate.mul_inverse`) and `root?` finds a root of every square (`Coordinate.exists_root?`),
which is the one or the other of two.  Of the two exactly one is the larger one, unless both are
zero (`Coordinate.isLarger_neg`), so it can be told by one bit which of them is meant
(`Coordinate.choose_root`).
-/

namespace Guardianship.Bls12.Coordinate

open scoped Fin.CommRing

theorem pow_pred_modulus {a : Coordinate} (ha : a ≠ 0) : a ^ (modulus - 1) = 1 := by
  have : Fact modulus.Prime := ⟨prime_modulus⟩
  let e : Coordinate ≃+* ZMod modulus := ZMod.finEquiv modulus
  have hea : e a ≠ 0 := (map_ne_zero_iff e e.injective).mpr ha
  have hpow := ZMod.pow_card_sub_one_eq_one hea
  rwa [← map_pow, map_eq_one_iff e e.injective] at hpow

theorem mul_inverse {a : Coordinate} (ha : a ≠ 0) : a * inverse a = 1 := by
  have hexp : modulus - 2 + 1 = modulus - 1 := by decide
  rw [inverse, Modular.power_eq_pow, ← pow_succ', hexp, pow_pred_modulus ha]

theorem isField : IsField Coordinate where
  exists_pair_ne := ⟨0, 1, by decide⟩
  mul_comm := mul_comm
  mul_inv_cancel ha := ⟨_, mul_inverse ha⟩

/-- Coordinates are a field. -/
noncomputable scoped instance field : Field Coordinate := isField.toField

/-- Every square has a root that is found, and it is one of the two. -/
theorem exists_root? (y : Coordinate) : ∃ r, root? (y * y) = some r ∧ (r = y ∨ r = -y) := by
  have hexp : 2 * ((modulus + 1) / 4 + (modulus + 1) / 4) = modulus - 1 + 2 := by decide
  have hne : (modulus + 1) / 4 ≠ 0 := by decide
  let r := Modular.power (y * y) ((modulus + 1) / 4)
  have hr : r * r = y * y := by
    rw [show r = (y * y) ^ ((modulus + 1) / 4) from Modular.power_eq_pow _ _]
    by_cases hy : y = 0
    · rw [hy, mul_zero, zero_pow hne, mul_zero]
    · rw [← pow_add, ← pow_two, ← pow_mul, hexp, pow_add, pow_pred_modulus hy, one_mul]
  exact ⟨r, if_pos hr, mul_self_eq_mul_self_iff.mp hr⟩

theorem isLarger_neg {y : Coordinate} (hy : y ≠ 0) : isLarger (-y) = !isLarger y := by
  have hval : (-y).val = modulus - y.val := by rw [Fin.val_neg, if_neg hy]
  have hlt : y.val < modulus := y.isLt
  have hodd : modulus % 2 = 1 := by decide
  rw [isLarger, isLarger, hval, ← decide_not, decide_eq_decide]
  omega

/-- One bit tells which of two roots is meant. -/
theorem choose_root {r y : Coordinate} (h : r = y ∨ r = -y) :
    (if isLarger r = isLarger y then r else 0 - r) = y := by
  obtain rfl | rfl := h
  · exact if_pos rfl
  · by_cases hy : y = 0
    · subst hy
      rw [neg_zero, if_pos rfl]
    · rw [isLarger_neg hy, if_neg (Bool.not_ne_self _), zero_sub, neg_neg]

/-- The root that is picked by one bit has this bit, unless both roots are zero. -/
theorem isLarger_choose {r y : Coordinate} {larger : Bool}
    (h : (if isLarger r = larger then r else 0 - r) = y) (hy : y ≠ 0) : isLarger y = larger := by
  split_ifs at h with hr
  · rwa [← h]
  · have hr0 : r ≠ 0 := by
      rintro rfl
      exact hy (h ▸ sub_zero 0)
    rw [← h, zero_sub, isLarger_neg hr0]
    exact Bool.not_eq.mpr hr

end Guardianship.Bls12.Coordinate
