import Guardianship.Proofs.Guardian.Dealing
import Guardianship.Proofs.Polynomial.Threshold

/-!
# The quorum is the threshold

The coefficients of a guardian's polynomial are the scalars that were drawn, as many as the quorum,
and every polynomial of this length can be drawn (`exists_tape_drawPolynomial`).  As many values as
the quorum, at whatever places, belong to no other polynomial of this length; one value fewer, at
places other than zero, belongs to one polynomial for each scalar that the secret might be.

Main statement: `Guardian.quorum_is_threshold`, for the suite that ceremonies run with.  Its order
is prime (`Bls12.prime_order`), so nothing is assumed of it.
-/

namespace Guardianship

namespace Suite

open scoped Fin.CommRing

theorem prime_order_standard : standard.order.Prime := Bls12.prime_order

theorem places_le_order_standard : 2 ^ 64 ≤ standard.order := by decide +kernel

/-! ### What can be drawn -/

theorem mul_drawFactor : Fin.ofNat Bls12.order (1 <<< 256) * drawFactor = 1 := by decide +kernel

theorem sampleScalar_ofNatLE (v : Fin Bls12.order) :
    sampleScalar (.ofNatLE v.val) = some (v * drawFactor) := by
  have hv : (Block.ofNatLE v.val : Block 32).toNatLE % (1 <<< 255) = v.val := by
    rw [Block.toNatLE, Block.ofNatLE, Octets.toNatLE_ofNatLE (v.isLt.trans (by decide)),
      Nat.mod_eq_of_lt (v.isLt.trans (by decide))]
  simp only [sampleScalar, hv, v.isLt, dif_pos, Fin.eta]

theorem sample_standard : standard.sample = sampleScalar := rfl

/-- Octets for which a given scalar is drawn. -/
def blockFor (a : Fin Bls12.order) : Block 32 :=
  .ofNatLE (a * Fin.ofNat Bls12.order (1 <<< 256)).val

theorem sampleScalar_blockFor (a : Fin Bls12.order) : sampleScalar (blockFor a) = some a := by
  rw [blockFor, sampleScalar_ofNatLE, mul_assoc, mul_drawFactor, mul_one]

theorem exists_tape_drawScalars (as : List standard.Scalar) :
    ∃ t : Tape, (standard.drawScalars as.length t).1 = as := by
  have hsample : ∀ a : standard.Scalar, standard.sample (blockFor a) = some a :=
    fun a => (congrFun sample_standard _).trans (sampleScalar_blockFor a)
  exact ⟨_, congrArg Prod.fst (drawScalars_of_sample hsample as)⟩

end Suite

namespace Guardian

variable {S : Suite} {ρ : Type} [RandomSource ρ]

theorem exists_drawPolynomial_iff {order quorum : UInt64} {r : ρ} :
    (∃ p : Polynomial S, (drawPolynomial order quorum r).1 = .ok p) ↔ order ≠ 0 ∧ quorum ≠ 0 := by
  constructor
  · rintro ⟨p, hp⟩
    obtain ⟨ho, hlen⟩ := of_drawPolynomial hp
    refine ⟨ho, ?_⟩
    rintro rfl
    exact p.coefficients_ne_nil (List.length_eq_zero_iff.mp hlen)
  · exact fun ⟨ho, hq⟩ => exists_drawPolynomial ho hq r

/-- Every polynomial with as many coefficients as the quorum can be drawn. -/
theorem exists_tape_drawPolynomial {order quorum : UInt64} (ho : order ≠ 0)
    {p : Polynomial Suite.standard} (hp : p.coefficients.length = quorum.toNat) :
    ∃ t : Tape, (drawPolynomial order quorum t).1 = .ok p := by
  obtain ⟨t, ht⟩ := Suite.exists_tape_drawScalars p.coefficients
  rw [hp] at ht
  exact ⟨t, drawPolynomial_eq_ok_iff.mpr ⟨ho, ht.symm⟩⟩

/-- **The quorum is the threshold.**  For every number of coefficients but zero, as many values
belong to exactly one polynomial, and one value fewer, none of them at zero, belongs to exactly one
polynomial with a given secret.  A guardian's polynomial is drawn unless its place or the quorum is
zero; its coefficients are the drawn scalars, as many as the quorum, so that a quorum of its values
determines it, and one value fewer leaves every secret possible.  Each of the polynomials with these
secrets may be the one that was drawn. -/
theorem quorum_is_threshold :
    (∀ (k : ℕ) (xs : Finset UInt64), k ≠ 0 → xs.card = k →
      ∀ y : UInt64 → Suite.standard.Scalar, ∃! p : Polynomial Suite.standard,
        p.coefficients.length = k ∧ ∀ x ∈ xs, p.evaluate x = y x) ∧
    (∀ (k : ℕ) (xs : Finset UInt64), xs.card + 1 = k → 0 ∉ xs →
      ∀ (y : UInt64 → Suite.standard.Scalar) (a : Suite.standard.Scalar),
        ∃! p : Polynomial Suite.standard,
          p.coefficients.length = k ∧ p.secret = a ∧ ∀ x ∈ xs, p.evaluate x = y x) ∧
    (∀ (order quorum : UInt64) (r : ρ),
      ((∃ p : Polynomial Suite.standard, (drawPolynomial order quorum r).1 = .ok p) ↔
        order ≠ 0 ∧ quorum ≠ 0) ∧
      ∀ p : Polynomial Suite.standard, (drawPolynomial order quorum r).1 = .ok p →
        p.coefficients = (Suite.standard.drawScalars quorum.toNat r).1 ∧
        p.coefficients.length = quorum.toNat ∧
        (∀ xs : Finset UInt64, xs.card = quorum.toNat → ∀ q : Polynomial Suite.standard,
          q.coefficients.length = quorum.toNat → (∀ x ∈ xs, q.evaluate x = p.evaluate x) →
            q = p) ∧
        ∀ xs : Finset UInt64, xs.card + 1 = quorum.toNat → 0 ∉ xs →
          ∀ a : Suite.standard.Scalar, ∃! q : Polynomial Suite.standard,
            q.coefficients.length = quorum.toNat ∧ q.secret = a ∧
              ∀ x ∈ xs, q.evaluate x = p.evaluate x) ∧
    ∀ (order quorum : UInt64) (p : Polynomial Suite.standard), order ≠ 0 →
      p.coefficients.length = quorum.toNat →
        ∃ t : Tape, (drawPolynomial order quorum t).1 = .ok p := by
  have hprime := Suite.prime_order_standard
  have h64 := Suite.places_le_order_standard
  refine ⟨fun k xs hk hcard y => ?_, fun k xs hcard h0 y a => ?_, fun order quorum r => ?_,
    fun order quorum p ho hlen => exists_tape_drawPolynomial ho hlen⟩
  · exact Polynomial.existsUnique_evaluate_eq hprime h64 hk hcard y
  · exact Polynomial.existsUnique_secret_eq hprime h64 hcard h0 y a
  · refine ⟨exists_drawPolynomial_iff, fun p hp => ?_⟩
    obtain ⟨-, hdrawn⟩ := drawPolynomial_eq_ok_iff.mp hp
    obtain ⟨-, hlen⟩ := of_drawPolynomial hp
    refine ⟨hdrawn, hlen, fun xs hcard q hlen' heq => ?_, fun xs hcard h0 a => ?_⟩
    · exact Polynomial.eq_of_evaluate_eq hprime h64 (hlen'.trans hlen.symm)
        (hlen.trans hcard.symm).le heq
    · exact Polynomial.existsUnique_secret_eq hprime h64 hcard h0 p.evaluate a

/-- With a quorum of two, any two values belong to one polynomial, and a single value leaves every
secret possible; the first guardian's polynomial has the two drawn scalars for coefficients and is
determined by its values at two places.  Any other with two coefficients may be drawn. -/
theorem quorum_of_two :
    (∀ y : UInt64 → Suite.standard.Scalar, ∃! p : Polynomial Suite.standard,
      p.coefficients.length = 2 ∧ ∀ x ∈ ({1, 2} : Finset UInt64), p.evaluate x = y x) ∧
    (∀ (y : UInt64 → Suite.standard.Scalar) (a : Suite.standard.Scalar),
      ∃! p : Polynomial Suite.standard, p.coefficients.length = 2 ∧ p.secret = a ∧
        ∀ x ∈ ({2} : Finset UInt64), p.evaluate x = y x) ∧
    (∃ p : Polynomial Suite.standard, (drawPolynomial 1 2 (SplitMix.mk 7)).1 = .ok p ∧
      p.coefficients = (Suite.standard.drawScalars 2 (SplitMix.mk 7)).1 ∧
      ∀ q : Polynomial Suite.standard, q.coefficients.length = 2 →
        (∀ x ∈ ({1, 2} : Finset UInt64), q.evaluate x = p.evaluate x) → q = p) ∧
    ∀ p : Polynomial Suite.standard, p.coefficients.length = 2 →
      ∃ t : Tape, (drawPolynomial 1 2 t).1 = .ok p := by
  obtain ⟨hall, hfewer, hdraw, hevery⟩ := @quorum_is_threshold SplitMix _
  obtain ⟨hex, hdrawn⟩ := hdraw 1 2 ⟨7⟩
  obtain ⟨p, hp⟩ := hex.mpr (by decide)
  obtain ⟨hcoefficients, -, hunique, -⟩ := hdrawn p hp
  exact ⟨hall 2 _ (by decide) (by decide), hfewer 2 _ (by decide) (by decide),
    ⟨p, hp, hcoefficients, hunique _ (by decide)⟩, fun q => hevery 1 2 q (by decide)⟩

end Guardian

end Guardianship
