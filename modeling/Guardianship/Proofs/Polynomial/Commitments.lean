import Guardianship.Proofs.Suite.Exponents

/-!
# Checking values against commitments

In a lawful suite the commitments to a polynomial leave no choice of it
(`Polynomial.eq_of_commitments_eq`), every list of elements but the empty one consists of the
commitments to a polynomial (`Polynomial.exists_of_commitments`), and a value is accepted at a point
exactly if it is the value of that polynomial there (`Commitments.accepts_iff`).

In any suite the check is that of an equation between the commitment to the value and the sum of the
commitments times powers of the point (`Commitments.accepts_iff_commit_eq`).
-/

namespace Guardianship

open scoped Fin.CommRing

variable {S : Suite}

namespace Polynomial

theorem eq_of_coefficients_eq {p q : Polynomial S} (h : p.coefficients = q.coefficients) :
    p = q := by
  obtain ⟨as, cs, hne, hcs⟩ := p
  obtain ⟨bs, ds, hne', hds⟩ := q
  cases h
  cases hcs
  cases hds
  rfl

theorem coefficients_of_ofCoefficients {as : List S.Scalar} {p : Polynomial S}
    (h : ofCoefficients as = .ok p) : p.coefficients = as := by
  cases as with
  | nil => cases h
  | cons a as =>
    cases h
    rfl

theorem exists_ofCoefficients {as : List S.Scalar} (h : as ≠ []) :
    ∃ p : Polynomial S, ofCoefficients as = .ok p := by
  cases as with
  | nil => exact absurd rfl h
  | cons a as => exact ⟨_, rfl⟩

/-- Every polynomial is that of its coefficients. -/
theorem ofCoefficients_coefficients (p : Polynomial S) : ofCoefficients p.coefficients = .ok p := by
  obtain ⟨q, hq⟩ := exists_ofCoefficients p.coefficients_ne_nil
  rw [hq, eq_of_coefficients_eq (coefficients_of_ofCoefficients hq)]

theorem eq_of_commitments_eq (hS : S.Lawful) {p q : Polynomial S}
    (h : p.commitments = q.commitments) : p = q := by
  rw [p.commitments_eq, q.commitments_eq] at h
  exact eq_of_coefficients_eq (hS.commit_injective.list_map h)

theorem length_commitments (p : Polynomial S) : p.commitments.length = p.coefficients.length := by
  rw [p.commitments_eq, List.length_map]

theorem commitments_ne_nil (p : Polynomial S) : p.commitments ≠ [] := by
  rw [p.commitments_eq]
  exact fun h => p.coefficients_ne_nil (List.map_eq_nil_iff.mp h)

/-- Every list of elements but the empty one consists of commitments. -/
theorem exists_of_commitments (hS : S.Lawful) {cs : List S.Element} (hne : cs ≠ []) :
    ∃ p : Polynomial S, p.commitments = cs := by
  choose log hlog using hS.exists_commit
  have hinv : S.commit ∘ log = id := funext hlog
  have hmap : (cs.map log).map S.commit = cs := by
    rw [List.map_map, hinv, List.map_id]
  exact ⟨⟨cs.map log, cs, fun h => hne (List.map_eq_nil_iff.mp h), hmap.symm⟩, rfl⟩

/-- The first commitment is the commitment to the secret. -/
theorem head_commitments (p : Polynomial S) :
    p.commitments.head p.commitments_ne_nil = S.commit p.secret := by
  obtain ⟨as, cs, hne, hcs⟩ := p
  subst hcs
  exact List.head_map _

theorem exists_map_commitments (hS : S.Lawful) {css : List (List S.Element)}
    (hne : ∀ cs ∈ css, cs ≠ []) : ∃ ps : List (Polynomial S), ps.map commitments = css := by
  have hrange : css ∈ Set.range (List.map (commitments (S := S))) := by
    rw [Set.range_list_map]
    exact fun cs hcs => exists_of_commitments hS (hne cs hcs)
  exact hrange

theorem filterMap_head?_commitments (ps : List (Polynomial S)) :
    (ps.map commitments).filterMap List.head? = (ps.map secret).map S.commit := by
  rw [List.filterMap_map, List.map_map]
  refine List.filterMap_eq_map_iff_forall_eq_some.mpr fun p _ => ?_
  rw [Function.comp_apply, Function.comp_apply, ← p.head_commitments, List.head?_eq_some_head]

theorem publicKey_eq_commit_secret (p : Polynomial S) : p.publicKey = S.commit p.secret :=
  p.head_commitments

end Polynomial

namespace Commitments

theorem weighted_eq_mapIdx (x : S.Scalar) :
    ∀ (j : ℕ) (cs : List S.Element),
      weighted x j cs = cs.mapIdx fun i c => S.multiply (x ^ (j + i)) c
  | _, [] => rfl
  | j, c :: cs => by
    rw [weighted, weighted_eq_mapIdx x (j + 1) cs, List.mapIdx_cons, Modular.power_eq_pow]
    simp only [Nat.add_zero, Nat.add_assoc, Nat.add_comm 1]

/-- The check is an equation; without commitments it fails. -/
theorem accepts_iff_commit_eq {cs : List S.Element} {x : UInt64} {y : S.Scalar} :
    accepts cs x y = true ↔
      cs ≠ [] ∧
        S.commit y = S.sum (cs.mapIdx fun j c => S.multiply (S.scalar x.toNat ^ j) c) := by
  have heval : evaluate cs x =
      S.sum (cs.mapIdx fun j c => S.multiply (S.scalar x.toNat ^ j) c) := by
    rw [evaluate, weighted_eq_mapIdx]
    simp only [Nat.zero_add]
  rw [accepts, Bool.and_eq_true, Bool.not_eq_true', decide_eq_true_iff, heval,
    List.isEmpty_eq_false_iff]

theorem sum_weighted (hS : S.Lawful) (x : S.Scalar) :
    ∀ (j : ℕ) (as : List S.Scalar),
      S.sum (weighted x j (as.map S.commit)) = S.commit (x ^ j * S.horner as x)
  | j, [] => by
    rw [Suite.horner_nil, mul_zero, hS.commit_zero]
    rfl
  | j, a :: as => by
    rw [List.map_cons, weighted, hS.sum_cons, sum_weighted hS x (j + 1) as, hS.multiply_commit,
      Modular.power_eq_pow, ← hS.commit_add, Suite.horner_cons]
    congr 1
    ring

theorem evaluate_commitments (hS : S.Lawful) (p : Polynomial S) (x : UInt64) :
    evaluate p.commitments x = S.commit (p.evaluate x) := by
  rw [evaluate, p.commitments_eq, sum_weighted hS, pow_zero, one_mul, p.evaluate_eq_horner]

/-- **The check decides membership**: a value is accepted exactly if it is that of the
polynomial. -/
theorem accepts_iff (hS : S.Lawful) (p : Polynomial S) (x : UInt64) (y : S.Scalar) :
    accepts p.commitments x y = true ↔ y = p.evaluate x := by
  have hne : p.commitments.isEmpty = false := by simp [p.commitments_ne_nil]
  rw [accepts, hne, Bool.not_false, Bool.true_and, decide_eq_true_iff, evaluate_commitments hS]
  exact hS.commit_injective.eq_iff

/-- **What the check decides.**  Elements are commitments to exactly one list of as many
coefficients, unless there are none; a value is accepted at a place exactly if the polynomial with
these coefficients has it there, and without commitments none is accepted. -/
theorem check_decides_membership (hS : S.Lawful) (cs : List S.Element) :
    (cs ≠ [] → ∃! as : List S.Scalar, as.length = cs.length ∧
      ∃ p, Polynomial.ofCoefficients as = .ok p ∧ p.commitments = cs) ∧
    (∀ (as : List S.Scalar) (p : Polynomial S), Polynomial.ofCoefficients as = .ok p →
      p.commitments = cs → ∀ x y, accepts cs x y = true ↔ y = p.evaluate x) ∧
    (cs = [] → ∀ x y, accepts cs x y = false) := by
  refine ⟨fun hne => ?_, ?_, ?_⟩
  · obtain ⟨p, rfl⟩ := Polynomial.exists_of_commitments hS hne
    refine ⟨p.coefficients, ⟨p.length_commitments.symm, p, p.ofCoefficients_coefficients, rfl⟩, ?_⟩
    rintro as ⟨-, q, hq, hqp⟩
    rw [← Polynomial.eq_of_commitments_eq hS hqp, Polynomial.coefficients_of_ofCoefficients hq]
  · rintro as p - rfl x y
    exact accepts_iff hS p x y
  · rintro rfl x y
    rfl

/-- The multiples of the generator by 3 and by 5 are commitments to one polynomial, whose value at
two is 13; no other value is accepted there. -/
theorem thirteen_accepted_at_two :
    (∃! as : List Suite.exponents.Scalar, as.length = 2 ∧
      ∃ p, Polynomial.ofCoefficients as = .ok p ∧
        p.commitments = [Suite.exponents.commit 3, Suite.exponents.commit 5]) ∧
    ∀ y, accepts [Suite.exponents.commit 3, Suite.exponents.commit 5] 2 y = true ↔ y = 13 := by
  obtain ⟨hone, hval, -⟩ := check_decides_membership Suite.lawful_exponents
    [Suite.exponents.commit 3, Suite.exponents.commit 5]
  refine ⟨hone (by decide), fun y => ?_⟩
  rw [hval [3, 5] _ rfl rfl 2 y]
  have h13 : (⟨[3, 5], _, by decide, rfl⟩ : Polynomial Suite.exponents).evaluate 2 = 13 := by
    decide +kernel
  exact ⟨fun h => h.trans h13, fun h => h.trans h13.symm⟩

theorem ne_nil_of_accepts {cs : List S.Element} {x : UInt64} {y : S.Scalar}
    (h : accepts cs x y = true) : cs ≠ [] := by
  rintro rfl
  cases h

end Commitments

end Guardianship
