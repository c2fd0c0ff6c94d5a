import Guardianship.Proofs.Polynomial.Commitments

/-!
# How many values determine a secret

Whoever holds values of a polynomial that were accepted at some places, and knows of how many
coefficients there are commitments, can compute the secret if there are at least as many places as
commitments, or if one of the places is zero (`Commitments.determine_iff`).  Otherwise every scalar
may be the secret (`Commitments.hide_iff`): through the values at hand and any value at zero there
is still a polynomial, since interpolation is not only unique but possible
(`Suite.exists_horner_eq`).
-/

namespace Guardianship

open scoped Fin.CommRing

variable {S : Suite}

/-! ### Interpolation -/

namespace Suite

theorem horner_replicate_zero (x : S.Scalar) : ∀ n, S.horner (List.replicate n 0) x = 0
  | 0 => rfl
  | n + 1 => by rw [List.replicate_succ, horner_cons, horner_replicate_zero x n, zero_mul, zero_add]

theorem horner_append_replicate_zero (x : S.Scalar) (n : ℕ) :
    ∀ as : List S.Scalar, S.horner (as ++ List.replicate n 0) x = S.horner as x
  | [] => horner_replicate_zero x n
  | a :: as => by
    rw [List.cons_append, horner_cons, horner_append_replicate_zero x n as, horner_cons]

/-- **Interpolation is possible**: at no more different points than there are coefficients all
values can be had at once. -/
theorem exists_horner_eq (hq : S.order.Prime) {ι : Type} [Fintype ι] {x : ι → S.Scalar}
    (hx : Function.Injective x) {n : ℕ} (hn : Fintype.card ι ≤ n) (y : ι → S.Scalar) :
    ∃ as : List S.Scalar, as.length = n ∧ ∀ i, S.horner as (x i) = y i := by
  classical
  let values : (Fin (Fintype.card ι) → S.Scalar) → ι → S.Scalar :=
    fun a i => S.horner (List.ofFn a) (x i)
  have hinj : Function.Injective values := by
    intro a b hab
    have hlen : ∀ c : Fin (Fintype.card ι) → S.Scalar, (List.ofFn c).length = Fintype.card ι :=
      fun c => List.length_ofFn
    exact List.ofFn_injective (eq_of_horner_eq hq ((hlen a).trans (hlen b).symm) hx (hlen a).le
      (congrFun hab))
  -- there are as many lists of coefficients as there are families of values
  have hsurj : Function.Surjective values := by
    refine ((Fintype.bijective_iff_injective_and_card values).mpr ⟨hinj, ?_⟩).2
    simp only [Fintype.card_fun, Fintype.card_fin]
  obtain ⟨a, ha⟩ := hsurj y
  refine ⟨List.ofFn a ++ List.replicate (n - Fintype.card ι) 0, ?_, fun i => ?_⟩
  · rw [List.length_append, List.length_ofFn, List.length_replicate]
    omega
  · rw [horner_append_replicate_zero]
    exact congrFun ha i

/-- Different places are different points. -/
theorem scalar_places_injective (hq : 2 ^ 64 ≤ S.order) (xs : Finset UInt64) :
    Function.Injective fun x : xs => S.scalar x.val.toNat :=
  (scalar_uint64_injective hq).comp Subtype.val_injective

end Suite

namespace Polynomial

/-- The secret is one value more, at zero. -/
theorem evaluate_insert_zero_iff (p : Polynomial S) {xs : Finset UInt64} (h0 : 0 ∉ xs)
    (y : UInt64 → S.Scalar) (a : S.Scalar) :
    (∀ x ∈ insert 0 xs, p.evaluate x = Function.update y 0 a x) ↔
      p.secret = a ∧ ∀ x ∈ xs, p.evaluate x = y x := by
  have hne : ∀ x ∈ xs, x ≠ 0 := fun x hx h => h0 (h ▸ hx)
  rw [Finset.forall_mem_insert, Function.update_self, p.evaluate_zero]
  exact and_congr_right fun _ => forall₂_congr fun x hx => by
    rw [Function.update_of_ne (hne x hx)]

section Places

variable (hq : S.order.Prime) (h64 : 2 ^ 64 ≤ S.order) {xs : Finset UInt64}
include hq h64

/-- No two polynomials of one length have the same values at as many places. -/
theorem eq_of_evaluate_eq {p q : Polynomial S}
    (hlen : p.coefficients.length = q.coefficients.length)
    (hcard : q.coefficients.length ≤ xs.card) (h : ∀ x ∈ xs, p.evaluate x = q.evaluate x) :
    p = q := by
  refine eq_of_coefficients_eq
    (Suite.eq_of_horner_eq hq hlen (Suite.scalar_places_injective h64 xs) ?_ fun x => ?_)
  · rwa [Fintype.card_coe, hlen]
  · exact h x.val x.property

/-- Some polynomial of a length has given values at no more places. -/
theorem exists_evaluate_eq {k : ℕ} (hk : k ≠ 0) (hcard : xs.card ≤ k) (y : UInt64 → S.Scalar) :
    ∃ p : Polynomial S, p.coefficients.length = k ∧ ∀ x ∈ xs, p.evaluate x = y x := by
  obtain ⟨as, hlen, has⟩ := Suite.exists_horner_eq hq (Suite.scalar_places_injective h64 xs)
    (show Fintype.card xs ≤ k by rwa [Fintype.card_coe]) fun x : xs => y x
  have hne : as ≠ [] := fun h => by
    rw [h, List.length_nil] at hlen
    exact hk hlen.symm
  exact ⟨⟨as, _, hne, rfl⟩, hlen, fun x hx => has ⟨x, hx⟩⟩

/-- As many values as coefficients belong to one polynomial, whatever they are. -/
theorem existsUnique_evaluate_eq {k : ℕ} (hk : k ≠ 0) (hcard : xs.card = k)
    (y : UInt64 → S.Scalar) :
    ∃! p : Polynomial S, p.coefficients.length = k ∧ ∀ x ∈ xs, p.evaluate x = y x := by
  obtain ⟨p, hlen, hp⟩ := exists_evaluate_eq hq h64 hk hcard.le y
  refine ⟨p, ⟨hlen, hp⟩, fun q ⟨hlen', hq'⟩ => ?_⟩
  exact eq_of_evaluate_eq hq h64 (hlen'.trans hlen.symm) (hlen.trans hcard.symm).le
    fun x hx => (hq' x hx).trans (hp x hx).symm

/-- One value fewer, none of them at zero, belongs to one polynomial for each secret. -/
theorem existsUnique_secret_eq {k : ℕ} (hcard : xs.card + 1 = k) (h0 : 0 ∉ xs)
    (y : UInt64 → S.Scalar) (a : S.Scalar) :
    ∃! p : Polynomial S,
      p.coefficients.length = k ∧ p.secret = a ∧ ∀ x ∈ xs, p.evaluate x = y x := by
  have hinsert : (insert 0 xs).card = k := by rwa [Finset.card_insert_of_notMem h0]
  have hone := existsUnique_evaluate_eq hq h64 (by omega) hinsert (Function.update y 0 a)
  exact (existsUnique_congr fun p => and_congr_right fun _ =>
    p.evaluate_insert_zero_iff h0 y a).mp hone

end Places

end Polynomial

/-! ### What accepted values tell of the secret -/

namespace Commitments

/-- For all that the values accepted at some places tell, this may be the secret. -/
def PossibleSecret (cs : List S.Element) (xs : Finset UInt64) (a : S.Scalar) : Prop :=
  ∃ p : Polynomial S, p.coefficients.length = cs.length ∧
    (∀ x ∈ xs, accepts cs x (p.evaluate x) = true) ∧ p.secret = a

/-- The values at these places determine the secret. -/
def Determine (cs : List S.Element) (xs : Finset UInt64) : Prop := ∃! a, PossibleSecret cs xs a

/-- The values at these places tell nothing of the secret. -/
def Hide (cs : List S.Element) (xs : Finset UInt64) : Prop := ∀ a, PossibleSecret cs xs a

theorem PossibleSecret.ne_nil {cs : List S.Element} {xs : Finset UInt64} {a : S.Scalar}
    (h : PossibleSecret cs xs a) : cs ≠ [] := by
  obtain ⟨p, hlen, -⟩ := h
  rintro rfl
  exact p.coefficients_ne_nil (List.length_eq_zero_iff.mp hlen)

theorem Determine.ne_nil {cs : List S.Element} {xs : Finset UInt64} (h : Determine cs xs) :
    cs ≠ [] := h.exists.elim fun _ ha => ha.ne_nil

section Lawful

variable (hS : S.Lawful) {xs : Finset UInt64}
include hS

theorem possibleSecret_iff {p₀ : Polynomial S} {a : S.Scalar} :
    PossibleSecret p₀.commitments xs a ↔
      ∃ p : Polynomial S, p.coefficients.length = p₀.coefficients.length ∧
        (∀ x ∈ xs, p.evaluate x = p₀.evaluate x) ∧ p.secret = a := by
  simp only [PossibleSecret, accepts_iff hS, Polynomial.length_commitments]

theorem possibleSecret_secret (p₀ : Polynomial S) :
    PossibleSecret p₀.commitments xs p₀.secret :=
  (possibleSecret_iff hS).mpr ⟨p₀, rfl, fun _ _ => rfl, rfl⟩

theorem determine_of_zero_mem (p₀ : Polynomial S) (h0 : 0 ∈ xs) :
    Determine p₀.commitments xs := by
  refine ⟨p₀.secret, possibleSecret_secret hS p₀, fun a ha => ?_⟩
  obtain ⟨p, -, hp, rfl⟩ := (possibleSecret_iff hS).mp ha
  rw [← p.evaluate_zero, ← p₀.evaluate_zero, hp 0 h0]

theorem Determine.not_hide {cs : List S.Element} (h : Determine cs xs) : ¬ Hide cs xs := by
  intro hide
  have hone : (0 : S.Scalar) = 1 := h.unique (hide 0) (hide 1)
  have := Suite.isDomain_scalar hS.prime_order
  exact zero_ne_one hone

variable (hq : 2 ^ 64 ≤ S.order)
include hq

theorem determine_of_length_le (p₀ : Polynomial S) (hcard : p₀.coefficients.length ≤ xs.card) :
    Determine p₀.commitments xs := by
  refine ⟨p₀.secret, possibleSecret_secret hS p₀, fun a ha => ?_⟩
  obtain ⟨p, hlen, hp, rfl⟩ := (possibleSecret_iff hS).mp ha
  rw [Polynomial.eq_of_evaluate_eq hS.prime_order hq hlen hcard hp]

theorem hide_of_card_lt (p₀ : Polynomial S) (h0 : 0 ∉ xs)
    (hcard : xs.card < p₀.coefficients.length) : Hide p₀.commitments xs := by
  intro a
  rw [possibleSecret_iff hS]
  -- the places together with zero are still no more than the coefficients
  have hinsert : (insert 0 xs).card ≤ p₀.coefficients.length := by
    rwa [Finset.card_insert_of_notMem h0]
  obtain ⟨p, hlen, hp⟩ := Polynomial.exists_evaluate_eq hS.prime_order hq
    (Nat.ne_of_gt (Nat.zero_lt_of_lt hcard)) hinsert (Function.update p₀.evaluate 0 a)
  obtain ⟨hsecret, hvalues⟩ := (p.evaluate_insert_zero_iff h0 _ a).mp hp
  exact ⟨p, hlen, hvalues, hsecret⟩

/-- **When values determine the secret.** -/
theorem determine_iff {cs : List S.Element} :
    Determine cs xs ↔ cs ≠ [] ∧ (0 ∈ xs ∨ cs.length ≤ xs.card) := by
  constructor
  · intro h
    refine ⟨h.ne_nil, ?_⟩
    obtain ⟨p₀, rfl⟩ := Polynomial.exists_of_commitments hS h.ne_nil
    by_contra hnot
    rw [not_or, not_le, p₀.length_commitments] at hnot
    exact h.not_hide hS (hide_of_card_lt hS hq p₀ hnot.1 hnot.2)
  · rintro ⟨hne, h⟩
    obtain ⟨p₀, rfl⟩ := Polynomial.exists_of_commitments hS hne
    rw [p₀.length_commitments] at h
    rcases h with h0 | hcard
    · exact determine_of_zero_mem hS p₀ h0
    · exact determine_of_length_le hS hq p₀ hcard

/-- **When values tell nothing of the secret.** -/
theorem hide_iff {cs : List S.Element} :
    Hide cs xs ↔ cs ≠ [] ∧ 0 ∉ xs ∧ xs.card < cs.length := by
  constructor
  · intro h
    have hnot : ¬ Determine cs xs := fun hd => hd.not_hide hS h
    rw [determine_iff hS hq, not_and, not_or, not_le] at hnot
    exact ⟨(h 0).ne_nil, hnot (h 0).ne_nil⟩
  · rintro ⟨hne, h0, hcard⟩
    obtain ⟨p₀, rfl⟩ := Polynomial.exists_of_commitments hS hne
    exact hide_of_card_lt hS hq p₀ h0 (p₀.length_commitments ▸ hcard)

end Lawful

end Commitments

end Guardianship
