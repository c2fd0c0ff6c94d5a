import Guardianship.Suite
import Mathlib.Algebra.BigOperators.Group.List.Basic
import Mathlib.Data.Nat.Prime.Basic
import Mathlib.Data.ZMod.Defs
import Mathlib.GroupTheory.OrderOfElement

/-!
# Laws of suites

A suite is lawful if its elements form a cyclic group of prime order that the generator generates,
and scalars act on it by repeated addition (`Suite.Lawful`).  Then committing to scalars is a
bijection that turns sums into sums and products into multiples (`commit_add`, `multiply_commit`,
`commit_injective`, `exists_commit`): a commitment hides a scalar but leaves no choice of it.

A scalar is read from its own octets and from nothing else (`decodeScalar_eq_ok_iff`).  The two
holders of secrets for the key agreement arrive at the same value if `Suite.Agrees` holds, elements
can be sent as octets if `Suite.Readable` holds, and their octets have the form of points if
`Suite.Compressed` does.
-/

namespace Guardianship.Suite

open scoped Fin.CommRing

/-- An element added to itself, so many times. -/
def times (S : Suite) (p : S.Element) : ℕ → S.Element
  | 0 => S.identity
  | n + 1 => S.add (S.times p n) p

/-- The elements are a cyclic group of prime order, and scalars act by repeated addition. -/
structure Lawful (S : Suite) : Prop where
  prime_order : S.order.Prime
  add_assoc : ∀ a b c, S.add (S.add a b) c = S.add a (S.add b c)
  add_comm : ∀ a b, S.add a b = S.add b a
  identity_add : ∀ a, S.add S.identity a = a
  times_order : S.times S.generator S.order = S.identity
  generator_ne : S.generator ≠ S.identity
  generates : ∀ p, ∃ n, S.times S.generator n = p
  multiply_eq : ∀ (k : S.Scalar) p, S.multiply k p = S.times p k.val

/-- Both sides of the key agreement arrive at the same value. -/
def Agrees (S : Suite) : Prop := ∀ a b, S.agree a (S.publicKey b) = S.agree b (S.publicKey a)

/-- Every element is read back from its encoding. -/
def Readable (S : Suite) : Prop := ∀ a, S.decode (S.encode a) = .ok a

theorem Readable.encode_injective {S : Suite} (h : S.Readable) : Function.Injective S.encode := by
  intro a b hab
  have hread := h a
  rw [hab, h b] at hread
  exact (Except.ok.inj hread).symm

/-- Elements are written like compressed points: each differently in 48 octets, of which the first
has its highest bit set, and the next bit only if no other is. -/
structure Compressed (S : Suite) : Prop where
  length_encode : ∀ a, (S.encode a).length = 48
  encode_injective : Function.Injective S.encode
  head_encode : ∀ a, ∃ x xs, S.encode a = x :: xs ∧ 0x80 ≤ x ∧ x ≤ 0xc0

/-! ### Octets of scalars -/

section Scalars

variable {S : Suite} {xs : Octets}

/-- Only the encoding of a scalar is decoded. -/
theorem decodeScalar_eq_ok_iff {a : S.Scalar} :
    S.decodeScalar xs = .ok a ↔ xs = S.encodeScalar a := by
  constructor
  · intro h
    unfold decodeScalar at h
    split_ifs at h with hlen hlt
    cases h
    rw [encodeScalar, ← hlen, Octets.ofNatLE_toNatLE]
  · rintro rfl
    exact decodeScalar_encodeScalar a

theorem exists_decodeScalar_iff :
    (∃ a, S.decodeScalar xs = .ok a) ↔ xs.length = 32 ∧ Octets.toNatLE xs < S.order := by
  constructor
  · rintro ⟨a, ha⟩
    unfold decodeScalar at ha
    split_ifs at ha with hlen hlt
    exact ⟨hlen, hlt⟩
  · rintro ⟨hlen, hlt⟩
    exact ⟨⟨Octets.toNatLE xs, hlt⟩, (if_pos hlen).trans (dif_pos hlt)⟩

end Scalars

/-! ### Lawful suites -/

namespace Lawful

variable {S : Suite} (h : S.Lawful)
include h

theorem add_identity (a : S.Element) : S.add a S.identity = a := by
  rw [h.add_comm, h.identity_add]

theorem times_add (p : S.Element) (m : ℕ) :
    ∀ n, S.times p (m + n) = S.add (S.times p m) (S.times p n)
  | 0 => (h.add_identity _).symm
  | n + 1 => by
    rw [← Nat.add_assoc, times, times, times_add p m n, h.add_assoc]

theorem times_identity : ∀ n, S.times S.identity n = S.identity
  | 0 => rfl
  | n + 1 => by rw [times, times_identity n, h.identity_add]

theorem times_mul (p : S.Element) (m : ℕ) : ∀ n, S.times p (m * n) = S.times (S.times p m) n
  | 0 => rfl
  | n + 1 => by rw [Nat.mul_succ, h.times_add, times_mul p m n, times]

/-- Multiples of the generator count modulo the order. -/
theorem times_mod (n : ℕ) : S.times S.generator (n % S.order) = S.times S.generator n := by
  conv_rhs => rw [← Nat.mod_add_div n S.order]
  rw [h.times_add, h.times_mul, h.times_order, h.times_identity, h.add_identity]

/-! ### Commitments -/

theorem commit_eq (a : S.Scalar) : S.commit a = S.times S.generator a.val := h.multiply_eq _ _

theorem commit_zero : S.commit 0 = S.identity := by
  rw [h.commit_eq]
  rfl

theorem commit_add (a b : S.Scalar) : S.commit (a + b) = S.add (S.commit a) (S.commit b) := by
  rw [h.commit_eq, h.commit_eq, h.commit_eq, Fin.val_add, h.times_mod, h.times_add]

theorem multiply_commit (k a : S.Scalar) : S.multiply k (S.commit a) = S.commit (k * a) := by
  rw [h.multiply_eq, h.commit_eq, h.commit_eq, ← h.times_mul, Fin.val_mul, h.times_mod,
    Nat.mul_comm]

theorem exists_commit (p : S.Element) : ∃ a, S.commit a = p := by
  obtain ⟨n, rfl⟩ := h.generates p
  refine ⟨⟨n % S.order, Nat.mod_lt n S.order_pos⟩, ?_⟩
  rw [h.commit_eq, h.times_mod]

/-- Only the scalar zero commits to the identity: of any other some multiple is one. -/
theorem eq_zero_of_commit {a : S.Scalar} (ha : S.commit a = S.identity) : a = 0 := by
  by_contra hne
  have hval : a.val ≠ 0 := fun h0 => hne (Fin.ext h0)
  have hcop : Nat.Coprime a.val S.order :=
    (Nat.coprime_of_lt_prime hval a.isLt h.prime_order).symm
  obtain ⟨u, hu⟩ := Nat.exists_mul_mod_eq_one_of_coprime hcop h.prime_order.one_lt
  refine h.generator_ne ?_
  calc S.generator
      = S.times S.generator 1 := (h.identity_add _).symm
    _ = S.times S.generator (a.val * u) := by rw [← hu.2, h.times_mod]
    _ = S.identity := by rw [h.times_mul, ← h.commit_eq, ha, h.times_identity]

theorem commit_injective : Function.Injective S.commit := by
  intro a b hab
  have hneg : ∀ c : S.Scalar, S.add (S.commit (-b)) (S.commit c) = S.commit (c - b) := by
    intro c
    rw [← h.commit_add, sub_eq_neg_add]
  have hzero : S.commit (a - b) = S.identity := by
    rw [← hneg, hab, hneg, sub_self, h.commit_zero]
  exact sub_eq_zero.mp (h.eq_zero_of_commit hzero)

theorem add_right_cancel_iff (a b c : S.Element) : S.add a c = S.add b c ↔ a = b := by
  obtain ⟨x, rfl⟩ := h.exists_commit a
  obtain ⟨y, rfl⟩ := h.exists_commit b
  obtain ⟨z, rfl⟩ := h.exists_commit c
  rw [← h.commit_add, ← h.commit_add, h.commit_injective.eq_iff, h.commit_injective.eq_iff]
  exact add_left_inj z

/-! ### Sums -/

theorem foldl_add (p : S.Element) :
    ∀ ps : List S.Element, ps.foldl S.add p = S.add p (S.sum ps)
  | [] => (h.add_identity p).symm
  | q :: ps => by
    have hq : S.sum (q :: ps) = S.add q (S.sum ps) := by
      rw [sum, List.foldl_cons, h.identity_add, foldl_add q ps]
    rw [List.foldl_cons, foldl_add _ ps, h.add_assoc, hq]

theorem sum_cons (p : S.Element) (ps : List S.Element) :
    S.sum (p :: ps) = S.add p (S.sum ps) := by
  rw [sum, List.foldl_cons, h.identity_add, h.foldl_add]

/-- The sum of commitments is the commitment to the sum. -/
theorem sum_commit : ∀ as : List S.Scalar, S.sum (as.map S.commit) = S.commit as.sum
  | [] => h.commit_zero.symm
  | a :: as => by
    rw [List.map_cons, h.sum_cons, sum_commit as, ← h.commit_add, List.sum_cons]

/-- The order of elements does not matter for their sum. -/
theorem sum_perm {ps qs : List S.Element} (hp : ps.Perm qs) : S.sum ps = S.sum qs := by
  unfold sum
  refine hp.foldl_eq' (fun p _ q _ r => ?_) _
  rw [h.add_assoc, h.add_comm p q, ← h.add_assoc]

theorem sum_middle (ps qs : List S.Element) (p : S.Element) :
    S.sum (ps ++ p :: qs) = S.add p (S.sum (ps ++ qs)) := by
  rw [h.sum_perm List.perm_middle, h.sum_cons]

end Lawful

end Guardianship.Suite
