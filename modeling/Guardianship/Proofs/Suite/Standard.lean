import Guardianship.Proofs.Bls12.Subgroup
import Guardianship.Proofs.Suite.Laws
import Guardianship.Suite.Standard

/-!
# The standard suite

The elements of the standard suite are the points of the curve's subgroup of prime order
(`Bls12.Element.exists_ofCurve`), and their sums are those of the curve, so the suite is lawful
(`Suite.lawful_standard`).  Each of them is read back from its octets (`Suite.readable_standard`),
which have the form of compressed points (`Suite.compressed_standard`).

Main statement: `Suite.encodings_round_trip`.
-/

namespace Guardianship

open Bls12 Bls12.Point

open scoped Fin.CommRing Coordinate

namespace Bls12.Element

theorem eq_of_point : ∀ {p q : Element}, p.point = q.point → p = q
  | ⟨_, _⟩, ⟨_, _⟩, rfl => rfl

/-- Elements are read as their points are. -/
theorem decode_eq_ok_iff_point {p : Element} {xs : Octets} :
    decode xs = .ok p ↔ Point.decode xs = .ok p.point := by
  unfold decode
  split
  case h_1 q hq =>
    constructor
    · intro h
      obtain rfl := Except.ok.inj h
      exact hq
    · intro h
      exact congrArg Except.ok (eq_of_point (Except.ok.inj (hq.symm.trans h)))
  case h_2 hinvalid => simp [hinvalid]
  case h_3 hflags => simp [hflags]

/-- Elements are points of the subgroup. -/
theorem exists_ofCurve (p : Element) : ∃ P ∈ primeSubgroup, ofCurve P = p.point :=
  admitted_iff.mp p.admitted

theorem inSubgroup_point (p : Element) : p.point.inSubgroup = true := by
  obtain ⟨P, hmem, hP⟩ := p.exists_ofCurve
  rw [← hP, inSubgroup_ofCurve]
  exact hmem

theorem decode_encode (p : Element) : decode p.encode = .ok p :=
  decode_eq_ok_iff_point.mpr (Point.decode_encode (.inr p.inSubgroup_point))

end Bls12.Element

namespace Suite

/-- Repeated addition of an element is the multiple of its point. -/
theorem point_times {p : standard.Element} {P : curve.Point} (hP : ofCurve P = p.point) :
    ∀ n : ℕ, (standard.times p n).point = ofCurve (n • P)
  | 0 => (congrArg ofCurve (zero_nsmul P)).symm
  | n + 1 => by
    rw [succ_nsmul, ofCurve_add, hP, ← point_times hP n]
    rfl

/-- **The standard suite is lawful.** -/
theorem lawful_standard : standard.Lawful where
  prime_order := prime_order
  add_assoc p q r := by
    obtain ⟨P, -, hP⟩ := p.exists_ofCurve
    obtain ⟨Q, -, hQ⟩ := q.exists_ofCurve
    obtain ⟨R, -, hR⟩ := r.exists_ofCurve
    refine Element.eq_of_point ?_
    show (p.point.add q.point).add r.point = p.point.add (q.point.add r.point)
    rw [← hP, ← hQ, ← hR, ← ofCurve_add, ← ofCurve_add, ← ofCurve_add, ← ofCurve_add, add_assoc]
  add_comm p q := by
    obtain ⟨P, -, hP⟩ := p.exists_ofCurve
    obtain ⟨Q, -, hQ⟩ := q.exists_ofCurve
    refine Element.eq_of_point ?_
    show p.point.add q.point = q.point.add p.point
    rw [← hP, ← hQ, ← ofCurve_add, ← ofCurve_add, add_comm]
  identity_add p := Element.eq_of_point (infinity_add p.point)
  times_order := by
    obtain ⟨G, hmem, hG⟩ := Element.generator.exists_ofCurve
    refine Element.eq_of_point ((point_times hG Bls12.order).trans ?_)
    rw [mem_primeSubgroup.mp hmem]
    rfl
  generator_ne h := by cases congrArg Element.point h
  generates p := by
    obtain ⟨G, -, hG⟩ := Element.generator.exists_ofCurve
    obtain ⟨P, hmem, hP⟩ := p.exists_ofCurve
    obtain ⟨n, rfl⟩ := exists_nsmul_generator hG hmem
    exact ⟨n, Element.eq_of_point ((point_times hG n).trans hP)⟩
  multiply_eq k p := by
    obtain ⟨P, -, hP⟩ := p.exists_ofCurve
    refine Element.eq_of_point ?_
    show p.point.multiply k.val = _
    rw [point_times hP, ofCurve_nsmul, hP]

/-- **Every element is read back from its octets.** -/
theorem readable_standard : standard.Readable := Element.decode_encode

theorem compressed_standard : standard.Compressed where
  length_encode p := p.point.length_encode
  encode_injective := readable_standard.encode_injective
  head_encode p := p.point.head_encode

/-- **Scalars and elements are read back from their octets**: 32 for a scalar, which is read from
nothing else, and 48 for an element of the curve's subgroup of prime order. -/
theorem encodings_round_trip :
    (∀ a : standard.Scalar, (standard.encodeScalar a).length = 32 ∧
      standard.decodeScalar (standard.encodeScalar a) = .ok a) ∧
    (∀ xs : Octets, (∃ a, standard.decodeScalar xs = .ok a) ↔
      xs.length = 32 ∧ Octets.toNatLE xs < Bls12.order) ∧
    (∀ (xs : Octets) (a : standard.Scalar),
      standard.decodeScalar xs = .ok a ↔ xs = standard.encodeScalar a) ∧
    (∀ q : Point, (∃ p : standard.Element, p.point = q) ↔ ∃ P ∈ primeSubgroup, ofCurve P = q) ∧
    Nat.card primeSubgroup = Bls12.order ∧
    (∀ p : standard.Element, (standard.encode p).length = 48 ∧
      standard.decode (standard.encode p) = .ok p) ∧
    ∀ p q : standard.Element, standard.encode p = standard.encode q ↔ p = q := by
  refine ⟨fun a => ⟨length_encodeScalar a, decodeScalar_encodeScalar a⟩,
    fun xs => exists_decodeScalar_iff, fun xs a => decodeScalar_eq_ok_iff, fun q => ?_,
    card_primeSubgroup,
    fun p => ⟨compressed_standard.length_encode p, readable_standard p⟩,
    fun p q => compressed_standard.encode_injective.eq_iff⟩
  rw [← admitted_iff]
  constructor
  · rintro ⟨p, rfl⟩
    exact p.admitted
  · intro h
    exact ⟨⟨q, h⟩, rfl⟩

end Suite

end Guardianship
