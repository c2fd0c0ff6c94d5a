import Guardianship.Dealing
import Guardianship.Proofs.Envelope
import Guardianship.Proofs.Polynomial.Commitments

/-!
# Sealing and opening shares

A share is opened exactly if its envelope holds the encoding of a scalar (`reveal_eq_ok_iff`), and
it is good exactly if that scalar is accepted by the commitments that the share carries
(`isGood_iff`).  A share can always be sealed (`exists_sealWith`), and in a lawful suite the one
whom it is addressed to finds the value of the owner's polynomial in it (`reveal_of_sealWith`) and
finds it good (`isGood_of_sealWith`).
-/

namespace Guardianship

variable {S : Suite}

namespace SealedShare

/-! ### Opening -/

theorem reveal_eq_ok_iff {s : SealedShare S} {secret : Block 32} {y : S.Scalar} :
    s.reveal secret = .ok y ↔
      ∃ e, Envelope.decode s.sealed = .ok e ∧
        Envelope.openWith S secret e (boundData s.owner s.recipient) = .ok (S.encodeScalar y) := by
  unfold reveal
  constructor
  · intro h
    split at h
    · cases h
    · rename_i e he
      split at h
      · cases h
      · rename_i text htext
        split at h
        · cases h
        · rename_i value hvalue
          cases h
          exact ⟨e, he, (Suite.decodeScalar_eq_ok_iff.mp hvalue) ▸ htext⟩
  · rintro ⟨e, he, htext⟩
    simp only [he, htext, Suite.decodeScalar_encodeScalar]

theorem isGood_iff {s : SealedShare S} {secret : Block 32} :
    s.isGood secret = true ↔
      ∃ y, s.reveal secret = .ok y ∧ Commitments.accepts s.commitments s.order y = true := by
  unfold isGood
  split
  · rename_i y hy
    constructor
    · exact fun h => ⟨y, hy, h⟩
    · rintro ⟨y', hy', h⟩
      rw [hy] at hy'
      cases hy'
      exact h
  · rename_i e he
    constructor
    · intro h
      cases h
    · rintro ⟨y, hy, -⟩
      rw [he] at hy
      cases hy

/-! ### Sealing -/

/-- Sealing a share succeeds, and what is sealed is the value of the polynomial. -/
theorem exists_sealWith (secret : Block 32) (owner : String) (p : Polynomial S)
    (key : TransportKey) :
    ∃ e, Envelope.sealFor S secret key.key (S.encodeScalar (p.evaluate key.order))
        (boundData owner key.owner) = .ok e ∧
      e.sealed.length = 32 + Cipher.Aead.tagSize ∧
      sealWith secret owner p key =
        .ok ⟨owner, key.owner, key.order, e.encode, p.commitments⟩ := by
  have hlen : (S.encodeScalar (p.evaluate key.order)).length / 64 < Cipher.Aead.blockLimit := by
    rw [Suite.length_encodeScalar]
    decide
  obtain ⟨e, he, hsize⟩ :=
    Envelope.sealFor_eq_ok (S := S) secret key.key (boundData owner key.owner) hlen
  refine ⟨e, he, by rw [hsize, Suite.length_encodeScalar], ?_⟩
  unfold sealWith
  dsimp only
  rw [he]
  rfl

/-- A share says for whom it is and whose commitments it carries. -/
theorem fields_of_sealWith {secret : Block 32} {owner : String} {p : Polynomial S}
    {key : TransportKey} {s : SealedShare S} (h : sealWith secret owner p key = .ok s) :
    s.owner = owner ∧ s.recipient = key.owner ∧ s.order = key.order ∧
      s.commitments = p.commitments := by
  obtain ⟨e, -, -, hs⟩ := exists_sealWith secret owner p key
  rw [hs] at h
  cases h
  exact ⟨rfl, rfl, rfl, rfl⟩

/-- A public key, a scalar and a tag are sent. -/
theorem length_sealed_of_sealWith {secret : Block 32} {owner : String} {p : Polynomial S}
    {key : TransportKey} {s : SealedShare S} (h : sealWith secret owner p key = .ok s) :
    s.sealed.length = 80 := by
  obtain ⟨e, -, hsize, hs⟩ := exists_sealWith secret owner p key
  rw [hs] at h
  cases h
  show (e.ephemeral.octets ++ e.sealed).length = 80
  rw [List.length_append, e.ephemeral.length_eq, hsize]
  rfl

/-- Whoever the share is addressed to finds the value of the owner's polynomial. -/
theorem reveal_of_sealWith (hA : S.Agrees) {secret sk : Block 32} {owner : String}
    {p : Polynomial S} {key : TransportKey} {s : SealedShare S} (hkey : key.key = S.publicKey sk)
    (h : sealWith secret owner p key = .ok s) : s.reveal sk = .ok (p.evaluate key.order) := by
  obtain ⟨e, he, hsize, hs⟩ := exists_sealWith secret owner p key
  rw [hs] at h
  cases h
  rw [hkey] at he
  exact reveal_eq_ok_iff.mpr
    ⟨e, Envelope.decode_encode e (by omega), Envelope.openWith_of_sealFor hA he⟩

/-- The recipient of a share that was dealt to it finds it good. -/
theorem isGood_of_sealWith (hS : S.Lawful) (hA : S.Agrees) {secret sk : Block 32}
    {owner : String} {p : Polynomial S} {key : TransportKey} {s : SealedShare S}
    (hkey : key.key = S.publicKey sk) (h : sealWith secret owner p key = .ok s) :
    s.isGood sk = true := by
  obtain ⟨-, -, horder, hcommitments⟩ := fields_of_sealWith h
  refine isGood_iff.mpr ⟨_, reveal_of_sealWith hA hkey h, ?_⟩
  rw [hcommitments, horder]
  exact (Commitments.accepts_iff hS p _ _).mpr rfl

end SealedShare

end Guardianship
