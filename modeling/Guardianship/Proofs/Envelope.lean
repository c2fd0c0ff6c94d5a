import Guardianship.Envelope
import Guardianship.Proofs.Randomness
import Guardianship.Proofs.Suite.Exponents

/-!
# Envelopes are opened by their recipients

A text that is not too long is sealed (`sealFor_eq_ok`), and whoever holds the secret of the
recipient's key opens the envelope, provided that both sides agree (`openWith_of_sealFor`).  An
envelope may be sent as octets: they have room for a key and a tag, and all octets that have are
those of one envelope (`decode_eq_ok_iff`).

Main statement: `envelopes_are_opened`.
-/

namespace Guardianship.Envelope

variable {S : Suite}

theorem exists_seal? (key : Block 32) (nonce : Block 12) (associated : Octets) {text : Octets}
    (h : text.length / 64 < Cipher.Aead.blockLimit) :
    ∃ sealed, Cipher.Aead.seal? key nonce associated text = some sealed := by
  unfold Cipher.Aead.seal?
  rw [if_pos h]
  exact ⟨_, rfl⟩

/-- Sealing succeeds and leaves room for the tag. -/
theorem sealFor_eq_ok (secret recipient : Block 32) {text : Octets} (associated : Octets)
    (h : text.length / 64 < Cipher.Aead.blockLimit) :
    ∃ e, sealFor S secret recipient text associated = .ok e ∧
      e.sealed.length = text.length + Cipher.Aead.tagSize := by
  obtain ⟨sealed, hs⟩ := exists_seal?
    (cipherKey (S.agree secret recipient) (S.publicKey secret) recipient)
    (nonce (S.agree secret recipient) (S.publicKey secret))
    (boundData (S.publicKey secret) associated) h
  refine ⟨⟨S.publicKey secret, sealed⟩, ?_, Cipher.Aead.length_seal? hs⟩
  unfold sealFor
  dsimp only
  rw [hs]

/-- What was sealed to a public key is opened with its secret. -/
theorem openWith_of_sealFor (hA : S.Agrees) {secret sk : Block 32} {text associated : Octets}
    {e : Envelope} (h : sealFor S secret (S.publicKey sk) text associated = .ok e) :
    openWith S sk e associated = .ok text := by
  unfold sealFor at h
  dsimp only at h
  split at h
  · rename_i sealed hs
    cases h
    -- both sides derive the same key and nonce from the same agreed value
    have hopen := Cipher.Aead.open?_seal? hs
    unfold openWith
    dsimp only
    rw [hA sk secret, hopen]
  · cases h

theorem sealFor_of_long (secret recipient : Block 32) {text : Octets} (associated : Octets)
    (h : ¬ text.length / 64 < Cipher.Aead.blockLimit) :
    sealFor S secret recipient text associated = .error .tooLong := by
  unfold sealFor Cipher.Aead.seal?
  dsimp only
  rw [if_neg h]

/-! ### Octets -/

theorem length_encode (e : Envelope) : e.encode.length = e.sealed.length + 32 := by
  rw [encode, List.length_append, e.ephemeral.length_eq, Nat.add_comm]

theorem decode_of_short {xs : Octets} (h : xs.length < 48) : decode xs = .error .tooShort :=
  dif_neg (Nat.not_le.mpr h)

theorem exists_decode_iff {xs : Octets} : (∃ e, decode xs = .ok e) ↔ 48 ≤ xs.length := by
  constructor
  · rintro ⟨e, he⟩
    by_contra hshort
    rw [decode_of_short (Nat.not_le.mp hshort)] at he
    cases he
  · exact fun h => ⟨_, dif_pos h⟩

/-- Reading undoes writing and writing undoes reading. -/
theorem decode_eq_ok_iff {xs : Octets} {e : Envelope} :
    decode xs = .ok e ↔ e.encode = xs ∧ Cipher.Aead.tagSize ≤ e.sealed.length := by
  constructor
  · intro h
    have hencode := encode_of_decode h
    have hroom : Cipher.Aead.tagSize + 32 ≤ xs.length := exists_decode_iff.mp ⟨e, h⟩
    rw [← hencode, length_encode] at hroom
    exact ⟨hencode, Nat.le_of_add_le_add_right hroom⟩
  · rintro ⟨rfl, htag⟩
    exact decode_encode e htag

/-- **Envelopes are opened by their recipients.**  Whatever is drawn, a text that is not too long
for the cipher is sealed in 48 octets more; the envelope is read back from them, and opened with the
recipient's secret it gives the text.  Octets are read as an envelope exactly if there are at least
48 of them, and are then those that are written of it. -/
theorem envelopes_are_opened (hA : S.Agrees) {ρ : Type} [RandomSource ρ] (r : ρ) (sk : Block 32)
    (text associated : Octets) :
    (text.length < 64 * Cipher.Aead.blockLimit →
      ∃ e, (drawFor S (S.publicKey sk) text associated r).1 = .ok e ∧
        e.encode.length = text.length + 48 ∧ decode e.encode = .ok e ∧
        openWith S sk e associated = .ok text) ∧
    (64 * Cipher.Aead.blockLimit ≤ text.length →
      (drawFor S (S.publicKey sk) text associated r).1 = .error .tooLong) ∧
    ∀ xs, ((∃ e, decode xs = .ok e) ↔ 48 ≤ xs.length) ∧
      (xs.length < 48 → decode xs = .error .tooShort) ∧
      ∀ e, decode xs = .ok e ↔ e.encode = xs ∧ Cipher.Aead.tagSize ≤ e.sealed.length := by
  have hdraw : (drawFor S (S.publicKey sk) text associated r).1 =
      sealFor S (drawBlock r).1 (S.publicKey sk) text associated := by
    rw [drawFor, draw_bind, draw_pure]
  have hlimit : text.length / 64 < Cipher.Aead.blockLimit ↔
      text.length < 64 * Cipher.Aead.blockLimit := by
    rw [Nat.div_lt_iff_lt_mul (by decide), Nat.mul_comm]
  rw [hdraw]
  refine ⟨fun h => ?_, fun h => ?_, fun xs => ⟨exists_decode_iff, decode_of_short,
    fun e => decode_eq_ok_iff⟩⟩
  · obtain ⟨e, he, hsize⟩ := sealFor_eq_ok (S := S) (drawBlock r).1 (S.publicKey sk) associated
      (hlimit.mpr h)
    refine ⟨e, he, ?_, decode_encode e (by omega), openWith_of_sealFor hA he⟩
    rw [length_encode, hsize]
    rfl
  · exact sealFor_of_long _ _ associated fun hlt => Nat.not_lt.mpr h (hlimit.mp hlt)

/-- Five octets take 53, and are found again. -/
theorem short_text_is_opened :
    Suite.exponents.Agrees ∧
      ∃ e, (drawFor Suite.exponents (Suite.exponents.publicKey (Suite.exponent 7))
          (Octets.ofText "share") (Octets.ofText "a->b") (SplitMix.mk 0)).1 = .ok e ∧
        e.encode.length = 53 ∧ decode e.encode = .ok e ∧
        openWith Suite.exponents (Suite.exponent 7) e (Octets.ofText "a->b") =
          .ok (Octets.ofText "share") := by
  have hA := Suite.agrees_exponents
  have hlength : (Octets.ofText "share").length = 5 := by decide
  obtain ⟨hopened, -⟩ := envelopes_are_opened hA (SplitMix.mk 0) (Suite.exponent 7)
    (Octets.ofText "share") (Octets.ofText "a->b")
  obtain ⟨e, he, hsize, hdecode, hopen⟩ := hopened (by rw [hlength]; decide)
  exact ⟨hA, e, he, by rw [hsize, hlength], hdecode, hopen⟩

end Guardianship.Envelope
