import Guardianship.Cipher.ChaCha20
import Guardianship.Cipher.Poly1305

/-!
# Authenticated encryption

ChaCha20 enciphers the text and Poly1305 authenticates it together with associated data that is
not enciphered.  The sealed form is the enciphered text followed by the tag.

Main statements: what was sealed is opened under the same key, nonce and associated data
(`open?_seal?`), and sealing adds exactly the length of the tag (`length_seal?`).
-/

namespace Guardianship.Cipher.Aead

def tagSize : Nat := 16

/-- Texts of this many blocks of 64 octets would run past the last block number. -/
def blockLimit : Nat := UInt32.size - 1

/-- Zeros that fill a string up to a multiple of 16 octets. -/
def padding (length : Nat) : Octets := List.replicate ((16 - length % 16) % 16) 0

/-- What the tag is computed of: both strings, padded, and their lengths. -/
def authenticated (associated enciphered : Octets) : Octets :=
  associated ++ padding associated.length ++ enciphered ++ padding enciphered.length
    ++ Octets.ofNatLE 8 associated.length ++ Octets.ofNatLE 8 enciphered.length

/-- The key of the tag: the first half of block zero of the key stream. -/
def tagKey (key : Block 32) (nonce : Block 12) : Block 32 :=
  ⟨(ChaCha20.block key nonce 0).take 32, by simp⟩

def tagOf (key : Block 32) (nonce : Block 12) (associated enciphered : Octets) : Block 16 :=
  Poly1305.tag (tagKey key nonce) (authenticated associated enciphered)

/-- Seals a text, unless it is too long for the cipher. -/
def seal? (key : Block 32) (nonce : Block 12) (associated text : Octets) : Option Octets :=
  if text.length / 64 < blockLimit then
    let enciphered := ChaCha20.apply key nonce 1 text
    some (enciphered ++ (tagOf key nonce associated enciphered).octets)
  else none

/-- Opens a sealed text, if its tag is the right one. -/
def open? (key : Block 32) (nonce : Block 12) (associated sealed : Octets) : Option Octets :=
  let size := sealed.length - tagSize
  let enciphered := sealed.take size
  if tagSize ≤ sealed.length ∧ size / 64 < blockLimit
      ∧ (tagOf key nonce associated enciphered).octets = sealed.drop size then
    some (ChaCha20.apply key nonce 1 enciphered)
  else none

theorem length_seal? {key : Block 32} {nonce : Block 12} {associated text sealed : Octets}
    (h : seal? key nonce associated text = some sealed) :
    sealed.length = text.length + tagSize := by
  unfold seal? at h
  split at h
  · simp only [Option.some.injEq] at h
    subst h
    simp [Block.length_eq, tagSize]
  · simp at h

theorem open?_seal? {key : Block 32} {nonce : Block 12} {associated text sealed : Octets}
    (h : seal? key nonce associated text = some sealed) :
    open? key nonce associated sealed = some text := by
  have hl := length_seal? h
  unfold seal? at h
  split at h
  case isTrue hb =>
    simp only [Option.some.injEq] at h
    have hs : sealed.length - tagSize = (ChaCha20.apply key nonce 1 text).length := by
      rw [hl, ChaCha20.length_apply]; omega
    unfold open?
    simp only [hs]
    subst h
    rw [List.take_left, List.drop_left, if_pos, ChaCha20.apply_apply]
    exact ⟨by rw [hl]; omega, by rw [ChaCha20.length_apply]; exact hb, rfl⟩
  case isFalse => simp at h

end Guardianship.Cipher.Aead
