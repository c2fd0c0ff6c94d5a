import Guardianship.Cipher.Aead
import Guardianship.Context
import Guardianship.Octets.Fields
import Guardianship.Randomness

/-!
# Envelopes

A text is sealed to the holder of a transport key with a secret that is used once: the agreed value
of the two gives the key and the nonce of the cipher.  Who opens the envelope recomputes both from
their own secret and the public key that the envelope carries.

Main statements: an envelope is read from what was written, and from nothing else of its length
(`decode_encode`, `encode_of_decode`).
-/

namespace Guardianship

/-- The public key of the secret that was used once, and the sealed text with its tag. -/
structure Envelope where
  ephemeral : Block 32
  sealed : Octets
deriving DecidableEq

namespace Envelope

inductive Error
  /-- There is no room for a key and a tag. -/
  | tooShort
  /-- The text is too long for the cipher. -/
  | tooLong
  /-- The tag is not that of the sealed text. -/
  | notAuthentic
deriving DecidableEq, Repr

def Error.message : Error → String
  | tooShort => "ECIES error: ciphertext too short"
  | tooLong => "ECIES error: encryption failed"
  | notAuthentic => "AEAD decryption failed"

/-! ### Octets -/

def encode (e : Envelope) : Octets := e.ephemeral.octets ++ e.sealed

def decode (xs : Octets) : Except Error Envelope :=
  if h : 32 + Cipher.Aead.tagSize ≤ xs.length then
    .ok ⟨⟨xs.take 32, by rw [List.length_take]; omega⟩, xs.drop 32⟩
  else .error .tooShort

theorem decode_encode (e : Envelope) (h : Cipher.Aead.tagSize ≤ e.sealed.length) :
    decode e.encode = .ok e := by
  have hk := e.ephemeral.length_eq
  have ht : e.encode.take 32 = e.ephemeral.octets := List.take_left' hk
  have hd : e.encode.drop 32 = e.sealed := List.drop_left' hk
  have hl : 32 + Cipher.Aead.tagSize ≤ e.encode.length := by
    rw [encode, List.length_append]; omega
  unfold decode
  rw [dif_pos hl]
  simp only [ht, hd]

theorem encode_of_decode {xs : Octets} {e : Envelope} (h : decode xs = .ok e) :
    e.encode = xs := by
  unfold decode at h
  split at h
  · simp only [Except.ok.injEq] at h
    subst h
    exact List.take_append_drop 32 xs
  · simp at h

/-! ### Sealing and opening -/

variable (S : Suite)

/-- The key of the cipher, bound to the agreed value and both public keys. -/
def cipherKey (agreed ephemeral recipient : Block 32) : Block 32 :=
  Context.envelopeKey.deriveKey (agreed.octets ++ ephemeral.octets ++ recipient.octets)

/-- The nonce of the cipher. -/
def nonce (agreed ephemeral : Block 32) : Block 12 :=
  let full := Context.envelopeNonce.deriveKey (agreed.octets ++ ephemeral.octets)
  ⟨full.octets.take 12, by rw [List.length_take, full.length_eq]; rfl⟩

/-- The associated data, bound to the public key that the envelope carries. -/
def boundData (ephemeral : Block 32) (associated : Octets) : Octets :=
  Fields.encode [ephemeral.octets, associated]

/-- Seals a text with a secret that is used once. -/
def sealFor (secret recipient : Block 32) (text associated : Octets) : Except Error Envelope :=
  let ephemeral := S.publicKey secret
  let agreed := S.agree secret recipient
  match Cipher.Aead.seal? (cipherKey agreed ephemeral recipient) (nonce agreed ephemeral)
      (boundData ephemeral associated) text with
  | some sealed => .ok ⟨ephemeral, sealed⟩
  | none => .error .tooLong

/-- Opens an envelope with the secret of its recipient. -/
def openWith (secret : Block 32) (e : Envelope) (associated : Octets) : Except Error Octets :=
  let agreed := S.agree secret e.ephemeral
  match Cipher.Aead.open? (cipherKey agreed e.ephemeral (S.publicKey secret))
      (nonce agreed e.ephemeral) (boundData e.ephemeral associated) e.sealed with
  | some text => .ok text
  | none => .error .notAuthentic

/-- Seals a text with a drawn secret. -/
def drawFor {ρ : Type} [RandomSource ρ] (recipient : Block 32) (text associated : Octets) :
    StateM ρ (Except Error Envelope) := do
  let secret ← drawBlock
  return sealFor S secret recipient text associated

end Envelope

end Guardianship
