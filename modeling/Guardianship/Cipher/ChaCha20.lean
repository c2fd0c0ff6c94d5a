import Guardianship.Octets
import Guardianship.Words

/-!
# The ChaCha20 stream cipher

A key, a nonce and a block number give 64 octets of key stream.  A text is enciphered by exclusive
or with the stream, so doing it twice gives the text back (`apply_apply`).
-/

namespace Guardianship.Cipher.ChaCha20

def rotateLeft (w : UInt32) (k : UInt32) : UInt32 := (w <<< k) ||| (w >>> (32 - k))

/-- Mixes four places of the state. -/
def quarterRound (s : Words) (p : Words.Places) : Words :=
  let a1 := s.get p.a + s.get p.b
  let d1 := rotateLeft (s.get p.d ^^^ a1) 16
  let c1 := s.get p.c + d1
  let b1 := rotateLeft (s.get p.b ^^^ c1) 12
  let a2 := a1 + b1
  let d2 := rotateLeft (d1 ^^^ a2) 8
  let c2 := c1 + d2
  let b2 := rotateLeft (b1 ^^^ c2) 7
  s.put p a2 b2 c2 d2

/-- A round over the columns, then one over the diagonals. -/
def doubleRound (s : Words) : Words := (Words.columns ++ Words.diagonals).foldl quarterRound s

def doubleRounds : Nat → Words → Words
  | 0, s => s
  | k + 1, s => doubleRounds k (doubleRound s)

def word (xs : Octets) (i : Nat) : UInt32 := (Octets.toNatLE ((xs.drop (4 * i)).take 4)).toUInt32

/-- The state before the rounds: constants, key, block number, nonce. -/
def start (key : Block 32) (nonce : Block 12) (counter : Nat) : Words :=
  let k := word key.octets
  let n := word nonce.octets
  #v[0x61707865, 0x3320646e, 0x79622d32, 0x6b206574,
    k 0, k 1, k 2, k 3, k 4, k 5, k 6, k 7, counter.toUInt32, n 0, n 1, n 2]

/-- One block of the key stream. -/
def block (key : Block 32) (nonce : Block 12) (counter : Nat) : Octets :=
  let s := start key nonce counter
  let t := doubleRounds 10 s
  (List.finRange 16).flatMap fun i => Octets.ofNatLE 4 (s.get i + t.get i).toNat

@[simp] theorem length_block (key : Block 32) (nonce : Block 12) (counter : Nat) :
    (block key nonce counter).length = 64 := by
  unfold block
  rw [Octets.length_flatMap_of_length fun _ => Octets.length_ofNatLE 4 _, List.length_finRange]

/-- The key stream of `count` blocks from a block number on. -/
def stream (key : Block 32) (nonce : Block 12) (first count : Nat) : Octets :=
  (List.range count).flatMap fun i => block key nonce (first + i)

@[simp] theorem length_stream (key : Block 32) (nonce : Block 12) (first count : Nat) :
    (stream key nonce first count).length = 64 * count := by
  induction count with
  | zero => rfl
  | succ count ih =>
    simp only [stream] at ih
    simp only [stream, List.range_succ, List.flatMap_append, List.length_append, ih]
    simp
    omega

/-- Enciphers or deciphers a text with the key stream from a block number on. -/
def apply (key : Block 32) (nonce : Block 12) (first : Nat) (text : Octets) : Octets :=
  text.xor (stream key nonce first ((text.length + 63) / 64))

@[simp] theorem length_apply (key : Block 32) (nonce : Block 12) (first : Nat) (text : Octets) :
    (apply key nonce first text).length = text.length := by
  simp only [apply, Octets.xor, List.length_zipWith, length_stream]
  omega

theorem xor_xor (xs ys : Octets) (h : xs.length ≤ ys.length) : (xs.xor ys).xor ys = xs := by
  induction xs generalizing ys with
  | nil => cases ys <;> rfl
  | cons x xs ih =>
    cases ys with
    | nil => simp at h
    | cons y ys =>
      have hx : x ^^^ y ^^^ y = x := by rw [UInt8.xor_assoc, UInt8.xor_self, UInt8.xor_zero]
      have ht := ih ys (by simpa using h)
      simp only [Octets.xor] at ht
      simp [Octets.xor, hx, ht]

theorem apply_apply (key : Block 32) (nonce : Block 12) (first : Nat) (text : Octets) :
    apply key nonce first (apply key nonce first text) = text := by
  have hl := length_apply key nonce first text
  unfold apply at hl ⊢
  rw [hl]
  exact xor_xor _ _ (by rw [length_stream]; omega)

end Guardianship.Cipher.ChaCha20
