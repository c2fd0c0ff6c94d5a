import Guardianship.Cipher.ChaCha20
import Guardianship.Randomness

/-!
# Random octets from a key stream

One key of 32 random octets is enough for as many draws as anyone makes: each draw takes half a
block of the cipher's key stream, and the other half is thrown away.
-/

namespace Guardianship

/-- A key stream that has been read up to a block. -/
structure KeyStream where
  key : Block 32
  position : Nat

namespace KeyStream

/-- The first half of the block at a position. -/
def half (key : Block 32) (position : Nat) : Block 32 :=
  ⟨(Cipher.ChaCha20.block key (.ofNatLE (position >>> 32)) position).take 32, by simp⟩

instance : RandomSource KeyStream := ⟨fun s => (half s.key s.position, ⟨s.key, s.position + 1⟩)⟩

end KeyStream

end Guardianship
