import Guardianship.Suite

/-!
# Random draws

Keys and shares are made from random octets, which come in blocks of 32 from a source with a state.
Everything that draws is a computation over that state, for any source.
-/

namespace Guardianship

/-- A source of random octets with a state of type `ρ`. -/
class RandomSource (ρ : Type) where
  next : ρ → Block 32 × ρ

variable {ρ : Type} [RandomSource ρ]

/-- Draws a block of random octets. -/
def drawBlock : StateM ρ (Block 32) := RandomSource.next

namespace Suite

variable (S : Suite)

/-- How often a scalar is drawn again. -/
def drawLimit : Nat := 256

/-- Draws blocks until one stands for a scalar; the last is taken in any case. -/
def drawScalarWithin : Nat → StateM ρ S.Scalar
  | 0 => do
    let b ← drawBlock
    return S.scalar b.toNatLE
  | limit + 1 => do
    let b ← drawBlock
    match S.sample b with
    | some a => return a
    | none => drawScalarWithin limit

/-- Draws a scalar. -/
def drawScalar : StateM ρ S.Scalar := S.drawScalarWithin drawLimit

/-- Draws a number of scalars, one after the other. -/
def drawScalars : Nat → StateM ρ (List S.Scalar)
  | 0 => return []
  | count + 1 => do
    let a ← S.drawScalar
    let as ← drawScalars count
    return a :: as

end Suite

/-! ### A source from a seed -/

/-- A stream of 64-bit words that is determined by a seed. -/
structure SplitMix where
  state : UInt64
deriving DecidableEq, Repr

namespace SplitMix

/-- The next word of the stream. -/
def word (s : SplitMix) : UInt64 × SplitMix :=
  let state := s.state + 0x9E3779B97F4A7C15
  let z := (state ^^^ (state >>> 30)) * 0xBF58476D1CE4E5B9
  let z := (z ^^^ (z >>> 27)) * 0x94D049BB133111EB
  (z ^^^ (z >>> 31), ⟨state⟩)

/-- The next four words, each with its least significant octet first. -/
def block (s : SplitMix) : Block 32 × SplitMix :=
  let (a, s) := s.word
  let (b, s) := s.word
  let (c, s) := s.word
  let (d, s) := s.word
  (.ofNatLE (a.toNat + b.toNat <<< 64 + c.toNat <<< 128 + d.toNat <<< 192), s)

instance : RandomSource SplitMix := ⟨block⟩

end SplitMix

end Guardianship
