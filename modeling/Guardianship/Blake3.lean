import Guardianship.Octets
import Guardianship.Words

/-!
# BLAKE3

The hash function of a ceremony, with the key derivation mode that separates its uses by a
context text.  The input is cut into chunks of 1024 octets; each chunk is compressed block by
block, and the chunks are joined by a binary tree whose left part is always the largest power of
two of chunks that leaves something for the right.
-/

namespace Guardianship.Blake3

/-- The eight words that one compression hands on to the next. -/
abbrev Chain := Vector UInt32 8

def initial : Chain :=
  #v[0x6A09E667, 0xBB67AE85, 0x3C6EF372, 0xA54FF53A, 0x510E527F, 0x9B05688C, 0x1F83D9AB,
    0x5BE0CD19]

/-- Where the words of a block come from in the next round. -/
def schedule : Vector Nat 16 := #v[2, 6, 3, 10, 7, 0, 4, 13, 1, 11, 12, 5, 9, 14, 15, 8]

namespace Flag

def chunkStart : UInt32 := 1
def chunkEnd : UInt32 := 2
def parent : UInt32 := 4
def root : UInt32 := 8
def contextText : UInt32 := 32
def contextMaterial : UInt32 := 64

end Flag

/-! ### Compression -/

def rotateRight (w : UInt32) (k : UInt32) : UInt32 := (w >>> k) ||| (w <<< (32 - k))

/-- Mixes two words of the block into four places of the state. -/
def mix (s : Words) (p : Words.Places) (x y : UInt32) : Words :=
  let a1 := s.get p.a + s.get p.b + x
  let d1 := rotateRight (s.get p.d ^^^ a1) 16
  let c1 := s.get p.c + d1
  let b1 := rotateRight (s.get p.b ^^^ c1) 12
  let a2 := a1 + b1 + y
  let d2 := rotateRight (d1 ^^^ a2) 8
  let c2 := c1 + d2
  let b2 := rotateRight (b1 ^^^ c2) 7
  s.put p a2 b2 c2 d2

/-- The words of a block two by two. -/
def pairs : List UInt32 → List (UInt32 × UInt32)
  | x :: y :: rest => (x, y) :: pairs rest
  | _ => []

/-- Mixes the columns and then the diagonals, each with two words of the block. -/
def round (s m : Words) : Words :=
  ((Words.columns ++ Words.diagonals).zip (pairs m.toList)).foldl
    (fun s (p, x, y) => mix s p x y) s

/-- The given number of rounds, with the words of the block rearranged between them. -/
def rounds : Nat → Words → Words → Words
  | 0, s, _ => s
  | k + 1, s, m => rounds k (round s m) (schedule.map fun i => m.get (Words.place i))

/-- Up to 64 octets as words, filled up with zeros. -/
def wordsOf (xs : Octets) : Words :=
  Vector.ofFn fun i => (Octets.toNatLE ((xs.drop (4 * i)).take 4)).toUInt32

/-- One compression that is still to be made: as a link of the chain or as the end of the tree. -/
structure Node where
  chain : Chain
  block : Words
  counter : Nat
  length : Nat
  flags : UInt32

/-- The state after the seven rounds of a compression. -/
def Node.mixed (n : Node) (flags : UInt32) : Words :=
  let h := n.chain
  rounds 7
    #v[h[0], h[1], h[2], h[3], h[4], h[5], h[6], h[7],
      initial[0], initial[1], initial[2], initial[3],
      n.counter.toUInt32, (n.counter >>> 32).toUInt32, n.length.toUInt32, flags]
    n.block

/-- The words handed on by a compression. -/
def Node.next (n : Node) : Chain :=
  let s := n.mixed n.flags
  Vector.ofFn fun i => s[i.val] ^^^ s[i.val + 8]

/-- The digest, if this is the last compression. -/
def Node.digest (n : Node) : Octets :=
  let s := n.mixed (n.flags ||| Flag.root)
  (List.finRange 8).flatMap fun i => Octets.ofNatLE 4 (s[i.val] ^^^ s[i.val + 8]).toNat

theorem Node.length_digest (n : Node) : n.digest.length = 32 := by
  unfold Node.digest
  rw [Octets.length_flatMap_of_length fun _ => Octets.length_ofNatLE 4 _, List.length_finRange]

/-! ### Chunks and the tree -/

/-- The compressions of the blocks of one chunk, up to the last, which is left open. -/
def chunkNode (flags : UInt32) (counter : Nat) :
    UInt32 → Chain → List Octets → Node
  | start, chain, [] => ⟨chain, wordsOf [], counter, 0, flags ||| start ||| Flag.chunkEnd⟩
  | start, chain, [b] =>
    ⟨chain, wordsOf b, counter, b.length, flags ||| start ||| Flag.chunkEnd⟩
  | start, chain, b :: bs =>
    chunkNode flags counter 0
      (Node.next ⟨chain, wordsOf b, counter, b.length, flags ||| start⟩) bs

/-- The chunk with a given number. -/
def chunk (key : Chain) (flags : UInt32) (counter : Nat) (xs : Octets) : Node :=
  chunkNode flags counter Flag.chunkStart key (Octets.pieces 64 (by decide) xs)

/-- Two subtrees joined. -/
def join (key : Chain) (flags : UInt32) (l r : Node) : Node :=
  ⟨key, l.next ++ r.next, 0, 64, flags ||| Flag.parent⟩

/-- The tree over the chunks numbered from `first` on. -/
def tree (key : Chain) (flags : UInt32) (first : Nat) (chunks : List Octets) : Node :=
  if h : chunks.length ≤ 1 then chunk key flags first chunks.flatten
  else
    let k := 2 ^ (chunks.length - 1).log2
    have hk : k ≤ chunks.length - 1 := Nat.log2_self_le (by omega)
    have hp : 0 < k := Nat.two_pow_pos _
    join key flags (tree key flags first (chunks.take k))
      (tree key flags (first + k) (chunks.drop k))
termination_by chunks.length
decreasing_by
  · simp only [List.length_take]; omega
  · simp only [List.length_drop]; omega

/-- The digest of an input under a key and a mode. -/
def digest (key : Chain) (flags : UInt32) (xs : Octets) : Block 32 :=
  ⟨(tree key flags 0 (Octets.pieces 1024 (by decide) xs)).digest, Node.length_digest _⟩

/-! ### The two modes -/

/-- The hash of an input. -/
def hash (xs : Octets) : Block 32 := digest initial 0 xs

/-- The key derived from key material for the use that a context text names. -/
def deriveKey (context : String) (material : Octets) : Block 32 :=
  let contextKey := digest initial Flag.contextText (Octets.ofText context)
  digest (Vector.ofFn fun i => (wordsOf contextKey.octets)[i.val]) Flag.contextMaterial material

end Guardianship.Blake3
