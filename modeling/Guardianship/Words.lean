/-!
# Squares of sixteen words

The hash function and the stream cipher of a ceremony both work on sixteen words of 32 bits in a
square of four by four.  They mix four words at a time, first in each column of the square and then
in each diagonal.
-/

namespace Guardianship

abbrev Words := Vector UInt32 16

namespace Words

/-- The place with a number, row by row. -/
def place (i : Nat) : Fin 16 := Fin.ofNat 16 i

/-- Four places of the square. -/
structure Places where
  a : Fin 16
  b : Fin 16
  c : Fin 16
  d : Fin 16

def columns : List Places := [⟨0, 4, 8, 12⟩, ⟨1, 5, 9, 13⟩, ⟨2, 6, 10, 14⟩, ⟨3, 7, 11, 15⟩]

def diagonals : List Places := [⟨0, 5, 10, 15⟩, ⟨1, 6, 11, 12⟩, ⟨2, 7, 8, 13⟩, ⟨3, 4, 9, 14⟩]

/-- Puts words into four places. -/
def put (s : Words) (p : Places) (a b c d : UInt32) : Words :=
  (((s.set p.a a).set p.b b).set p.c c).set p.d d

end Words

end Guardianship
