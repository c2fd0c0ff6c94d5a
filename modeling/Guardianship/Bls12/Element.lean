import Guardianship.Bls12.Encoding
import Guardianship.EncodingError

/-!
# The group of election keys

The elements are the points that come from the generator by sums and multiples, and those that
are accepted when read.  No other point can get into a ceremony.
-/

namespace Guardianship.Bls12

/-- The points of a ceremony. -/
inductive Point.Admitted : Point → Prop
  | infinity : Admitted .infinity
  | generator : Admitted generator
  | add {p q : Point} : Admitted p → Admitted q → Admitted (p.add q)
  | multiply {p : Point} (k : Nat) : Admitted p → Admitted (p.multiply k)
  | decoded {p : Point} {xs : Octets} : Point.decode xs = .ok p → Admitted p

/-- An element of the group. -/
structure Element where
  point : Point
  admitted : point.Admitted
deriving DecidableEq

namespace Element

def identity : Element := ⟨.infinity, .infinity⟩

def generator : Element := ⟨Point.generator, .generator⟩

def add (p q : Element) : Element := ⟨p.point.add q.point, .add p.admitted q.admitted⟩

def multiply (k : Nat) (p : Element) : Element := ⟨p.point.multiply k, .multiply k p.admitted⟩

def encode (p : Element) : Octets := p.point.encode

def decode (xs : Octets) : Except EncodingError Element :=
  match h : Point.decode xs with
  | .ok p => .ok ⟨p, .decoded h⟩
  | .error .invalid => .error .elementInvalid
  | .error .flags => .error .elementFlags

end Element

end Guardianship.Bls12
