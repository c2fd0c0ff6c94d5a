import Guardianship.Modular
import Guardianship.Randomness

/-!
# Secret polynomials and commitments to them

The secret of a guardian is the constant term of a polynomial, and the polynomial's values are the
shares of the secret.  The multiples of the generator by the coefficients are public; a value at a
point is checked against them without knowing the polynomial (`accepts`).
-/

namespace Guardianship

/-- A polynomial with at least one coefficient, constant term first, and its commitments. -/
structure Polynomial (S : Suite) where
  coefficients : List S.Scalar
  commitments : List S.Element
  coefficients_ne_nil : coefficients ≠ []
  commitments_eq : commitments = coefficients.map S.commit

namespace Polynomial

variable {S : Suite}

/-- The only cause for which there is no polynomial. -/
inductive Error
  | noCoefficients
deriving DecidableEq, Repr

def Error.message : Error → String
  | .noCoefficients => "invalid input: polynomial needs at least one coefficient"

/-- The polynomial with given coefficients. -/
def ofCoefficients : List S.Scalar → Except Error (Polynomial S)
  | [] => .error .noCoefficients
  | a :: as => .ok ⟨a :: as, (a :: as).map S.commit, by simp, rfl⟩

/-- Draws a polynomial with a number of coefficients. -/
def draw {ρ : Type} [RandomSource ρ] (count : Nat) : StateM ρ (Except Error (Polynomial S)) := do
  let as ← S.drawScalars count
  return ofCoefficients as

/-- The constant term. -/
def secret (p : Polynomial S) : S.Scalar := p.coefficients.head p.coefficients_ne_nil

/-- The commitment to the constant term. -/
def publicKey (p : Polynomial S) : S.Element :=
  p.commitments.head (by simp [p.commitments_eq, p.coefficients_ne_nil])

/-- The value at a point, by Horner's rule. -/
def evaluate (p : Polynomial S) (x : UInt64) : S.Scalar :=
  p.coefficients.foldr (fun a value => value * S.scalar x.toNat + a) 0

end Polynomial

namespace Commitments

variable {S : Suite}

/-- The commitments from the `j`-th on, each multiplied by its power of a point. -/
def weighted (x : S.Scalar) : Nat → List S.Element → List S.Element
  | _, [] => []
  | j, c :: cs => S.multiply (Modular.power x j) c :: weighted x (j + 1) cs

/-- The commitment to the value at a point. -/
def evaluate (commitments : List S.Element) (x : UInt64) : S.Element :=
  S.sum (weighted (S.scalar x.toNat) 0 commitments)

/-- The value is the one at a point of a polynomial with these commitments; there is none without
commitments. -/
def accepts (commitments : List S.Element) (x : UInt64) (value : S.Scalar) : Bool :=
  !commitments.isEmpty && S.commit value = evaluate commitments x

end Commitments

end Guardianship
