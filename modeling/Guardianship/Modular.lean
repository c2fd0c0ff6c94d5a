/-!
# Powers in the integers modulo `n`

Square and multiply: the exponent loses its last bit in each step, so the cost is its number of
binary digits and not its size.
-/

namespace Guardianship.Modular

variable {n : Nat}

/-- The residue of one, for a modulus that has residues. -/
def one (a : Fin n) : Fin n := ⟨1 % n, Nat.mod_lt 1 a.pos⟩

/-- The power of a residue. -/
def power (a : Fin n) (e : Nat) : Fin n :=
  if e = 0 then one a
  else
    let h := power (a * a) (e / 2)
    if e % 2 = 1 then a * h else h
termination_by e
decreasing_by omega

theorem power_zero (a : Fin n) : power a 0 = one a := by
  rw [power]; simp

theorem power_even (a : Fin n) (e : Nat) : power a (2 * e) = power (a * a) e := by
  by_cases h : e = 0
  · subst h; rw [power_zero, power_zero, one, one]
  · rw [power, if_neg (by omega)]
    simp

theorem power_odd (a : Fin n) (e : Nat) : power a (2 * e + 1) = a * power (a * a) e := by
  rw [power, if_neg (by omega)]
  have h1 : (2 * e + 1) / 2 = e := by omega
  have h2 : (2 * e + 1) % 2 = 1 := by omega
  simp [h1, h2]

end Guardianship.Modular
