import Guardianship.Randomness

/-!
# Computations that draw

How a computation over a random source goes on from one step to the next (`draw_bind`, `draw_pure`),
and how many scalars are drawn when a number of them is asked for.  What is drawn from blocks that
stand for some scalars are these scalars (`drawScalars_of_sample`).
-/

namespace Guardianship

variable {ρ α β : Type}

theorem draw_bind (x : StateM ρ α) (f : α → StateM ρ β) (r : ρ) :
    (x >>= f) r = f (x r).1 (x r).2 := rfl

theorem draw_pure (a : α) (r : ρ) : (pure a : StateM ρ α) r = (a, r) := rfl

/-- A source of given blocks, and of zeros after them. -/
structure Tape where
  blocks : List (Block 32)

instance : RandomSource Tape where
  next
    | ⟨[]⟩ => (.ofNatLE 0, ⟨[]⟩)
    | ⟨b :: bs⟩ => (b, ⟨bs⟩)

namespace Suite

variable {S : Suite}

theorem length_drawScalars [RandomSource ρ] (count : Nat) (r : ρ) :
    (S.drawScalars count r).1.length = count := by
  induction count generalizing r with
  | zero => rfl
  | succ count ih =>
    rw [drawScalars, draw_bind, draw_bind, draw_pure, List.length_cons, ih]

theorem drawScalar_of_sample {b : Block 32} {a : S.Scalar} (h : S.sample b = some a)
    (bs : List (Block 32)) : S.drawScalar (Tape.mk (b :: bs)) = (a, Tape.mk bs) := by
  have hdraw : drawBlock (Tape.mk (b :: bs)) = (b, Tape.mk bs) := rfl
  rw [drawScalar, drawLimit, drawScalarWithin, draw_bind, hdraw, h]
  rfl

theorem drawScalars_of_sample {f : S.Scalar → Block 32} (h : ∀ a, S.sample (f a) = some a) :
    ∀ as : List S.Scalar, S.drawScalars as.length (Tape.mk (as.map f)) = (as, Tape.mk [])
  | [] => rfl
  | a :: as => by
    rw [List.length_cons, List.map_cons, drawScalars, draw_bind, drawScalar_of_sample (h a),
      draw_bind, drawScalars_of_sample h as, draw_pure]

end Suite

end Guardianship
