import Guardianship.Bls12.Element
import Guardianship.Proofs.Bls12.Encoding
import Guardianship.Proofs.Bls12.Point
import Mathlib.AlgebraicGeometry.EllipticCurve.Affine.Point

/-!
# The group of points

The points of the curve are those of the elliptic curve `y² = x³ + 4` over the field of coordinates
(`curve`, `Point.ofCurve`), whose sums are the sums of its group (`Point.ofCurve_add`).
-/

namespace Guardianship.Bls12

open scoped Fin.CommRing Coordinate

/-- The curve `y² = x³ + 4`. -/
def curve : WeierstrassCurve.Affine Coordinate := ⟨0, 0, 0, 0, 4⟩

theorem discriminant_ne_zero : curve.Δ ≠ 0 := by
  have hdiscriminant : curve.Δ = -(27 * (4 * 4) ^ 2) := by
    simp only [curve, WeierstrassCurve.Δ, WeierstrassCurve.b₂, WeierstrassCurve.b₄,
      WeierstrassCurve.b₆, WeierstrassCurve.b₈]
    ring
  rw [hdiscriminant]
  decide

theorem nonsingular_iff {x y : Coordinate} : curve.Nonsingular x y ↔ y * y = cubic x := by
  rw [← WeierstrassCurve.Affine.equation_iff_nonsingular_of_Δ_ne_zero discriminant_ne_zero,
    WeierstrassCurve.Affine.equation_iff, cubic]
  simp only [curve, zero_mul, add_zero]
  constructor <;> intro h <;> linear_combination h

theorem negY_eq (x y : Coordinate) : curve.negY x y = -y := by
  simp [WeierstrassCurve.Affine.negY, curve]

namespace Point

/-- The point with the coordinates of a point of the curve. -/
def ofCurve : curve.Point → Point
  | .zero => .infinity
  | .some x y _ => .affine x y

theorem ofCurve_injective : Function.Injective ofCurve
  | .zero, .zero, _ => rfl
  | .some _ _ _, .some _ _ _, h => by
    cases h
    rfl

theorem onCurve_ofCurve : ∀ P : curve.Point, (ofCurve P).onCurve = true
  | .zero => rfl
  | .some _ _ h => decide_eq_true (nonsingular_iff.mp h)

theorem exists_ofCurve : ∀ {p : Point}, p.onCurve = true → ∃ P, ofCurve P = p
  | .infinity, _ => ⟨0, rfl⟩
  | .affine x y, h => ⟨.some x y (nonsingular_iff.mpr (of_decide_eq_true h)), rfl⟩

/-! ### Sums -/

namespace Scaled

/-- The coordinates of a form, over its denominator. -/
theorem toPoint_eq_affine {s : Scaled} (hz : s.z ≠ 0) {x y : Coordinate} (hx : s.x = x * s.z ^ 2)
    (hy : s.y = y * s.z ^ 3) : s.toPoint = .affine x y := by
  have hinv := Coordinate.mul_inverse hz
  rw [toPoint_of_z_ne_zero hz, hx, hy]
  congr 1
  · linear_combination x * (s.z * Coordinate.inverse s.z + 1) * hinv
  · linear_combination
      y * ((s.z * Coordinate.inverse s.z) ^ 2 + s.z * Coordinate.inverse s.z + 1) * hinv

theorem toPoint_ofPoint : ∀ p : Point, (ofPoint p).toPoint = p
  | .infinity => rfl
  | .affine x y => toPoint_eq_affine (x := x) (y := y) one_ne_zero (by simp [ofPoint])
    (by simp [ofPoint])

/-- A chord or tangent of slope `l` through a point meets the curve in a third one, of which this is
the opposite. -/
noncomputable def third (x₁ x₂ y₁ l : Coordinate) : Point :=
  .affine (l ^ 2 - x₁ - x₂) (-(l * (l ^ 2 - x₁ - x₂ - x₁) + y₁))

theorem toPoint_chord {x₁ y₁ h r l : Coordinate} (hh : h ≠ 0) (hl : l * h = r) :
    ((ofPoint (.affine x₁ y₁)).chord h r).toPoint = third x₁ (x₁ + h) y₁ l := by
  subst hl
  refine toPoint_eq_affine ?_ ?_ ?_
  · simpa [chord, ofPoint] using hh
  · simp only [chord, ofPoint]
    ring
  · simp only [chord, ofPoint]
    ring

theorem toPoint_tangent {x y l : Coordinate} (hy : y + y ≠ 0) (hl : l * (y + y) = 3 * x ^ 2) :
    (ofPoint (.affine x y)).double.toPoint = third x x y l := by
  refine toPoint_eq_affine ?_ ?_ ?_
  · simpa [double, ofPoint] using hy
  · simp only [double, ofPoint]
    linear_combination (-(l * (y + y)) - 3 * x ^ 2) * hl
  · simp only [double, ofPoint]
    linear_combination ((3 * x ^ 2) ^ 2 + 3 * x ^ 2 * (l * (y + y)) + (l * (y + y)) ^ 2
      - 3 * x * (y + y) ^ 2) * hl

end Scaled

theorem infinity_add (p : Point) : Point.infinity.add p = p := by
  cases p with
  | infinity => rfl
  | affine x y =>
    have hz : Scaled.infinity.z = 0 := rfl
    have hadd : Scaled.infinity.add (.affine x y) = Scaled.ofPoint (.affine x y) := by
      rw [Scaled.add, if_pos hz]
      rfl
    show (Scaled.infinity.add (.affine x y)).toPoint = _
    rw [hadd, Scaled.toPoint_ofPoint]

theorem add_infinity (p : Point) : p.add .infinity = p := Scaled.toPoint_ofPoint p

/-- The sum in the curve's group is the third point of a line, if the line is not vertical. -/
theorem ofCurve_add_some {x₁ y₁ x₂ y₂ : Coordinate} {h₁ : curve.Nonsingular x₁ y₁}
    {h₂ : curve.Nonsingular x₂ y₂} (h : ¬ (x₁ = x₂ ∧ y₁ = curve.negY x₂ y₂)) :
    ofCurve (.some x₁ y₁ h₁ + .some x₂ y₂ h₂) =
      Scaled.third x₁ x₂ y₁ (curve.slope x₁ x₂ y₁ y₂) := by
  rw [WeierstrassCurve.Affine.Point.add_some h]
  simp only [ofCurve, Scaled.third, WeierstrassCurve.Affine.addX, WeierstrassCurve.Affine.addY,
    WeierstrassCurve.Affine.negAddY, negY_eq]
  simp [curve]

/-- The sum along a chord. -/
theorem ofCurve_add_of_ne {x₁ y₁ x₂ y₂ : Coordinate} {h₁ : curve.Nonsingular x₁ y₁}
    {h₂ : curve.Nonsingular x₂ y₂} (hx : x₂ - x₁ ≠ 0) :
    ofCurve (.some x₁ y₁ h₁ + .some x₂ y₂ h₂) =
      ((Scaled.ofPoint (.affine x₁ y₁)).chord (x₂ - x₁) (y₂ - y₁)).toPoint := by
  have hne : x₁ ≠ x₂ := fun h => hx (sub_eq_zero.mpr h.symm)
  have hslope : curve.slope x₁ x₂ y₁ y₂ * (x₂ - x₁) = y₂ - y₁ := by
    rw [WeierstrassCurve.Affine.slope_of_X_ne hne, div_mul_eq_mul_div,
      div_eq_iff (sub_ne_zero.mpr hne)]
    ring
  rw [ofCurve_add_some fun h => hne h.1, Scaled.toPoint_chord hx hslope, add_sub_cancel]

/-- The sum along a tangent. -/
theorem ofCurve_add_self {x y : Coordinate} {h : curve.Nonsingular x y} (hy : y + y ≠ 0) :
    ofCurve (.some x y h + .some x y h) = (Scaled.ofPoint (.affine x y)).double.toPoint := by
  have hne : y ≠ curve.negY x y := by
    rw [negY_eq]
    exact fun h => hy (add_eq_zero_iff_eq_neg.mpr h)
  have hslope : curve.slope x x y y * (y + y) = 3 * x ^ 2 := by
    rw [WeierstrassCurve.Affine.slope_of_Y_ne rfl hne, negY_eq, sub_neg_eq_add,
      div_mul_cancel₀ _ hy]
    simp [curve]
  rw [ofCurve_add_some fun h => hne h.2, Scaled.toPoint_tangent hy hslope]

/-- **Sums of points are those of the curve's group.** -/
theorem ofCurve_add : ∀ P Q : curve.Point, ofCurve (P + Q) = (ofCurve P).add (ofCurve Q)
  | .zero, Q => (congrArg ofCurve (zero_add Q)).trans (infinity_add (ofCurve Q)).symm
  | .some x y h, .zero => (congrArg ofCurve (add_zero _)).trans (add_infinity (.affine x y)).symm
  | .some x₁ y₁ h₁, .some x₂ y₂ h₂ => by
    have hdx : (Scaled.ofPoint (.affine x₁ y₁)).dx x₂ = x₂ - x₁ := by
      simp [Scaled.dx, Scaled.ofPoint]
    have hdy : (Scaled.ofPoint (.affine x₁ y₁)).dy y₂ = y₂ - y₁ := by
      simp [Scaled.dy, Scaled.ofPoint]
    show _ = ((Scaled.ofPoint (.affine x₁ y₁)).add (.affine x₂ y₂)).toPoint
    rw [Scaled.add_affine one_ne_zero, hdx, hdy]
    split_ifs with hx hy
    · -- one point twice
      obtain rfl := sub_eq_zero.mp hx
      obtain rfl := sub_eq_zero.mp hy
      by_cases hvertical : y₂ + y₂ = 0
      · rw [WeierstrassCurve.Affine.Point.add_self_of_Y_eq
          ((negY_eq _ _).symm ▸ add_eq_zero_iff_eq_neg.mp hvertical)]
        refine (Scaled.toPoint_of_z_eq_zero ?_).symm
        simpa [Scaled.double, Scaled.ofPoint] using hvertical
      · exact ofCurve_add_self hvertical
    · -- two different points above one another are opposite
      obtain rfl := sub_eq_zero.mp hx
      have hopposite := (WeierstrassCurve.Affine.Y_eq_of_X_eq h₁.left h₂.left rfl).resolve_left
        fun h => hy (sub_eq_zero.mpr h.symm)
      rw [WeierstrassCurve.Affine.Point.add_of_Y_eq rfl hopposite]
      rfl
    · exact ofCurve_add_of_ne hx

end Point

end Guardianship.Bls12
