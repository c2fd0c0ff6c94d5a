import Guardianship.Proofs.Bls12.Coordinate
import Mathlib.Tactic.LinearCombination

/-!
# Sums of points do not depend on their denominators

A point has many forms with a common denominator, of which one is that with the denominator one.
Doubling any form of a point and adding to any form of it gives a form of the sum
(`Point.Scaled.toPoint_double`, `Point.Scaled.toPoint_add`).
-/

namespace Guardianship.Bls12.Point

open scoped Fin.CommRing

namespace Scaled

/-- Another form of the same point. -/
def scale (c : Coordinate) (s : Scaled) : Scaled := ⟨c ^ 2 * s.x, c ^ 3 * s.y, c * s.z⟩

theorem double_scale (c : Coordinate) (s : Scaled) :
    (s.scale c).double = s.double.scale (c ^ 4) := by
  simp only [double, scale, mk.injEq]
  refine ⟨?_, ?_, ?_⟩ <;> ring

theorem toPoint_of_z_eq_zero {s : Scaled} (h : s.z = 0) : s.toPoint = .infinity := if_pos h

theorem toPoint_of_z_ne_zero {s : Scaled} (h : s.z ≠ 0) : s.toPoint =
    .affine (s.x * (Coordinate.inverse s.z * Coordinate.inverse s.z))
      (s.y * (Coordinate.inverse s.z * Coordinate.inverse s.z * Coordinate.inverse s.z)) :=
  if_neg h

theorem z_eq_zero_of_toPoint {s : Scaled} (h : s.toPoint = .infinity) : s.z = 0 := by
  by_contra hz
  rw [toPoint_of_z_ne_zero hz] at h
  cases h

theorem z_double_of_z_eq_zero {s : Scaled} (hz : s.z = 0) : s.double.z = 0 := by
  simp only [double, hz, mul_zero, add_zero]

/-! ### Adding with given differences of coordinates -/

/-- The sum along the chord, from the differences of the coordinates. -/
def chord (s : Scaled) (h r : Coordinate) : Scaled :=
  let v := s.x * (h * h)
  let x := r * r - h * (h * h) - (v + v)
  ⟨x, r * (v - x) - s.y * (h * (h * h)), s.z * h⟩

/-- The difference of first coordinates, over the common denominator. -/
def dx (s : Scaled) (x : Coordinate) : Coordinate := x * (s.z * s.z) - s.x

/-- The difference of second coordinates, over the common denominator. -/
def dy (s : Scaled) (y : Coordinate) : Coordinate := y * (s.z * s.z * s.z) - s.y

theorem add_affine {s : Scaled} (hz : s.z ≠ 0) (x y : Coordinate) : s.add (.affine x y) =
    if s.dx x = 0 then if s.dy y = 0 then s.double else infinity
    else s.chord (s.dx x) (s.dy y) := if_neg hz

theorem dx_scale (c : Coordinate) (s : Scaled) (x : Coordinate) :
    (s.scale c).dx x = c ^ 2 * s.dx x := by
  simp only [dx, scale]
  ring

theorem dy_scale (c : Coordinate) (s : Scaled) (y : Coordinate) :
    (s.scale c).dy y = c ^ 3 * s.dy y := by
  simp only [dy, scale]
  ring

theorem chord_scale (c : Coordinate) (s : Scaled) (h r : Coordinate) :
    (s.scale c).chord (c ^ 2 * h) (c ^ 3 * r) = (s.chord h r).scale (c ^ 3) := by
  simp only [chord, scale, mk.injEq]
  refine ⟨?_, ?_, ?_⟩ <;> ring

/-! ### The point of a form -/

open scoped Coordinate

/-- A point is the form of itself with any denominator but zero. -/
theorem eq_scale_ofPoint_toPoint {s : Scaled} (h : s.z ≠ 0) :
    s = (ofPoint s.toPoint).scale s.z := by
  have hinv := Coordinate.mul_inverse h
  obtain ⟨x, y, z⟩ := s
  rw [toPoint_of_z_ne_zero h]
  simp only [ofPoint, scale, mk.injEq]
  refine ⟨?_, ?_, (mul_one z).symm⟩
  · linear_combination (-x * (z * Coordinate.inverse z + 1)) * hinv
  · linear_combination
      (-y * ((z * Coordinate.inverse z) ^ 2 + z * Coordinate.inverse z + 1)) * hinv

theorem toPoint_scale {c : Coordinate} (hc : c ≠ 0) (s : Scaled) :
    (s.scale c).toPoint = s.toPoint := by
  by_cases hz : s.z = 0
  · rw [toPoint_of_z_eq_zero hz, toPoint_of_z_eq_zero (by rw [scale, hz, mul_zero])]
  · have hcz : c * s.z ≠ 0 := mul_ne_zero hc hz
    have hinv := Coordinate.mul_inverse hz
    have hinv' := Coordinate.mul_inverse hcz
    have hc' : c * Coordinate.inverse (c * s.z) = Coordinate.inverse s.z := by
      linear_combination
        Coordinate.inverse s.z * hinv' - c * Coordinate.inverse (c * s.z) * hinv
    rw [toPoint_of_z_ne_zero hz, toPoint_of_z_ne_zero hcz, ← hc']
    simp only [scale, affine.injEq]
    constructor <;> ring

theorem toPoint_add_scale {c : Coordinate} (hc : c ≠ 0) {s : Scaled} (hz : s.z ≠ 0) (q : Point) :
    ((s.scale c).add q).toPoint = (s.add q).toPoint := by
  cases q with
  | infinity => exact toPoint_scale hc s
  | affine x y =>
    have hcz : (s.scale c).z ≠ 0 := mul_ne_zero hc hz
    have hx : c ^ 2 * s.dx x = 0 ↔ s.dx x = 0 := mul_eq_zero_iff_left (pow_ne_zero 2 hc)
    have hy : c ^ 3 * s.dy y = 0 ↔ s.dy y = 0 := mul_eq_zero_iff_left (pow_ne_zero 3 hc)
    simp only [add_affine hz, add_affine hcz, dx_scale, dy_scale, hx, hy]
    split_ifs
    · rw [double_scale, toPoint_scale (pow_ne_zero 4 hc)]
    · rfl
    · rw [chord_scale, toPoint_scale (pow_ne_zero 3 hc)]

/-- Adding to any form of a point gives a form of the sum. -/
theorem toPoint_add (s : Scaled) (q : Point) : (s.add q).toPoint = s.toPoint.add q := by
  by_cases hz : s.z = 0
  · rw [toPoint_of_z_eq_zero hz]
    cases q with
    | infinity => exact toPoint_of_z_eq_zero hz
    | affine x y =>
      have hadd : s.add (.affine x y) = ⟨x, y, 1⟩ := if_pos hz
      rw [hadd]
      rfl
  · have hone : (ofPoint s.toPoint).z ≠ 0 := by
      rw [toPoint_of_z_ne_zero hz]
      exact one_ne_zero
    calc (s.add q).toPoint
        = (((ofPoint s.toPoint).scale s.z).add q).toPoint := by
          rw [← eq_scale_ofPoint_toPoint hz]
      _ = s.toPoint.add q := toPoint_add_scale hz hone q

/-- A point that is added to itself goes along the tangent. -/
theorem ofPoint_add_self (x y : Coordinate) :
    (ofPoint (.affine x y)).add (.affine x y) = (ofPoint (.affine x y)).double := by
  have hdx : (ofPoint (.affine x y)).dx x = 0 := by
    simp only [dx, ofPoint, mul_one, sub_self]
  have hdy : (ofPoint (.affine x y)).dy y = 0 := by
    simp only [dy, ofPoint, mul_one, sub_self]
  rw [add_affine one_ne_zero, if_pos hdx, if_pos hdy]

/-- Doubling any form of a point gives a form of the sum of the point and itself. -/
theorem toPoint_double (s : Scaled) : s.double.toPoint = s.toPoint.add s.toPoint := by
  by_cases hz : s.z = 0
  · rw [toPoint_of_z_eq_zero hz, toPoint_of_z_eq_zero (z_double_of_z_eq_zero hz)]
    rfl
  · calc s.double.toPoint
        = ((ofPoint s.toPoint).scale s.z).double.toPoint := by
          rw [← eq_scale_ofPoint_toPoint hz]
      _ = (ofPoint s.toPoint).double.toPoint := by
          rw [double_scale, toPoint_scale (pow_ne_zero 4 hz)]
      _ = s.toPoint.add s.toPoint := by
          rw [toPoint_of_z_ne_zero hz, ← ofPoint_add_self]
          rfl

end Scaled

end Guardianship.Bls12.Point
