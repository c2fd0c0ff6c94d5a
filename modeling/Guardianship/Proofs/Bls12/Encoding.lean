import Guardianship.Proofs.Bls12.Coordinate

/-!
# Points are read back from their octets

Main statement: the point at infinity and every point in the group is read from its own octets
(`Point.decode_encode`), and a number of 48 octets that is read as a point with a second coordinate
other than zero is the number of this point (`Point.toNumber_of_ofNumber`).

The flags of a point stand above its first coordinate, which is smaller than the lowest of them, so
that they can be read one by one; of the two second coordinates that belong to the first, the last
flag picks the right one.  The first octet is never one with which a text could begin
(`Point.head_encode`).
-/

namespace Guardianship.Bls12.Point

open scoped Fin.CommRing

theorem modulus_lt : modulus < largerFlag := by decide

/-- The second coordinate is found again. -/
theorem lift?_of_onCurve {x y : Coordinate} (h : y * y = cubic x) :
    lift? x y.isLarger = some (.affine x y) := by
  obtain ⟨r, hr, hry⟩ := Coordinate.exists_root? y
  rw [lift?, ← h, hr, Option.map_some, Coordinate.choose_root hry]

/-! ### Flags -/

/-- The three flags as a number. -/
def flagsOf (y : Coordinate) : ℕ := if y.isLarger then 5 else 4

theorem toNumber_affine (x y : Coordinate) :
    (affine x y).toNumber = largerFlag * flagsOf y + x.val := by
  have hsmaller : compressedFlag + 0 = largerFlag * 4 := by decide
  have hlarger : compressedFlag + largerFlag = largerFlag * 5 := by decide
  rw [toNumber, flagsOf]
  split_ifs
  · rw [hlarger]
  · rw [hsmaller]

theorem testBit_flagsOf (y : Coordinate) : (flagsOf y).testBit 2 = true ∧
    (flagsOf y).testBit 1 = false ∧ (flagsOf y).testBit 0 = y.isLarger := by
  unfold flagsOf
  cases y.isLarger <;> decide

/-- Bits are not touched by what stands below them. -/
theorem testBit_shiftLeft_mul_add {k v : ℕ} (hv : v < 1 <<< k) (q i : ℕ) :
    ((1 <<< k) * q + v).testBit (k + i) = q.testBit i := by
  rw [Nat.one_shiftLeft] at hv ⊢
  rw [Nat.testBit_two_pow_mul_add _ hv, if_neg (Nat.not_lt.mpr (Nat.le_add_right _ _)),
    Nat.add_sub_cancel_left]

theorem testBit_div_shiftLeft (k n i : ℕ) : (n / 1 <<< k).testBit i = n.testBit (i + k) := by
  rw [Nat.one_shiftLeft, Nat.testBit_div_two_pow]

theorem testBit_add {v : ℕ} (hv : v < largerFlag) (q i : ℕ) :
    (largerFlag * q + v).testBit (381 + i) = q.testBit i :=
  testBit_shiftLeft_mul_add hv q i

/-- A number with the first flag and without the second is read by its coordinate and the third. -/
theorem ofNumber_of_flags {q v : ℕ} {p : Point} (hcompressed : q.testBit 2 = true)
    (hfinite : q.testBit 1 = false) (hv : v < modulus)
    (hp : lift? ⟨v, hv⟩ (q.testBit 0) = some p) : ofNumber (largerFlag * q + v) = .ok p := by
  have hv' : v < largerFlag := Nat.lt_trans hv modulus_lt
  have hmod : (largerFlag * q + v) % largerFlag = v := by
    rw [Nat.mul_add_mod, Nat.mod_eq_of_lt hv']
  have hlift : ∀ w (hw : w < modulus), w = v → lift? ⟨w, hw⟩ (q.testBit 0) = some p := by
    rintro w hw rfl
    exact hp
  have hlt : (largerFlag * q + v) % largerFlag < modulus := by rwa [hmod]
  unfold ofNumber
  dsimp only
  rw [testBit_add hv' q 2, testBit_add hv' q 1, testBit_add hv' q 0, if_pos hcompressed,
    if_neg (ne_true_of_eq_false hfinite), dif_pos hlt, hlift _ hlt hmod]

theorem ofNumber_toNumber : ∀ {p : Point}, p.onCurve = true →
    ofNumber p.toNumber = .ok p
  | .infinity, _ => rfl
  | .affine x y, h => by
    obtain ⟨hcompressed, hfinite, hlarger⟩ := testBit_flagsOf y
    rw [toNumber_affine]
    refine ofNumber_of_flags hcompressed hfinite x.isLt ?_
    rw [hlarger]
    exact lift?_of_onCurve (of_decide_eq_true h)

/-! ### Numbers that are read -/

theorem ofNumber_eq_infinity_iff {n : ℕ} :
    ofNumber n = .ok .infinity ↔ n.testBit 383 = true ∧ n.testBit 382 = true := by
  constructor
  · intro h
    unfold ofNumber at h
    dsimp only at h
    split_ifs at h with hcompressed hinfinite
    · exact ⟨hcompressed, hinfinite⟩
    · split at h
      next p hp =>
        obtain ⟨y, -, hy⟩ := Option.map_eq_some_iff.mp hp
        cases Except.ok.inj h
        cases hy
      next => cases h
  · rintro ⟨hcompressed, hinfinite⟩
    rw [ofNumber, if_pos hcompressed, if_pos hinfinite]

/-- A point of finite coordinates is the root that its last flag picks, above its coordinate. -/
theorem of_ofNumber_eq_affine {n : ℕ} {x y : Coordinate} (h : ofNumber n = .ok (.affine x y)) :
    n.testBit 383 = true ∧ n.testBit 382 = false ∧ x.val = n % largerFlag ∧
      (y ≠ 0 → y.isLarger = n.testBit 381) := by
  unfold ofNumber at h
  dsimp only at h
  split_ifs at h with hcompressed hinfinite hx
  · cases h
  · split at h
    next p hp =>
      obtain ⟨r, -, hr⟩ := Option.map_eq_some_iff.mp hp
      cases Except.ok.inj h
      obtain ⟨rfl, hy⟩ := Point.affine.inj hr
      exact ⟨hcompressed, Bool.eq_false_of_not_eq_true hinfinite, rfl,
        Coordinate.isLarger_choose hy⟩
    next => cases h

/-- Three bits of which the first two are those of a finite point are flags. -/
theorem eq_flagsOf {q : ℕ} {y : Coordinate} (hq : q < 8) (hcompressed : q.testBit 2 = true)
    (hfinite : q.testBit 1 = false) (hlarger : y.isLarger = q.testBit 0) : q = flagsOf y := by
  have all : ∀ k : Fin 8, k.val.testBit 2 = true → k.val.testBit 1 = false →
      k.val = if k.val.testBit 0 then 5 else 4 := by
    decide
  rw [flagsOf, hlarger]
  exact all ⟨q, hq⟩ hcompressed hfinite

/-- **A number that is read** as a point with a second coordinate other than zero is the number of
this point. -/
theorem toNumber_of_ofNumber {n : ℕ} {x y : Coordinate} (hn : n < Octets.bound pointSize)
    (hy : y ≠ 0) (h : ofNumber n = .ok (.affine x y)) : (affine x y).toNumber = n := by
  obtain ⟨hcompressed, hfinite, hx, hlarger⟩ := of_ofNumber_eq_affine h
  have hbound : Octets.bound pointSize = largerFlag * 8 := by decide
  have hbit : ∀ i, (n / largerFlag).testBit i = n.testBit (i + 381) := testBit_div_shiftLeft 381 n
  have hflags : n / largerFlag = flagsOf y := by
    refine eq_flagsOf (Nat.div_lt_of_lt_mul (hbound ▸ hn)) ?_ ?_ ?_
    · rw [hbit, hcompressed]
    · rw [hbit, hfinite]
    · rw [hbit, hlarger hy]
  rw [toNumber_affine, hx, ← hflags, Nat.div_add_mod]

/-! ### Octets -/

theorem toNumber_lt : ∀ p : Point, p.toNumber < Octets.bound pointSize
  | .infinity => by decide
  | .affine x y => by
    have hbound : largerFlag * 6 ≤ Octets.bound pointSize := by decide
    have hx : x.val < largerFlag := Nat.lt_trans x.isLt modulus_lt
    have hflags : flagsOf y ≤ 5 := by
      unfold flagsOf
      split_ifs <;> decide
    rw [toNumber_affine]
    calc largerFlag * flagsOf y + x.val
        < largerFlag * 5 + largerFlag :=
          Nat.add_lt_add_of_le_of_lt (Nat.mul_le_mul_left _ hflags) hx
      _ ≤ Octets.bound pointSize := hbound

/-- The number begins with the first flag, and with the second one only if nothing follows. -/
theorem toNumber_div_bound : ∀ p : Point,
    0x80 ≤ p.toNumber / Octets.bound 47 ∧ p.toNumber / Octets.bound 47 ≤ 0xc0
  | .infinity => by decide
  | .affine x y => by
    have hflag : largerFlag = 32 * Octets.bound 47 := by decide
    have hx : x.val < 32 * Octets.bound 47 := hflag ▸ Nat.lt_trans x.isLt modulus_lt
    have hflags : flagsOf y = 4 ∨ flagsOf y = 5 := by
      unfold flagsOf
      split_ifs <;> simp
    rw [toNumber_affine, hflag]
    generalize Octets.bound 47 = b at hx
    constructor
    · rw [Nat.le_div_iff_mul_le (by omega)]
      rcases hflags with h | h <;> rw [h] <;> omega
    · apply Nat.le_of_lt_succ
      rw [Nat.div_lt_iff_lt_mul (by omega)]
      rcases hflags with h | h <;> rw [h] <;> omega

theorem head_encode (p : Point) : ∃ x xs, p.encode = x :: xs ∧ 0x80 ≤ x ∧ x ≤ 0xc0 := by
  obtain ⟨hlow, hhigh⟩ := p.toNumber_div_bound
  have hoctet : (p.toNumber / Octets.bound 47).toUInt8.toNat = p.toNumber / Octets.bound 47 := by
    rw [Nat.toUInt8, UInt8.toNat_ofNat']
    omega
  refine ⟨_, _, Octets.ofNatBE_cons 47 p.toNumber, ?_, ?_⟩
  · rw [UInt8.le_iff_toNat_le, hoctet]
    exact hlow
  · rw [UInt8.le_iff_toNat_le, hoctet]
    exact hhigh

theorem onCurve_of_inSubgroup {p : Point} (h : p.inSubgroup = true) : p.onCurve = true :=
  (Bool.and_eq_true_iff.mp h).1

/-- The points that are read are those of numbers, if they are in the group. -/
theorem decode_eq_ok_iff {xs : Octets} {p : Point} : decode xs = .ok p ↔
    pointSize ≤ xs.length ∧
    ofNumber (Octets.toNatBE (xs.take pointSize)) = .ok p ∧
    (p = .infinity ∨ p.inSubgroup = true) := by
  have hhead : (xs.take pointSize).length < pointSize ↔ ¬ pointSize ≤ xs.length := by
    rw [List.length_take]
    omega
  unfold decode
  dsimp only
  constructor
  · intro h
    split_ifs at h with hshort
    cases hn : ofNumber (Octets.toNatBE (xs.take pointSize)) with
    | error e =>
      rw [hn] at h
      cases h
    | ok q =>
      rw [hn] at h
      dsimp only at h
      split_ifs at h with hgroup
      obtain rfl := Except.ok.inj h
      exact ⟨not_not.mp (mt hhead.mpr hshort), rfl, hgroup⟩
  · rintro ⟨hlength, hn, hgroup⟩
    rw [if_neg fun hshort => hhead.mp hshort hlength, hn]
    exact if_pos hgroup

/-- **Points of the group are read back**, and so is infinity. -/
theorem decode_encode {p : Point} (h : p = .infinity ∨ p.inSubgroup = true) :
    decode p.encode = .ok p := by
  have hcurve : p.onCurve = true := by
    obtain rfl | h := h
    · rfl
    · exact onCurve_of_inSubgroup h
  have hhead : p.encode.take pointSize = p.encode :=
    List.take_of_length_le (Nat.le_of_eq p.length_encode)
  have hnumber : Octets.toNatBE p.encode = p.toNumber := Octets.toNatBE_ofNatBE p.toNumber_lt
  rw [decode_eq_ok_iff, hhead, hnumber]
  exact ⟨Nat.le_of_eq p.length_encode.symm, ofNumber_toNumber hcurve, h⟩

/-- **A point is read from its own octets** and whatever follows them, unless its second coordinate
is zero. -/
theorem take_of_decode {xs : Octets} {x y : Coordinate} (hy : y ≠ 0)
    (h : decode xs = .ok (.affine x y)) : xs.take pointSize = (affine x y).encode := by
  obtain ⟨hlength, hnumber, -⟩ := decode_eq_ok_iff.mp h
  have hhead : (xs.take pointSize).length = pointSize := List.length_take_of_le hlength
  have hlt := Octets.toNatBE_lt (xs.take pointSize)
  have hback := Octets.ofNatBE_toNatBE (xs.take pointSize)
  rw [hhead] at hlt hback
  rw [encode, toNumber_of_ofNumber hlt hy hnumber, hback]

end Guardianship.Bls12.Point
