import Guardianship.Octets.Hex
import Guardianship.Proofs.Octets.Fields

/-!
# Hexadecimal texts differ in the case of their letters only

A text is read as octets exactly if it is what is written of them, but for the case of letters
(`Hex.decode_eq_ok_iff`).
-/

namespace Guardianship.Hex

/-- The two digits of each octet. -/
def digits (xs : Octets) : List Char :=
  xs.flatMap fun x => [digit (x.toNat / 16), digit (x.toNat % 16)]

theorem digits_cons (x : UInt8) (xs : Octets) :
    digits (x :: xs) = digit (x.toNat / 16) :: digit (x.toNat % 16) :: digits xs := rfl

theorem encode_eq_ofList (xs : Octets) : encode xs = String.ofList (digits xs) := rfl

theorem encode_injective : Function.Injective encode := by
  intro xs ys h
  have hread := decode_encode xs
  rw [h, decode_encode] at hread
  exact (Except.ok.inj hread).symm

theorem exists_digit_of_mem {c : Char} {xs : Octets} (h : c ∈ digits xs) :
    ∃ n : Fin 16, c = digit n := by
  obtain ⟨x, -, hx⟩ := List.mem_flatMap.mp h
  have hlt := x.toNat_lt
  obtain rfl | hx := List.mem_cons.mp hx
  · exact ⟨⟨x.toNat / 16, by omega⟩, rfl⟩
  · exact ⟨⟨x.toNat % 16, by omega⟩, List.mem_singleton.mp hx⟩

/-- What does not change the digits does not change a text of them. -/
theorem map_encode {f : Char → Char} (hf : ∀ n : Fin 16, f (digit n) = digit n) (xs : Octets) :
    (encode xs).map f = encode xs := by
  have hdigits : ∀ c ∈ digits xs, f c = c := by
    intro c hc
    obtain ⟨n, rfl⟩ := exists_digit_of_mem hc
    exact hf n
  rw [← String.toList_inj, String.toList_map, encode_eq_ofList, String.toList_ofList]
  exact (List.map_congr_left hdigits).trans (List.map_id _)

theorem toLower_encode (xs : Octets) : (encode xs).toLower = encode xs :=
  map_encode (f := Char.toLower) (by decide) xs

/-- Capital letters are those of the digits that are written. -/
theorem toLower_toUpper_encode (xs : Octets) : (encode xs).toUpper.toLower = encode xs := by
  show ((encode xs).map Char.toUpper).map Char.toLower = encode xs
  rw [String.map_map]
  exact map_encode (by decide) xs

/-! ### Single digits -/

/-- An octet that is read as a digit is a character that is this digit but for its case. -/
theorem exists_char_of_value? {x : UInt8} {n : ℕ} (h : value? x = some n) :
    n < 16 ∧ ∃ c, String.utf8EncodeChar c = [x] ∧ c.toLower = digit n := by
  have all : ∀ k : Fin 256, ∀ v ∈ value? (UInt8.ofNat k), v < 16 ∧
      String.utf8EncodeChar (Char.ofNat k) = [UInt8.ofNat k] ∧
      (Char.ofNat k).toLower = digit v := by
    decide +kernel
  have hx : UInt8.ofNat x.toNat = x := UInt8.ofNat_toNat
  obtain ⟨hn, hoctet, hlower⟩ := all ⟨x.toNat, x.toNat_lt⟩ n (hx.symm ▸ h)
  exact ⟨hn, Char.ofNat x.toNat, hoctet.trans (congrArg (fun y => [y]) hx), hlower⟩

/-- A character that is a digit but for its case is one octet, which is read as the digit. -/
theorem exists_octet_of_toLower {c : Char} {n : ℕ} (hn : n < 16) (h : c.toLower = digit n) :
    ∃ x, String.utf8EncodeChar c = [x] ∧ value? x = some n := by
  have all : ∀ k : Fin 128, ∀ v : Fin 16, (Char.ofNat k).toLower = digit v →
      String.utf8EncodeChar (Char.ofNat k) = [UInt8.ofNat k] ∧
      value? (UInt8.ofNat k) = some v.val := by
    decide +kernel
  have hsmall : ∀ v : Fin 16, (digit v).toNat < 128 := by decide
  have hc : c.toNat < 128 := by
    unfold Char.toLower at h
    split at h
    next hupper => exact Nat.lt_of_le_of_lt hupper.2 (by decide)
    next => exact h ▸ hsmall ⟨n, hn⟩
  have hchar : Char.ofNat c.toNat = c := Char.ofNat_toNat c
  obtain ⟨hoctet, hvalue⟩ := all ⟨c.toNat, hc⟩ ⟨n, hn⟩ (hchar.symm ▸ h)
  exact ⟨UInt8.ofNat c.toNat, (congrArg String.utf8EncodeChar hchar).symm.trans hoctet, hvalue⟩

/-! ### Texts -/

theorem div_mod_toUInt8 (x : UInt8) : (16 * (x.toNat / 16) + x.toNat % 16).toUInt8 = x := by
  rw [Nat.div_add_mod]
  exact UInt8.ofNat_toNat

/-- Digits are read pair by pair, whatever the case of each. -/
theorem decodePairs_of_toLower : ∀ {xs : Octets} {cs : List Char} (position : ℕ),
    cs.map Char.toLower = digits xs →
      decodePairs (cs.flatMap String.utf8EncodeChar) position = .ok xs
  | [], [], _, _ => rfl
  | [], c :: cs, _, h => by cases h
  | x :: xs, cs, position, h => by
    rw [digits_cons] at h
    obtain ⟨c, cs, rfl, hc, h⟩ := List.map_eq_cons_iff.mp h
    obtain ⟨d, cs, rfl, hd, h⟩ := List.map_eq_cons_iff.mp h
    have hx := x.toNat_lt
    obtain ⟨high, hhigh, vhigh⟩ := exists_octet_of_toLower (by omega) hc
    obtain ⟨low, hlow, vlow⟩ := exists_octet_of_toLower (by omega) hd
    simp only [List.flatMap_cons, hhigh, hlow, List.singleton_append, decodePairs, valueAt, vhigh,
      vlow, decodePairs_of_toLower (position + 2) h]
    exact congrArg (fun y => Except.ok (y :: xs)) (div_mod_toUInt8 x)

theorem of_decodePairs_cons {high low : UInt8} {rest xs : Octets} {position : ℕ}
    (h : decodePairs (high :: low :: rest) position = .ok xs) :
    ∃ m n ys, value? high = some m ∧ value? low = some n ∧
      decodePairs rest (position + 2) = .ok ys ∧ xs = (16 * m + n).toUInt8 :: ys := by
  cases hhigh : value? high with
  | none => simp [decodePairs, valueAt, hhigh, bind, Except.bind] at h
  | some m =>
    cases hlow : value? low with
    | none => simp [decodePairs, valueAt, hhigh, hlow, bind, Except.bind] at h
    | some n =>
      cases hrest : decodePairs rest (position + 2) with
      | error e => simp [decodePairs, valueAt, hhigh, hlow, hrest, bind, Except.bind] at h
      | ok ys =>
        simp only [decodePairs, valueAt, hhigh, hlow, hrest] at h
        exact ⟨m, n, ys, rfl, rfl, rfl, (Except.ok.inj h).symm⟩

theorem length_of_decodePairs : ∀ {text xs : Octets} {position : ℕ},
    decodePairs text position = .ok xs → text.length = 2 * xs.length
  | [], _, _, h => by
    cases h
    rfl
  | [_], _, _, h => by cases h
  | high :: low :: rest, xs, _, h => by
    obtain ⟨m, n, ys, -, -, hrest, rfl⟩ := of_decodePairs_cons h
    rw [List.length_cons, List.length_cons, List.length_cons, length_of_decodePairs hrest]
    omega

/-- What is read pair by pair are the octets of digits, whatever the case of each. -/
theorem exists_of_decodePairs : ∀ {text xs : Octets} {position : ℕ},
    decodePairs text position = .ok xs →
      ∃ cs : List Char, cs.flatMap String.utf8EncodeChar = text ∧ cs.map Char.toLower = digits xs
  | [], _, _, h => by
    cases h
    exact ⟨[], rfl, rfl⟩
  | [_], _, _, h => by cases h
  | high :: low :: rest, xs, _, h => by
    obtain ⟨m, n, ys, hhigh, hlow, hrest, rfl⟩ := of_decodePairs_cons h
    obtain ⟨hm, c, hc, hcm⟩ := exists_char_of_value? hhigh
    obtain ⟨hn, d, hd, hdn⟩ := exists_char_of_value? hlow
    obtain ⟨cs, hcs, hys⟩ := exists_of_decodePairs hrest
    have hval : (16 * m + n).toUInt8.toNat = 16 * m + n := by
      rw [Nat.toUInt8, UInt8.toNat_ofNat']
      omega
    refine ⟨c :: d :: cs, ?_, ?_⟩
    · rw [List.flatMap_cons, List.flatMap_cons, hc, hd, hcs]
      rfl
    · have hquotient : (16 * m + n) / 16 = m := by omega
      have hremainder : (16 * m + n) % 16 = n := by omega
      rw [digits_cons, hval, hquotient, hremainder, List.map_cons, List.map_cons, hcm, hdn, hys]

/-- **A text stands for octets** if it is what is written of them but for the case of letters. -/
theorem decode_eq_ok_iff {s : String} {xs : Octets} :
    decode s = .ok xs ↔ s.toLower = encode xs := by
  have hlower : s.toLower = encode xs ↔ s.toList.map Char.toLower = digits xs := by
    show s.map Char.toLower = encode xs ↔ _
    rw [encode_eq_ofList, ← String.toList_inj, String.toList_map, String.toList_ofList]
  rw [hlower]
  constructor
  · intro h
    unfold decode at h
    dsimp only at h
    split at h
    · cases h
    · obtain ⟨cs, hcs, hlower⟩ := exists_of_decodePairs h
      have hs : String.ofList cs = s := by
        refine Octets.ofText_injective ?_
        rw [← hcs, Octets.ofText, String.toList_ofList]
      rwa [← hs, String.toList_ofList]
  · intro h
    have hpairs : decodePairs (Octets.ofText s) 0 = .ok xs := decodePairs_of_toLower 0 h
    have heven : (Octets.ofText s).length % 2 ≠ 1 := by
      rw [length_of_decodePairs hpairs]
      omega
    exact (if_neg heven).trans hpairs

end Guardianship.Hex
