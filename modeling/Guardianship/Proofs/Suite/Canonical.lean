import Guardianship.Message.Wire
import Guardianship.Proofs.Octets.Hex
import Guardianship.Proofs.Suite.Standard

/-!
# What is read as an element

The reader of elements takes the first 48 octets and leaves the rest aside, and if their second flag
says that the point is infinity, it leaves aside all that follows the flag
(`Bls12.Element.decode_eq_ok_iff`).  If nothing stands in these places (`Suite.Tidy`), an element is
read from its own octets only, and from the hexadecimal text of these but for the case of letters.

Main statement: `Suite.read_canonically_iff_tidy`.
-/

namespace Guardianship

open Bls12

/-! ### The flags of infinity -/

namespace Octets

theorem toNatLE_append : ∀ xs ys : Octets,
    toNatLE (xs ++ ys) = toNatLE xs + bound xs.length * toNatLE ys
  | [], ys => by
    rw [List.nil_append, toNatLE, List.length_nil, bound_zero, Nat.zero_add, Nat.one_mul]
  | x :: xs, ys => by
    rw [List.cons_append, toNatLE, toNatLE, toNatLE_append xs ys, List.length_cons, bound_succ]
    ring

theorem toNatBE_cons (x : UInt8) (xs : Octets) :
    toNatBE (x :: xs) = bound xs.length * x.toNat + toNatBE xs := by
  rw [toNatBE, List.reverse_cons, toNatLE_append, List.length_reverse, toNatBE, Nat.add_comm]
  rfl

end Octets

namespace Bls12.Point

/-- The first two flags are the highest bits of the first octet. -/
theorem testBit_flags_iff {x : UInt8} {rest : Octets} (h : rest.length = 47) :
    (Octets.toNatBE (x :: rest)).testBit 383 = true ∧
      (Octets.toNatBE (x :: rest)).testBit 382 = true ↔ 0xc0 ≤ x := by
  have hbound : Octets.bound 47 = 1 <<< 376 := by decide
  have hrest : Octets.toNatBE rest < 1 <<< 376 := by
    rw [← hbound, ← h]
    exact Octets.toNatBE_lt rest
  have hbit : ∀ i, (Octets.toNatBE (x :: rest)).testBit (376 + i) = x.toNat.testBit i := fun i => by
    rw [Octets.toNatBE_cons, h, hbound, testBit_shiftLeft_mul_add hrest]
  have hoctet : ∀ k : Fin 256, k.val.testBit 7 = true ∧ k.val.testBit 6 = true ↔ 0xc0 ≤ k.val := by
    decide +kernel
  rw [hbit 7, hbit 6, UInt8.le_iff_toNat_le]
  exact hoctet ⟨x.toNat, x.toNat_lt⟩

/-- Infinity is read wherever its flags are. -/
theorem decode_eq_infinity_iff {xs : Octets} : decode xs = .ok .infinity ↔
    48 ≤ xs.length ∧ ∃ x rest, xs = x :: rest ∧ 0xc0 ≤ x := by
  rw [decode_eq_ok_iff, ofNumber_eq_infinity_iff]
  refine and_congr_right fun hlength => ?_
  cases xs with
  | nil => cases hlength
  | cons x rest =>
    have hrest : (rest.take 47).length = 47 :=
      List.length_take_of_le (Nat.le_of_succ_le_succ hlength)
    have hflags := testBit_flags_iff (x := x) hrest
    constructor
    · rintro ⟨hbits, -⟩
      exact ⟨x, rest, rfl, hflags.mp hbits⟩
    · rintro ⟨y, ys, heq, hy⟩
      obtain ⟨rfl, rfl⟩ := List.cons.inj heq
      exact ⟨hflags.mpr hy, .inl rfl⟩

end Bls12.Point

namespace Bls12.Element

/-- **An element is read from its own octets** and whatever follows them, and the identity from
anything with its flags. -/
theorem decode_eq_ok_iff {xs : Octets} {p : Element} : decode xs = .ok p ↔ 48 ≤ xs.length ∧
    (xs.take 48 = p.encode ∨ p = identity ∧ ∃ x rest, xs = x :: rest ∧ 0xc0 ≤ x) := by
  rw [decode_eq_ok_iff_point]
  constructor
  · intro h
    refine ⟨(Point.decode_eq_ok_iff.mp h).1, ?_⟩
    cases hp : p.point with
    | infinity =>
      rw [hp] at h
      exact .inr ⟨eq_of_point hp, (Point.decode_eq_infinity_iff.mp h).2⟩
    | affine x y =>
      have hy : y ≠ 0 := Point.y_ne_zero_of_inSubgroup (hp ▸ p.inSubgroup_point)
      rw [hp] at h
      exact .inl ((Point.take_of_decode hy h).trans (congrArg Point.encode hp).symm)
  · rintro ⟨hlength, htake | ⟨rfl, hflags⟩⟩
    · -- what follows the first octets plays no role
      have hown := decode_eq_ok_iff_point.mp p.decode_encode
      rw [Point.decode_eq_ok_iff] at hown ⊢
      rw [← htake, List.take_take] at hown
      exact ⟨hlength, hown.2⟩
    · exact Point.decode_eq_infinity_iff.mpr ⟨hlength, hflags⟩

end Bls12.Element

/-! ### Elements as texts -/

theorem Wire.ofJson_element_iff {S : Suite} {s : String} {p : S.Element} :
    (element S).ofJson (.string s) = .ok p ↔
      ∃ xs, s.toLower = Hex.encode xs ∧ S.decode xs = .ok p := by
  simp only [← Hex.decode_eq_ok_iff]
  show (Codec.orRefuse .hex (Hex.decode s) >>= fun xs => Codec.orRefuse .encoding (S.decode xs)) =
    .ok p ↔ _
  cases Hex.decode s with
  | error e => simp [Codec.orRefuse, bind, Except.bind]
  | ok xs =>
    show Codec.orRefuse .encoding (S.decode xs) = .ok p ↔ _
    cases hp : S.decode xs with
    | error e => simp [Codec.orRefuse, hp]
    | ok q => simp [Codec.orRefuse, hp]

namespace Suite

/-- What follows the octets of an element is left aside. -/
theorem decode_encode_append (p : standard.Element) (xs : Octets) :
    standard.decode (standard.encode p ++ xs) = .ok p := by
  have hlength : (standard.encode p).length = 48 := compressed_standard.length_encode p
  refine Element.decode_eq_ok_iff.mpr ⟨?_, .inl (List.take_left' hlength)⟩
  rw [List.length_append, hlength]
  exact Nat.le_add_right 48 xs.length

/-- What follows the flags of infinity is left aside. -/
theorem decode_of_flags {x : UInt8} {rest : Octets} (hx : 0xc0 ≤ x) (hrest : 47 ≤ rest.length) :
    standard.decode (x :: rest) = .ok standard.identity :=
  Element.decode_eq_ok_iff.mpr ⟨Nat.succ_le_succ hrest, .inr ⟨rfl, x, rest, rfl, hx⟩⟩

/-- Nothing stands where the reader does not look: after 48 octets, or below the flags of
infinity. -/
def Tidy (xs : Octets) : Prop :=
  xs.length ≤ 48 ∧ ∀ x rest, xs = x :: rest → 0xc0 ≤ x → x = 0xc0 ∧ ∀ y ∈ rest, y = 0

theorem encode_identity : standard.encode standard.identity = 0xc0 :: List.replicate 47 0 := by
  decide +kernel

theorem tidy_encode (p : standard.Element) : Tidy (standard.encode p) := by
  have hlength : (standard.encode p).length = 48 := compressed_standard.length_encode p
  refine ⟨Nat.le_of_eq hlength, fun x rest hp hx => ?_⟩
  have hrest : 47 ≤ rest.length := by
    rw [hp, List.length_cons] at hlength
    omega
  have hread := decode_of_flags hx hrest
  rw [← hp, readable_standard p] at hread
  rw [Except.ok.inj hread, encode_identity] at hp
  obtain ⟨rfl, rfl⟩ := List.cons.inj hp
  exact ⟨rfl, fun y hy => List.eq_of_mem_replicate hy⟩

/-- What is read and tidy are the octets of the element. -/
theorem eq_encode_of_tidy {xs : Octets} {p : standard.Element} (h : standard.decode xs = .ok p)
    (htidy : Tidy xs) : xs = standard.encode p := by
  obtain ⟨hle, hflags⟩ := htidy
  obtain ⟨hge, htake | ⟨rfl, x, rest, rfl, hx⟩⟩ := Element.decode_eq_ok_iff.mp h
  · rwa [List.take_of_length_le hle] at htake
  · obtain ⟨rfl, hzero⟩ := hflags x rest rfl hx
    have hlength : rest.length = 47 := by
      rw [List.length_cons] at hle hge
      omega
    rw [List.eq_replicate_of_mem hzero, hlength]
    exact encode_identity.symm

/-- **Elements are read canonically exactly if the octets are tidy.**  The reader takes the first 48
octets, which are those of the element, or any with the flags of infinity; so an element is read
from no more than one tidy string of octets, and from no more than one text of such octets but for
the case of letters. -/
theorem read_canonically_iff_tidy (p : standard.Element) :
    (∀ xs : Octets, standard.decode xs = .ok p ↔ 48 ≤ xs.length ∧
      (xs.take 48 = standard.encode p ∨
        p = standard.identity ∧ ∃ x rest, xs = x :: rest ∧ 0xc0 ≤ x)) ∧
    (∀ xs : Octets, standard.decode xs = .ok p → (xs = standard.encode p ↔ Tidy xs)) ∧
    ∀ (s : String) (xs : Octets), Hex.decode s = .ok xs →
      (Wire.element standard).ofJson (.string s) = .ok p →
        (s.toLower = Hex.encode (standard.encode p) ↔ Tidy xs) := by
  have hoctets : ∀ xs : Octets, standard.decode xs = .ok p →
      (xs = standard.encode p ↔ Tidy xs) := by
    intro xs h
    constructor
    · rintro rfl
      exact tidy_encode p
    · exact eq_encode_of_tidy h
  refine ⟨fun xs => Element.decode_eq_ok_iff, hoctets, fun s xs hs h => ?_⟩
  obtain ⟨ys, hys, hdecode⟩ := Wire.ofJson_element_iff.mp h
  obtain rfl := Except.ok.inj (hs.symm.trans (Hex.decode_eq_ok_iff.mpr hys))
  rw [← hoctets xs hdecode, hys]
  exact Hex.encode_injective.eq_iff

/-- The generator is read from its digits in capital letters. -/
theorem capital_generator_read_canonically :
    (Wire.element standard).ofJson
        (.string (Hex.encode (standard.encode standard.generator)).toUpper) =
      .ok standard.generator ∧
    (Hex.encode (standard.encode standard.generator)).toUpper.toLower =
      Hex.encode (standard.encode standard.generator) := by
  have hlower := Hex.toLower_toUpper_encode (standard.encode standard.generator)
  have hread := Wire.ofJson_element_iff.mpr ⟨_, hlower, readable_standard standard.generator⟩
  obtain ⟨-, hoctets, htexts⟩ := read_canonically_iff_tidy standard.generator
  have htidy := (hoctets _ (readable_standard _)).mp rfl
  exact ⟨hread, (htexts _ _ (Hex.decode_eq_ok_iff.mpr hlower) hread).mpr htidy⟩

/-- **An octet too many is not noticed**, nor is one below the flags of infinity. -/
theorem stray_octets_not_noticed :
    (standard.decode (standard.encode standard.generator ++ [0]) = .ok standard.generator ∧
      standard.encode standard.generator ++ [0] ≠ standard.encode standard.generator) ∧
    standard.decode (0xc0 :: List.replicate 47 1) = .ok standard.identity ∧
      0xc0 :: List.replicate 47 1 ≠ standard.encode standard.identity := by
  have hlonger : ∀ xs : Octets, xs ++ [0] ≠ xs := fun xs => by simp
  refine ⟨⟨decode_encode_append standard.generator [0], hlonger _⟩,
    decode_of_flags (by decide) (by decide), ?_⟩
  rw [encode_identity]
  decide

end Suite

end Guardianship
