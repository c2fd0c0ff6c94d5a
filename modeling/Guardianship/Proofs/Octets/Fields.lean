import Guardianship.Dealing
import Mathlib.Data.Nat.Notation
import Mathlib.Logic.Function.Basic

/-!
# Fields are read in one way only

A sequence of fields does not say how many they are, and the four octets before a field hold its
length modulo `2 ^ 32`.  If every field is shorter than that, the first length tells where the first
field ends and what comes after it (`encodeField_append_inj`), and so on to the end: different
sequences are written differently (`eq_of_encode_eq`).  The bound cannot be dropped
(`exists_ambiguous`).

Different texts have different octets (`Octets.ofText_injective`), so no two pairs of an owner and a
recipient are bound to the same data, and neither are an envelope's two public keys with different
associated data.

Main statement: `fields_are_unambiguous`.
-/

namespace Guardianship

/-! ### The octets of texts -/

namespace Octets

theorem toByteArray_ofText (s : String) : (ofText s).toByteArray = s.toByteArray :=
  String.utf8Encode_toList

theorem ofText_injective : Function.Injective ofText := by
  intro s t h
  rw [← String.toByteArray_inj, ← toByteArray_ofText, h, toByteArray_ofText]

theorem length_ofText (s : String) : (ofText s).length = s.utf8ByteSize := by
  rw [← String.size_toByteArray, ← toByteArray_ofText, List.size_toByteArray]

theorem ofNatLE_inj {width m n : ℕ} (hm : m < bound width) (hn : n < bound width) :
    ofNatLE width m = ofNatLE width n ↔ m = n := by
  refine ⟨fun h => ?_, fun h => congrArg _ h⟩
  rw [← toNatLE_ofNatLE hm, h, toNatLE_ofNatLE hn]

end Octets

theorem Block.octets_inj {n : ℕ} {a b : Block n} : a.octets = b.octets ↔ a = b := by
  cases a
  cases b
  simp

namespace Fields

/-! ### Fields that are short enough -/

/-- The length of a field can be written in four octets. -/
def Fits (field : Octets) : Prop := field.length < UInt32.size

theorem fits_ofText {s : String} : Fits (Octets.ofText s) ↔ s.utf8ByteSize < UInt32.size := by
  rw [Fits, Octets.length_ofText]

theorem fits_block {n : ℕ} (hn : n < UInt32.size) (b : Block n) : Fits b.octets := by
  rw [Fits, b.length_eq]
  exact hn

/-- The first field ends where its length says. -/
theorem encodeField_append_inj {f g xs ys : Octets} (hf : Fits f) (hg : Fits g)
    (h : encodeField f ++ xs = encodeField g ++ ys) : f = g ∧ xs = ys := by
  simp only [encodeField, List.append_assoc] at h
  obtain ⟨hlength, hrest⟩ := List.append_inj h (by simp)
  exact List.append_inj hrest ((Octets.ofNatLE_inj hf hg).mp hlength)

theorem encodeField_ne_nil (f : Octets) : encodeField f ≠ [] := by
  simp [encodeField, Octets.ofNatLE]

/-- By induction on both sequences: neither can end before the other, since a field is never
written as nothing. -/
theorem eq_of_encode_eq : ∀ {fs gs : List Octets}, (∀ f ∈ fs, Fits f) → (∀ g ∈ gs, Fits g) →
    encode fs = encode gs → fs = gs
  | [], [], _, _, _ => rfl
  | [], g :: gs, _, _, h => by
    rw [encode_nil, encode_cons] at h
    exact absurd (List.append_eq_nil_iff.mp h.symm).1 (encodeField_ne_nil g)
  | f :: fs, [], _, _, h => by
    rw [encode_nil, encode_cons] at h
    exact absurd (List.append_eq_nil_iff.mp h).1 (encodeField_ne_nil f)
  | f :: fs, g :: gs, hfs, hgs, h => by
    obtain ⟨hf, hfs⟩ := List.forall_mem_cons.mp hfs
    obtain ⟨hg, hgs⟩ := List.forall_mem_cons.mp hgs
    rw [encode_cons, encode_cons] at h
    obtain ⟨hfirst, hrest⟩ := encodeField_append_inj hf hg h
    rw [hfirst, eq_of_encode_eq hfs hgs hrest]

theorem encode_inj {fs gs : List Octets} (hfs : ∀ f ∈ fs, Fits f) (hgs : ∀ g ∈ gs, Fits g) :
    encode fs = encode gs ↔ fs = gs :=
  ⟨eq_of_encode_eq hfs hgs, fun h => congrArg encode h⟩

theorem encode_pair_inj {f₁ f₂ g₁ g₂ : Octets} (hf₁ : Fits f₁) (hf₂ : Fits f₂) (hg₁ : Fits g₁)
    (hg₂ : Fits g₂) : encode [f₁, f₂] = encode [g₁, g₂] ↔ f₁ = g₁ ∧ f₂ = g₂ := by
  rw [encode_inj (by simp [hf₁, hf₂]) (by simp [hg₁, hg₂])]
  simp

/-! ### Fields that are too long -/

theorem encode_replicate_nil (k : ℕ) :
    encode (List.replicate k []) = List.replicate (k * 4) 0 := by
  have hnil : encodeField [] = List.replicate 4 0 := rfl
  rw [encode, List.flatMap_replicate, hnil, List.flatten_replicate_replicate]

/-- The length of a field of `2 ^ 32` octets is written as zero, so that zeros of this length are
written like a number of empty fields. -/
theorem exists_ambiguous : ∃ fs gs : List Octets, fs ≠ gs ∧ encode fs = encode gs := by
  obtain ⟨k, hk⟩ : ∃ k, 4 + UInt32.size = k * 4 := ⟨UInt32.size / 4 + 1, rfl⟩
  have hlength : Octets.ofNatLE 4 UInt32.size = List.replicate 4 0 := by decide
  refine ⟨[List.replicate UInt32.size 0], List.replicate k [], fun h => ?_, ?_⟩
  · have hlen := congrArg List.length h
    rw [List.length_singleton, List.length_replicate] at hlen
    have hsize : UInt32.size = 4294967296 := rfl
    omega
  · rw [encode_replicate_nil, encode_cons, encode_nil, List.append_nil, encodeField,
      List.length_replicate, hlength, List.replicate_append_replicate, hk]

/-! ### What is bound -/

/-- **Fields are unambiguous.**  Sequences of fields of any lengths are written alike only if they
are the same.  So what a share is bound to tells its owner and its recipient, and what an envelope
is bound to tells its public key and the data that were given. -/
theorem fields_are_unambiguous :
    (∀ fs gs : List Octets, (∀ f ∈ fs, f.length < UInt32.size) →
      (∀ g ∈ gs, g.length < UInt32.size) → (encode fs = encode gs ↔ fs = gs)) ∧
    (∀ owner recipient owner' recipient' : String,
      owner.utf8ByteSize < UInt32.size → recipient.utf8ByteSize < UInt32.size →
      owner'.utf8ByteSize < UInt32.size → recipient'.utf8ByteSize < UInt32.size →
      (SealedShare.boundData owner recipient = SealedShare.boundData owner' recipient' ↔
        owner = owner' ∧ recipient = recipient')) ∧
    ∀ (ephemeral ephemeral' : Block 32) (associated associated' : Octets),
      associated.length < UInt32.size → associated'.length < UInt32.size →
      (Envelope.boundData ephemeral associated = Envelope.boundData ephemeral' associated' ↔
        ephemeral = ephemeral' ∧ associated = associated') := by
  refine ⟨fun fs gs hfs hgs => encode_inj hfs hgs, ?_, ?_⟩
  · intro o r o' r' ho hr ho' hr'
    rw [SealedShare.boundData, SealedShare.boundData,
      encode_pair_inj (fits_ofText.mpr ho) (fits_ofText.mpr hr) (fits_ofText.mpr ho')
        (fits_ofText.mpr hr'),
      Octets.ofText_injective.eq_iff, Octets.ofText_injective.eq_iff]
  · intro e e' a a' ha ha'
    have hkey : ∀ b : Block 32, Fits b.octets := fits_block (by decide)
    rw [Envelope.boundData, Envelope.boundData, encode_pair_inj (hkey e) ha (hkey e') ha',
      Block.octets_inj]

/-- Texts that are the same when joined are told apart. -/
theorem regrouped_texts_differ :
    encode [Octets.ofText "ab", Octets.ofText "c"] ≠
        encode [Octets.ofText "a", Octets.ofText "bc"] ∧
      SealedShare.boundData "ab" "c" ≠ SealedShare.boundData "a" "bc" ∧
      Envelope.boundData (.ofNatLE 1) [0] ≠ Envelope.boundData (.ofNatLE 1) [] := by
  obtain ⟨hfields, hshares, henvelopes⟩ := fields_are_unambiguous
  refine ⟨fun h => ?_, fun h => ?_, fun h => ?_⟩
  · have heq := (hfields _ _ (by decide) (by decide)).mp h
    exact absurd heq (by decide)
  · have heq := (hshares _ _ _ _ (by decide) (by decide) (by decide) (by decide)).mp h
    exact absurd heq.1 (by decide)
  · have heq := (henvelopes _ _ _ _ (by decide) (by decide)).mp h
    exact absurd heq.2 (by decide)

end Fields

end Guardianship
