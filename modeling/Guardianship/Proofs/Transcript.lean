import Guardianship.Proofs.Octets.Fields
import Guardianship.Proofs.Suite.Exponents

/-!
# What the transcript of a joint key tells

The transcript is one sequence of fields for all keys: the owner of each, and then its commitments.
Nothing says where the commitments of one key end and the next owner comes, except that the octets
of an element never begin like those of a text (`Suite.Compressed.encode_ne_ofText`): the first
octet of an element is one that only continues a character of UTF-8, or 192, which does not occur in
it at all (`Octets.ofText_cons`).  So every key is told from what comes after it
(`contribution_append_inj`), and the transcript tells the owners and their commitments in their
order (`transcriptOf_eq_iff`).

The joint key itself is a sum and does not depend on the order (`key_combine_perm`).

Main statement: `transcript_binds_roster`.
-/

namespace Guardianship

/-! ### How texts begin -/

namespace Octets

/-- A character begins with an octet below 128 or above 192. -/
theorem utf8EncodeChar_eq_cons (c : Char) :
    ∃ x xs, String.utf8EncodeChar c = x :: xs ∧ (x.toNat < 0x80 ∨ 0xc0 < x.toNat) := by
  have hv : c.val.toNat < 0x110000 := by
    rcases c.valid with h | h
    · exact Nat.lt_trans h (by decide)
    · exact h.2
  unfold String.utf8EncodeChar
  dsimp only
  generalize c.val.toNat = v at hv
  -- one case for each number of octets; with two of them the first is at least 194
  split_ifs
  all_goals refine ⟨_, _, rfl, ?_⟩
  all_goals rw [UInt8.toNat_ofNat']
  all_goals omega

theorem ofText_cons {s : String} {x : UInt8} {xs : Octets} (h : ofText s = x :: xs) :
    x.toNat < 0x80 ∨ 0xc0 < x.toNat := by
  unfold ofText at h
  cases hs : s.toList with
  | nil =>
    rw [hs] at h
    cases h
  | cons c cs =>
    obtain ⟨y, ys, hc, hy⟩ := utf8EncodeChar_eq_cons c
    rw [hs, List.flatMap_cons, hc, List.cons_append] at h
    rwa [(List.cons.inj h).1] at hy

end Octets

variable {S : Suite}

/-- An element is never taken for a text. -/
theorem Suite.Compressed.encode_ne_ofText (hC : S.Compressed) (a : S.Element) (s : String) :
    S.encode a ≠ Octets.ofText s := by
  intro h
  obtain ⟨x, xs, hx, hlow, hhigh⟩ := hC.head_encode a
  have hbegin := Octets.ofText_cons (h.symm.trans hx)
  rw [UInt8.le_iff_toNat_le] at hlow hhigh
  have h80 : UInt8.toNat 0x80 = 0x80 := rfl
  have hc0 : UInt8.toNat 0xc0 = 0xc0 := rfl
  omega

namespace JointKey

/-! ### Where the next owner comes -/

/-- The keys have the same owner and the same commitments. -/
def SameEntry (k l : ElectionKey S) : Prop := k.owner = l.owner ∧ k.commitments = l.commitments

/-- There are no more fields, or the first of them is a text. -/
def BeginsWithText (fs : List Octets) : Prop := ∀ f gs, fs = f :: gs → ∃ s, f = Octets.ofText s

theorem beginsWithText_contributions : ∀ ks : List (ElectionKey S),
    BeginsWithText (ks.flatMap contribution)
  | [] => fun _ _ h => by cases h
  | k :: _ => fun _ _ h => by
    cases h
    exact ⟨k.owner, rfl⟩

section Compressed

variable (hC : S.Compressed)
include hC

/-- Commitments end where a text begins. -/
theorem commitments_append_inj {fs gs : List Octets} (hfs : BeginsWithText fs)
    (hgs : BeginsWithText gs) : ∀ {cs ds : List S.Element},
    cs.map S.encode ++ fs = ds.map S.encode ++ gs → cs = ds ∧ fs = gs
  | [], [], h => ⟨rfl, h⟩
  | [], d :: ds, h => by
    obtain ⟨s, hs⟩ := hfs _ _ h
    exact absurd hs (hC.encode_ne_ofText d s)
  | c :: cs, [], h => by
    obtain ⟨s, hs⟩ := hgs _ _ h.symm
    exact absurd hs (hC.encode_ne_ofText c s)
  | c :: cs, d :: ds, h => by
    obtain ⟨hfirst, hrest⟩ := List.cons.inj h
    obtain ⟨hcommitments, htail⟩ := commitments_append_inj hfs hgs hrest
    exact ⟨congrArg₂ List.cons (hC.encode_injective hfirst) hcommitments, htail⟩

theorem contribution_append_inj {k l : ElectionKey S} {fs gs : List Octets}
    (hfs : BeginsWithText fs) (hgs : BeginsWithText gs)
    (h : contribution k ++ fs = contribution l ++ gs) : SameEntry k l ∧ fs = gs := by
  obtain ⟨howner, hrest⟩ := List.cons.inj h
  obtain ⟨hcommitments, htail⟩ := commitments_append_inj hC hfs hgs hrest
  exact ⟨⟨Octets.ofText_injective howner, hcommitments⟩, htail⟩

/-- The flattened fields tell every key. -/
theorem forall₂_of_contributions : ∀ {ks ls : List (ElectionKey S)},
    ks.flatMap contribution = ls.flatMap contribution → List.Forall₂ SameEntry ks ls
  | [], [], _ => .nil
  | [], l :: ls, h => by cases h
  | k :: ks, [], h => by cases h
  | k :: ks, l :: ls, h => by
    rw [List.flatMap_cons, List.flatMap_cons] at h
    obtain ⟨hentry, hrest⟩ := contribution_append_inj hC (beginsWithText_contributions ks)
      (beginsWithText_contributions ls) h
    exact .cons hentry (forall₂_of_contributions hrest)

/-! ### The octets that are hashed -/

theorem fits_of_mem_contributions {ks : List (ElectionKey S)}
    (hks : ∀ k ∈ ks, k.owner.utf8ByteSize < UInt32.size) :
    ∀ f ∈ ks.flatMap contribution, Fields.Fits f := by
  intro f hf
  obtain ⟨k, hk, hf⟩ := List.mem_flatMap.mp hf
  rcases List.mem_cons.mp hf with rfl | hf
  · exact Fields.fits_ofText.mpr (hks k hk)
  · obtain ⟨c, -, rfl⟩ := List.mem_map.mp hf
    rw [Fields.Fits, hC.length_encode]
    decide

omit hC in
theorem contributions_eq_of_forall₂ {ks ls : List (ElectionKey S)}
    (h : List.Forall₂ SameEntry ks ls) : ks.flatMap contribution = ls.flatMap contribution := by
  induction h with
  | nil => rfl
  | cons hentry _ ih =>
    rw [List.flatMap_cons, List.flatMap_cons, ih, contribution, contribution, hentry.1, hentry.2]

theorem transcriptOf_eq_iff {ks ls : List (ElectionKey S)}
    (hks : ∀ k ∈ ks, k.owner.utf8ByteSize < UInt32.size)
    (hls : ∀ l ∈ ls, l.owner.utf8ByteSize < UInt32.size) :
    transcriptOf ks = transcriptOf ls ↔ List.Forall₂ SameEntry ks ls := by
  rw [transcriptOf, transcriptOf,
    Fields.encode_inj (fits_of_mem_contributions hC hks) (fits_of_mem_contributions hC hls)]
  exact ⟨forall₂_of_contributions hC, contributions_eq_of_forall₂⟩

end Compressed

theorem key_combine_perm (hS : S.Lawful) {ks ls : List (ElectionKey S)} (h : ks.Perm ls) :
    (combine ks).key = (combine ls).key := hS.sum_perm (h.map ElectionKey.key)

/-- **The transcript binds the roster, and the joint key does not depend on its order.**  A joint key
is the sum of all keys, with a hash of their transcript.  What is hashed is the same only for as
many keys of the same owners with the same commitments, in the same order; the key combined of them
is the same in every order. -/
theorem transcript_binds_roster (hC : S.Compressed) :
    (∀ ks : List (ElectionKey S), (combine ks).key = S.sum (ks.map ElectionKey.key) ∧
      (combine ks).transcript = Context.transcript.deriveKey (transcriptOf ks)) ∧
    (∀ ks ls : List (ElectionKey S), (∀ k ∈ ks, k.owner.utf8ByteSize < UInt32.size) →
      (∀ l ∈ ls, l.owner.utf8ByteSize < UInt32.size) →
      (transcriptOf ks = transcriptOf ls ↔ ks.length = ls.length ∧
        ∀ i (hi : i < ks.length) (hi' : i < ls.length),
          ks[i].owner = ls[i].owner ∧ ks[i].commitments = ls[i].commitments)) ∧
    (S.Lawful → ∀ ks ls : List (ElectionKey S), ks.Perm ls →
      (combine ks).key = (combine ls).key) := by
  refine ⟨fun _ => ⟨rfl, rfl⟩, fun ks ls hks hls => ?_, fun hS ks ls => key_combine_perm hS⟩
  rw [transcriptOf_eq_iff hC hks hls, List.forall₂_iff_get]
  rfl

/-- Two keys with one commitment each. -/
def twoKeys : List (ElectionKey Suite.flaggedExponents) :=
  [⟨"a", 1, (3 : Fin Bls12.order), [(3 : Fin Bls12.order)]⟩,
    ⟨"b", 2, (5 : Fin Bls12.order), [(5 : Fin Bls12.order)]⟩]

/-- The same keys, but both commitments belong to the first owner. -/
def movedCommitment : List (ElectionKey Suite.flaggedExponents) :=
  [⟨"a", 1, (3 : Fin Bls12.order), [(3 : Fin Bls12.order), (5 : Fin Bls12.order)]⟩,
    ⟨"b", 2, (5 : Fin Bls12.order), []⟩]

theorem reversed_twoKeys_differ :
    Suite.flaggedExponents.Compressed ∧ Suite.flaggedExponents.Lawful ∧
      (combine twoKeys).key = Suite.flaggedExponents.commit (8 : Fin Bls12.order) ∧
      (combine twoKeys).transcript = Context.transcript.deriveKey (transcriptOf twoKeys) ∧
      transcriptOf twoKeys ≠ transcriptOf twoKeys.reverse ∧
      transcriptOf twoKeys ≠ transcriptOf movedCommitment ∧
      (combine twoKeys).key = (combine twoKeys.reverse).key := by
  have hC := Suite.compressed_flaggedExponents
  have hS := Suite.lawful_flaggedExponents
  obtain ⟨hcombine, hbinds, hperm⟩ := transcript_binds_roster hC
  obtain ⟨hkey, htranscript⟩ := hcombine twoKeys
  refine ⟨hC, hS, hkey.trans (by decide +kernel), htranscript, fun h => ?_, fun h => ?_,
    hperm hS _ _ (List.reverse_perm _).symm⟩
  · obtain ⟨-, hentries⟩ := (hbinds _ _ (by decide) (by decide)).mp h
    have howner : "a" = "b" := (hentries 0 (by decide) (by decide)).1
    exact absurd howner (by decide)
  · obtain ⟨-, hentries⟩ := (hbinds _ _ (by decide) (by decide)).mp h
    have hlength := congrArg List.length (hentries 1 (by decide) (by decide)).2
    exact absurd hlength (by decide)

end JointKey

end Guardianship
