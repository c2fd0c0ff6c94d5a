import Guardianship.Mediator
import Guardianship.Proofs.Ledger

/-!
# Where a mediator files messages

Every message that a mediator holds is filed under its own owner or pair, and every pair consists of
two different guardians who have announced (`Filed`).  Each request keeps this (`Filed.apply`), in
particular a disclosure, which may store a verdict at any time, and a late announcement, which only
adds to those who have announced.  So it holds of every mediator that can arise (`Reachable.filed`).
-/

namespace Guardianship.Mediator

variable {S : Suite}

theorem admits_iff {m : Mediator S} {p : Pair} :
    m.admits p = true ↔
      p.owner ≠ p.recipient ∧ p.owner ∈ m.electionKeys.keys
        ∧ p.recipient ∈ m.electionKeys.keys := by
  simp [admits, Pair.isSelf, and_assoc]

/-- Admission depends on nothing but who has announced. -/
theorem admits_mono {m m' : Mediator S} (h : m.electionKeys.keys ⊆ m'.electionKeys.keys)
    {p : Pair} (hp : m.admits p = true) : m'.admits p = true := by
  rw [admits_iff] at hp ⊢
  exact ⟨hp.1, h hp.2.1, h hp.2.2⟩

/-! ### Ledgers by pair -/

section Pairs

variable {ν : Type} (m : Mediator S) (pair : ν → Pair)

/-- Every value is filed under its own pair, and every pair is admitted. -/
def FiledByPair (l : Ledger Pair ν) : Prop :=
  ∀ p v, l.get? p = some v → pair v = p ∧ m.admits p = true

variable {m pair}

theorem FiledByPair.insert {l : Ledger Pair ν} (h : m.FiledByPair pair l) {v : ν}
    (hv : m.admits (pair v) = true) : m.FiledByPair pair (l.insert (pair v) v) := by
  intro p w hw
  rw [Ledger.get?_insert] at hw
  split_ifs at hw with hp
  · cases hw
    exact ⟨hp, hp ▸ hv⟩
  · exact h p w hw

theorem FiledByPair.mono {m' : Mediator S} {l : Ledger Pair ν} (h : m.FiledByPair pair l)
    (hk : m.electionKeys.keys ⊆ m'.electionKeys.keys) : m'.FiledByPair pair l :=
  fun p v hv => ⟨(h p v hv).1, admits_mono hk (h p v hv).2⟩

theorem FiledByPair.admits_of_mem {l : Ledger Pair ν} (h : m.FiledByPair pair l) {p : Pair}
    (hp : p ∈ l.keys) : m.admits p = true := by
  obtain ⟨v, hv⟩ := Ledger.mem_keys.mp hp
  exact (h p v hv).2

end Pairs

/-- **The filing invariant**: keys are filed under their owners, and all else under admitted
pairs. -/
structure Filed (m : Mediator S) : Prop where
  electionKeys : ∀ id k, m.electionKeys.get? id = some k → k.owner = id
  transportKeys : ∀ id k, m.transportKeys.get? id = some k → k.owner = id
  shares : m.FiledByPair SealedShare.pair m.shares
  verdicts : m.FiledByPair Verdict.pair m.verdicts
  disclosures : m.FiledByPair Disclosure.pair m.disclosures

theorem filed_start (id : String) (terms : Terms) : (start id terms : Mediator S).Filed := by
  constructor <;> intro _ _ h <;> cases h

/-! ### What each request keeps -/

theorem keys_subset_announce (m : Mediator S) (a : Announcement S) :
    m.electionKeys.keys ⊆ (m.announce a).electionKeys.keys := by
  intro id hid
  exact Ledger.mem_keys_insert.mpr (Or.inr hid)

theorem Filed.announce {m : Mediator S} (h : m.Filed) (a : Announcement S) :
    (m.announce a).Filed := by
  have hk := m.keys_subset_announce a
  refine ⟨?_, ?_, h.shares.mono hk, h.verdicts.mono hk, h.disclosures.mono hk⟩
  · intro id k hget
    simp only [Mediator.announce, Ledger.get?_insert] at hget
    split_ifs at hget with hid
    · cases hget
      exact hid
    · exact h.electionKeys id k hget
  · intro id k hget
    simp only [Mediator.announce, Ledger.get?_insert] at hget
    split_ifs at hget with hid
    · cases hget
      exact hid
    · exact h.transportKeys id k hget

theorem Filed.receiveShare {m : Mediator S} (h : m.Filed) (s : SealedShare S) :
    (m.receiveShare s).Filed := by
  unfold Mediator.receiveShare
  split_ifs with hs
  · exact ⟨h.electionKeys, h.transportKeys, h.shares.insert hs, h.verdicts, h.disclosures⟩
  · exact h

theorem Filed.receiveVerdict {m : Mediator S} (h : m.Filed) (v : Verdict) :
    (m.receiveVerdict v).Filed := by
  unfold Mediator.receiveVerdict
  split_ifs with hv
  · exact ⟨h.electionKeys, h.transportKeys, h.shares, h.verdicts.insert hv, h.disclosures⟩
  · exact h

theorem Filed.keepDisclosure {m : Mediator S} (h : m.Filed) (d : Disclosure S) :
    (m.keepDisclosure d).Filed := by
  unfold Mediator.keepDisclosure
  split_ifs with hd
  · exact ⟨h.electionKeys, h.transportKeys, h.shares, h.verdicts, h.disclosures.insert hd⟩
  · exact h

theorem Filed.foldl {α : Type} {f : Mediator S → α → Mediator S}
    (hf : ∀ m : Mediator S, m.Filed → ∀ a, (f m a).Filed) :
    ∀ (as : List α) {m : Mediator S}, m.Filed → (as.foldl f m).Filed
  | [], _, h => h
  | a :: as, _, h => Filed.foldl hf as (hf _ h a)

theorem Filed.receiveShares {m : Mediator S} (h : m.Filed) (ss : List (SealedShare S)) :
    (m.receiveShares ss).Filed := by
  unfold Mediator.receiveShares
  split_ifs
  · exact Filed.foldl (fun _ h => h.receiveShare) ss h
  · exact h

theorem Filed.receiveVerdicts {m : Mediator S} (h : m.Filed) (vs : List Verdict) :
    (m.receiveVerdicts vs).Filed := by
  unfold Mediator.receiveVerdicts
  split_ifs
  · exact Filed.foldl (fun _ h => h.receiveVerdict) vs h
  · exact h

theorem Filed.receiveDisclosure {m : Mediator S} (h : m.Filed) (d : Disclosure S) :
    (m.receiveDisclosure d).Filed := by
  unfold Mediator.receiveDisclosure
  dsimp only
  split_ifs
  · exact (h.keepDisclosure d).receiveVerdict _
  · exact h.keepDisclosure d

theorem Filed.apply {m : Mediator S} (h : m.Filed) : ∀ r : Request S, (m.apply r).Filed
  | .announce a => h.announce a
  | .shares ss => h.receiveShares ss
  | .verdicts vs => h.receiveVerdicts vs
  | .disclosure d => h.receiveDisclosure d
  | .reset terms => filed_start m.id terms

/-- Requests one after the other lead from one mediator that can arise to another. -/
theorem Reachable.foldl :
    ∀ (rs : List (Request S)) {m : Mediator S}, Reachable m → Reachable (rs.foldl Mediator.apply m)
  | [], _, h => h
  | r :: rs, _, h => Reachable.foldl rs (h.apply r)

theorem Reachable.filed {m : Mediator S} (h : Reachable m) : m.Filed := by
  induction h with
  | start id terms => exact filed_start id terms
  | apply r _ ih => exact ih.apply r

end Guardianship.Mediator
