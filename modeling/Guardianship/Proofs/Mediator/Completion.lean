import Guardianship.Proofs.Mediator.Growth
import Guardianship.Proofs.Mediator.JointKey

/-!
# How a completed round is lost

A round is complete when the number of messages is right, so one too many undoes it as one too few
does.  Once as many have announced as are expected, there is one too many exactly if one of the keys
of a later announcement is of somebody new (`Newcomer`, `everyoneAnnounced_foldl_apply_iff`).
Without a newcomer the rounds that were complete stay so, and with one no round is complete before
the next reset.

A ceremony in which every share has been found good may also come to hold a bad verdict.  Neither
shares nor disclosures bring one, and of a batch of verdicts it is the last on a pair that counts
(`failed_apply_eq_nil_iff`).

Main statement: `completed_rounds_stay`.
-/

namespace Guardianship.Mediator

variable {S : Suite} {m : Mediator S}

/-! ### Newcomers -/

/-- One of the two keys is of somebody who has not announced such a key. -/
def Newcomer (m : Mediator S) (a : Announcement S) : Prop :=
  a.election.owner ∉ m.announcers ∨ a.transport.owner ∉ m.carriers

section Run

variable {rs : List (Request S)} (hrs : ∀ terms, Request.reset terms ∉ rs)
include hrs

theorem mem_announcers_foldl_apply {id : String} :
    id ∈ (rs.foldl apply m).announcers ↔
      id ∈ m.announcers ∨ ∃ a ∈ announcements rs, a.election.owner = id := by
  rw [mem_announcers, mem_announcers, electionKeys_foldl_apply hrs, Ledger.mem_keys_insertAll]
  simp

theorem mem_carriers_foldl_apply {id : String} :
    id ∈ (rs.foldl apply m).carriers ↔
      id ∈ m.carriers ∨ ∃ a ∈ announcements rs, a.transport.owner = id := by
  rw [mem_carriers, mem_carriers, transportKeys_foldl_apply hrs, Ledger.mem_keys_insertAll]
  simp

/-- When everyone has announced, everyone will have announced for as long as nobody new does. -/
theorem everyoneAnnounced_foldl_apply_iff (ha : m.EveryoneAnnounced) :
    (rs.foldl apply m).EveryoneAnnounced ↔ ∀ a ∈ announcements rs, ¬ m.Newcomer a := by
  have hgrows := GrowsTo.foldl_apply hrs m
  have hexpected := hgrows.expected_eq
  constructor
  · intro ha' a hmem hnew
    rcases hnew with hnew | hnew
    · rw [← hgrows.announcers_eq ha ha'] at hnew
      exact hnew ((mem_announcers_foldl_apply hrs).mpr (Or.inr ⟨a, hmem, rfl⟩))
    · rw [← hgrows.carriers_eq ha ha'] at hnew
      exact hnew ((mem_carriers_foldl_apply hrs).mpr (Or.inr ⟨a, hmem, rfl⟩))
  · intro hold
    have hannouncers : (rs.foldl apply m).announcers = m.announcers := by
      refine Finset.Subset.antisymm (fun id hid => ?_) hgrows.announcers_subset
      rcases (mem_announcers_foldl_apply hrs).mp hid with h | ⟨a, hmem, rfl⟩
      · exact h
      · exact not_not.mp fun h => hold a hmem (Or.inl h)
    have hcarriers : (rs.foldl apply m).carriers = m.carriers := by
      refine Finset.Subset.antisymm (fun id hid => ?_) hgrows.carriers_subset
      rcases (mem_carriers_foldl_apply hrs).mp hid with h | ⟨a, hmem, rfl⟩
      · exact h
      · exact not_not.mp fun h => hold a hmem (Or.inr h)
    constructor
    · rw [hannouncers, hexpected, ha.card_announcers]
    · rw [hcarriers, hexpected, ha.card_carriers]
    · rw [hannouncers, hcarriers, ha.announcers_eq]

end Run

/-! ### Bad verdicts -/

/-- When no verdict is bad, a request brings a bad one exactly if the last that it enters on some
pair is bad. -/
theorem failed_apply_eq_nil_iff (hnone : m.failed = []) {r : Request S}
    (hr : ∀ terms, r ≠ .reset terms) :
    (m.apply r).failed = [] ↔
      ∀ p v, ((m.enteredVerdicts r).filter fun v => v.pair = p).getLast? = some v →
        v.good = true := by
  have hgood : ∀ p v, m.verdicts.get? p = some v → v.good = true := by
    intro p v hget
    by_contra hbad
    have hmem : p ∈ m.failed := mem_failed.mpr ⟨v, hget, Bool.eq_false_iff.mpr hbad⟩
    rw [hnone] at hmem
    exact List.not_mem_nil hmem
  simp only [List.eq_nil_iff_forall_not_mem, mem_failed, verdicts_apply m hr,
    Ledger.get?_insertAll_eq, not_exists, not_and, Bool.not_eq_false, Option.or_eq_some_iff]
  constructor
  · intro h p v hlast
    exact h p v (Or.inl hlast)
  · rintro h p v (hlast | ⟨-, hget⟩)
    · exact h p v hlast
    · exact hgood p v hget

/-- The last of some verdicts on an admitted pair is bad. -/
def Condemns (m : Mediator S) (vs : List Verdict) : Prop :=
  ∃ p v, m.admits p = true ∧ (vs.filter fun v => v.pair = p).getLast? = some v ∧ v.good = false

/-- On an admitted pair all messages are entered, and on any other pair none is. -/
theorem filter_admitted {ν : Type} {pair : ν → Pair} (vs : List ν) (p : Pair) :
    ((vs.filter fun v => m.admits (pair v)).filter fun v => pair v = p) =
      if m.admits p then vs.filter fun v => pair v = p else [] := by
  rw [List.filter_filter]
  split_ifs with hp
  · refine List.filter_congr fun v _ => ?_
    by_cases hv : pair v = p <;> simp [hv, hp]
  · refine List.filter_eq_nil_iff.mpr fun v _ => ?_
    by_cases hv : pair v = p <;> simp [hv, hp]

section NoneFailed

variable (hnone : m.failed = [])
include hnone

theorem failed_apply_verdicts_ne_nil_iff (hs : m.allSharesIn = true) (vs : List Verdict) :
    (m.apply (.verdicts vs)).failed ≠ [] ↔ m.Condemns vs := by
  have henters : m.enteredVerdicts (.verdicts vs) = vs.filter fun v => m.admits v.pair := if_pos hs
  rw [Ne, failed_apply_eq_nil_iff hnone (by simp), henters]
  constructor
  · intro h
    push Not at h
    obtain ⟨p, v, hlast, hbad⟩ := h
    rw [filter_admitted] at hlast
    split_ifs at hlast with hp
    · exact ⟨p, v, hp, hlast, Bool.eq_false_iff.mpr hbad⟩
    · cases hlast
  · rintro ⟨p, v, hp, hlast, hbad⟩ h
    have hgood := h p v (by rw [filter_admitted, if_pos hp, hlast])
    rw [hbad] at hgood
    cases hgood

theorem failed_apply_disclosure (d : Disclosure S) : (m.apply (.disclosure d)).failed = [] := by
  rw [failed_apply_eq_nil_iff hnone (by simp)]
  intro p v hlast
  have hmem := List.mem_of_mem_filter (List.mem_of_getLast? hlast)
  rw [enteredVerdicts] at hmem
  split_ifs at hmem
  · rw [List.mem_singleton.mp hmem, upheld]
  · cases hmem

end NoneFailed

/-! ### Settled ceremonies -/

/-- A ceremony is settled from the start if and only if nobody is expected. -/
theorem allGood_start_iff {id : String} {terms : Terms} :
    (start id terms : Mediator S).allGood = true ↔ terms.guardians = 0 := by
  have hexpected : (start id terms : Mediator S).expected = terms.guardians.toNat := rfl
  constructor
  · intro hgood
    have ha := allAnnounced_of_allSharesIn (allSharesIn_of_allVerdictsIn
      (allVerdictsIn_of_allGood hgood))
    have hcard := (allAnnounced_iff.mp ha).card_announcers
    rw [hexpected] at hcard
    exact UInt64.toNat.inj hcard.symm
  · intro hzero
    have hnone : (start id terms : Mediator S).expected = 0 := by rw [hexpected, hzero]; rfl
    refine (allGood_iff (filed_start id terms) (by omega)).mpr ⟨⟨?_, ?_, rfl⟩, ?_, ?_⟩
    · rw [hnone]; rfl
    · rw [hnone]; rfl
    · exact fun o ho => absurd ho (Finset.notMem_empty o)
    · exact fun o ho => absurd ho (Finset.notMem_empty o)

/-- What undoes a ceremony in which every share has been found good. -/
def Unsettles (m : Mediator S) : Request S → Prop
  | .announce a => m.Newcomer a
  | .shares _ | .disclosure _ => False
  | .verdicts vs => m.Condemns vs
  | .reset terms => terms.guardians ≠ 0

section Rounds

variable (hm : Reachable m) (hn : m.expected ≤ 2 ^ 32)
include hm hn

/-- Rounds that are complete are so for as long as nobody new announces. -/
theorem rounds_foldl_apply {rs : List (Request S)} (hrs : ∀ terms, Request.reset terms ∉ rs)
    (hold : ∀ a ∈ announcements rs, ¬ m.Newcomer a) :
    (m.allAnnounced = true → (rs.foldl apply m).allAnnounced = true) ∧
    (m.allSharesIn = true → (rs.foldl apply m).allSharesIn = true) ∧
    (m.allVerdictsIn = true → (rs.foldl apply m).allVerdictsIn = true) := by
  have hgrows := GrowsTo.foldl_apply hrs m
  have hf := hm.filed
  have hf' := (Reachable.foldl rs hm).filed
  have hannounced : m.allAnnounced = true → (rs.foldl apply m).EveryoneAnnounced := by
    intro ha
    exact (everyoneAnnounced_foldl_apply_iff hrs (allAnnounced_iff.mp ha)).mpr hold
  refine ⟨fun ha => allAnnounced_iff.mpr (hannounced ha), fun hs => ?_, fun hv => ?_⟩
  · have ha := allAnnounced_of_allSharesIn hs
    exact hgrows.allSharesIn hf hf' hn (hannounced ha) hs
  · have ha := allAnnounced_of_allSharesIn (allSharesIn_of_allVerdictsIn hv)
    exact hgrows.allVerdictsIn hf hf' hn (hannounced ha) hv

theorem allGood_apply_iff (hgood : m.allGood = true) {r : Request S}
    (hrs : ∀ terms, Request.reset terms ∉ [r]) :
    (m.apply r).allGood = true ↔
      (∀ a ∈ announcements [r], ¬ m.Newcomer a) ∧ (m.apply r).failed = [] := by
  have hv := allVerdictsIn_of_allGood hgood
  have ha := allAnnounced_of_allSharesIn (allSharesIn_of_allVerdictsIn hv)
  have hannounced := everyoneAnnounced_foldl_apply_iff hrs (allAnnounced_iff.mp ha)
  rw [allGood_eq_true_iff]
  refine and_congr_left fun _ => ⟨fun hv' => ?_, fun hold => ?_⟩
  · have ha' := allAnnounced_of_allSharesIn (allSharesIn_of_allVerdictsIn hv')
    exact hannounced.mp (allAnnounced_iff.mp ha')
  · exact (rounds_foldl_apply hm hn hrs hold).2.2 hv

theorem stage_apply_ne_verified_iff (hstage : m.stage = .verified) (r : Request S) :
    (m.apply r).stage ≠ .verified ↔ m.Unsettles r := by
  have hgood := stage_eq_verified_iff.mp hstage
  obtain ⟨hv, hnone⟩ := allGood_eq_true_iff.mp hgood
  rw [Ne, stage_eq_verified_iff]
  cases r with
  | announce a =>
    have hfailed : (m.apply (.announce a)).failed = [] := hnone
    simp [allGood_apply_iff hm hn hgood, hfailed, announcements, Request.announcement?, Unsettles]
  | shares ss =>
    have hfailed : (m.apply (.shares ss)).failed = [] :=
      (failed_apply_eq_nil_iff hnone (by simp)).mpr (by simp [enteredVerdicts])
    simp [allGood_apply_iff hm hn hgood, hfailed, announcements, Request.announcement?, Unsettles]
  | verdicts vs =>
    rw [Unsettles, ← failed_apply_verdicts_ne_nil_iff hnone (allSharesIn_of_allVerdictsIn hv)]
    simp [allGood_apply_iff hm hn hgood, announcements, Request.announcement?]
  | disclosure d =>
    have hfailed := failed_apply_disclosure hnone d
    simp [allGood_apply_iff hm hn hgood, hfailed, announcements, Request.announcement?, Unsettles]
  | reset terms => exact allGood_start_iff.not

end Rounds

/-- **How completed rounds are lost.**  Between two resets a round that is complete stays complete
unless somebody new announces; and once everyone has announced, a newcomer leaves no round complete
until the next reset.  A ceremony in which every share has been found good stays so except by a
newcomer, by a batch whose last verdict on some pair is bad, and by a reset. -/
theorem completed_rounds_stay {m : Mediator S} (hm : Reachable m) (hn : m.expected ≤ 2 ^ 32) :
    (∀ rs, (∀ terms, Request.reset terms ∉ rs) → (∀ a ∈ announcements rs, ¬ m.Newcomer a) →
      (m.allAnnounced = true → (rs.foldl apply m).allAnnounced = true) ∧
      (m.allSharesIn = true → (rs.foldl apply m).allSharesIn = true) ∧
      (m.allVerdictsIn = true → (rs.foldl apply m).allVerdictsIn = true)) ∧
    (m.allAnnounced = true → ∀ rs, (∀ terms, Request.reset terms ∉ rs) →
      (∃ a ∈ announcements rs, m.Newcomer a) →
      (rs.foldl apply m).allAnnounced = false ∧ (rs.foldl apply m).allSharesIn = false ∧
        (rs.foldl apply m).allVerdictsIn = false) ∧
    (m.stage = .verified → ∀ r, (m.apply r).stage ≠ .verified ↔ m.Unsettles r) := by
  refine ⟨fun rs hrs hold => rounds_foldl_apply hm hn hrs hold, ?_, fun hstage r =>
    stage_apply_ne_verified_iff hm hn hstage r⟩
  rintro ha rs hrs ⟨a, hmem, hnew⟩
  have hannounced : (rs.foldl apply m).allAnnounced = false := by
    rw [Bool.eq_false_iff, Ne, allAnnounced_iff,
      everyoneAnnounced_foldl_apply_iff hrs (allAnnounced_iff.mp ha)]
    exact fun hold => hold a hmem hnew
  simp [allVerdictsIn, allSharesIn, hannounced]

/-- Of two verdicts on a pair in one batch the bad one comes last; a known guardian announces
another place, which changes nothing; and a third one announces, after which no round is ever
complete. -/
theorem completed_rounds_of_settledPair :
    Reachable settledPair ∧ settledPair.expected ≤ 2 ^ 32 ∧
    (settledPair.apply
      (.verdicts [⟨"a", "b", "b", true⟩, ⟨"a", "b", "b", false⟩])).stage ≠ .verified ∧
    (settledPair.apply (.announce movedAnnouncement)).stage = .verified ∧
    ([.announce movedAnnouncement].foldl apply settledPair).allVerdictsIn = true ∧
    ∀ rs, (∀ terms, Request.reset terms ∉ rs) →
      ((.announce (blankAnnouncement _ "c") :: rs).foldl apply settledPair).allAnnounced
        = false := by
  have hm : Reachable settledPair := reachable_verifiedPair _ _ _
  have hn : settledPair.expected ≤ 2 ^ 32 := by decide
  have hstage : settledPair.stage = .verified := stage_eq_verified_iff.mpr allGood_settledPair
  have hv := allVerdictsIn_of_allGood allGood_settledPair
  have ha := allAnnounced_of_allSharesIn (allSharesIn_of_allVerdictsIn hv)
  have hknown : ¬ settledPair.Newcomer movedAnnouncement := by
    unfold Newcomer
    decide +kernel
  have hnew : settledPair.Newcomer (blankAnnouncement _ "c") := Or.inl (by decide +kernel)
  obtain ⟨hstay, hlost, hleave⟩ := completed_rounds_stay hm hn
  refine ⟨hm, hn, (hleave hstage _).mpr ?_, ?_, ?_, ?_⟩
  · exact ⟨⟨"a", "b"⟩, ⟨"a", "b", "b", false⟩, by decide +kernel, rfl, rfl⟩
  · exact not_not.mp (mt (hleave hstage (.announce movedAnnouncement)).mp hknown)
  · refine (hstay _ (by simp) fun a hmem => ?_).2.2 hv
    obtain rfl : a = movedAnnouncement := List.mem_singleton.mp hmem
    exact hknown
  · intro rs hrs
    refine (hlost ha _ (by simpa using hrs) ⟨_, ?_, hnew⟩).1
    rw [announcements_cons]
    exact List.mem_append_left _ (List.mem_singleton_self _)

end Guardianship.Mediator
