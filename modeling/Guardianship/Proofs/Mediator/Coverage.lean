import Guardianship.Proofs.Mediator.Filing
import Guardianship.Suite.Standard
import Mathlib.Data.Finset.Prod

/-!
# Complete rounds cover every pair

A mediator asks only how many messages it holds.  Since messages are filed under admitted pairs
(`Reachable.filed`), and there are `n (n - 1)` of those when `n` guardians have announced
(`card_pairs`), the right number of messages means one for every pair (`size_eq_card_pairs_iff`).
The count of pairs is cut off at 64 bits, which makes no difference up to `2 ^ 32` guardians
(`pairCount_eq`).

Main statement: what the stages of a ceremony mean pair by pair (`stages_cover_pairs`).
-/

namespace Guardianship

theorem Terms.pairCount_eq {t : Terms} (h : t.guardians.toNat ≤ 2 ^ 32) :
    t.pairCount = t.guardians.toNat * (t.guardians.toNat - 1) := by
  unfold Terms.pairCount
  refine min_eq_left ?_
  calc t.guardians.toNat * (t.guardians.toNat - 1)
      ≤ 2 ^ 32 * (2 ^ 32 - 1) := Nat.mul_le_mul h (Nat.sub_le_sub_right h 1)
    _ ≤ UInt64.size - 1 := by decide

theorem Terms.of_agree {ceremonyId : String} {n k : UInt64} {terms : Terms}
    (h : Terms.agree ceremonyId n k = .ok terms) :
    terms = ⟨ceremonyId, n, k⟩ ∧ n ≠ 0 ∧ k ≠ 0 := by
  unfold Terms.agree at h
  split_ifs at h with hn hk
  cases h
  exact ⟨rfl, hn, fun e => hk (Or.inl e)⟩

namespace Mediator

variable {S : Suite}

/-! ### Who has announced, and their pairs -/

/-- Who has announced an election key. -/
def announcers (m : Mediator S) : Finset String := m.electionKeys.keys.toFinset

/-- Who has announced a transport key. -/
def carriers (m : Mediator S) : Finset String := m.transportKeys.keys.toFinset

/-- The ordered pairs of different announcers. -/
def pairs (m : Mediator S) : Finset Pair := m.announcers.offDiag.image fun q => ⟨q.1, q.2⟩

@[simp] theorem mem_announcers {m : Mediator S} {id : String} :
    id ∈ m.announcers ↔ id ∈ m.electionKeys.keys := List.mem_toFinset

@[simp] theorem mem_carriers {m : Mediator S} {id : String} :
    id ∈ m.carriers ↔ id ∈ m.transportKeys.keys := List.mem_toFinset

theorem mem_pairs {m : Mediator S} {p : Pair} : p ∈ m.pairs ↔ m.admits p = true := by
  rw [admits_iff, pairs, Finset.mem_image]
  constructor
  · rintro ⟨⟨o, r⟩, hq, rfl⟩
    obtain ⟨ho, hr, hne⟩ := Finset.mem_offDiag.mp hq
    exact ⟨hne, mem_announcers.mp ho, mem_announcers.mp hr⟩
  · rintro ⟨hne, ho, hr⟩
    exact ⟨(p.owner, p.recipient),
      Finset.mem_offDiag.mpr ⟨mem_announcers.mpr ho, mem_announcers.mpr hr, hne⟩, rfl⟩

theorem card_pairs (m : Mediator S) :
    m.pairs.card = m.announcers.card * (m.announcers.card - 1) := by
  have hinj : Function.Injective fun q : String × String => (⟨q.1, q.2⟩ : Pair) := by
    rintro ⟨a, b⟩ ⟨c, d⟩ h
    cases h
    rfl
  rw [pairs, Finset.card_image_of_injective _ hinj, Finset.offDiag_card, Nat.mul_sub_one]

/-- **Counting is as good as checking pairs**: there are as many values as pairs exactly if there is
one for every pair. -/
theorem size_eq_card_pairs_iff {m : Mediator S} {ν : Type} {pair : ν → Pair}
    {l : Ledger Pair ν} (h : m.FiledByPair pair l) :
    l.size = m.pairs.card ↔ ∀ p ∈ m.pairs, p ∈ l.keys := by
  have hsub : l.keys.toFinset ⊆ m.pairs := fun p hp =>
    mem_pairs.mpr (h.admits_of_mem (List.mem_toFinset.mp hp))
  rw [← Ledger.card_keys]
  constructor
  · intro hcard p hp
    rw [← Finset.eq_of_subset_of_card_le hsub hcard.ge] at hp
    exact List.mem_toFinset.mp hp
  · intro hall
    have heq : l.keys.toFinset = m.pairs :=
      hsub.antisymm fun p hp => List.mem_toFinset.mpr (hall p hp)
    rw [heq]

/-! ### The conditions of the stages, pair by pair -/

/-- As many have announced as are expected, and everyone has announced both keys. -/
structure EveryoneAnnounced (m : Mediator S) : Prop where
  card_announcers : m.announcers.card = m.expected
  card_carriers : m.carriers.card = m.expected
  announcers_eq : m.announcers = m.carriers

/-- There is a share from every announcer to every other. -/
def SharesCover (m : Mediator S) : Prop :=
  ∀ o ∈ m.announcers, ∀ r ∈ m.announcers, o ≠ r →
    ∃ s, m.shares.get? ⟨o, r⟩ = some s ∧ s.owner = o ∧ s.recipient = r

/-- There is a verdict with some property on the share from every announcer to every other. -/
def VerdictsCover (m : Mediator S) (P : Verdict → Prop) : Prop :=
  ∀ o ∈ m.announcers, ∀ r ∈ m.announcers, o ≠ r →
    ∃ v, m.verdicts.get? ⟨o, r⟩ = some v ∧ v.owner = o ∧ v.recipient = r ∧ P v

theorem allAnnounced_iff {m : Mediator S} : m.allAnnounced = true ↔ m.EveryoneAnnounced := by
  have hcard : m.announcers.card = m.electionKeys.size := Ledger.card_keys _
  have hcard' : m.carriers.card = m.transportKeys.size := Ledger.card_keys _
  simp only [allAnnounced, Bool.and_eq_true, beq_iff_eq, List.all_eq_true, Ledger.contains_iff]
  constructor
  · rintro ⟨⟨he, ht⟩, hsub⟩
    refine ⟨hcard.trans he, hcard'.trans ht, ?_⟩
    refine Finset.eq_of_subset_of_card_le (fun id hid => ?_) (by omega)
    exact mem_carriers.mpr (hsub id (mem_announcers.mp hid))
  · rintro ⟨he, ht, heq⟩
    refine ⟨⟨hcard.symm.trans he, hcard'.symm.trans ht⟩, fun id hid => ?_⟩
    exact mem_carriers.mp (heq ▸ mem_announcers.mpr hid)

theorem pairCount_eq_card_pairs {m : Mediator S} (hn : m.expected ≤ 2 ^ 32)
    (h : m.EveryoneAnnounced) : m.terms.pairCount = m.pairs.card := by
  rw [Terms.pairCount_eq hn, card_pairs, h.card_announcers]
  rfl

theorem sharesCover_iff {m : Mediator S} (hf : m.Filed) :
    m.SharesCover ↔ ∀ p ∈ m.pairs, p ∈ m.shares.keys := by
  constructor
  · intro h p hp
    obtain ⟨hne, ho, hr⟩ := admits_iff.mp (mem_pairs.mp hp)
    obtain ⟨s, hs, -⟩ := h _ (mem_announcers.mpr ho) _ (mem_announcers.mpr hr) hne
    exact Ledger.mem_keys_of_get? hs
  · intro h o ho r hr hne
    have hp : (⟨o, r⟩ : Pair) ∈ m.pairs :=
      mem_pairs.mpr (admits_iff.mpr ⟨hne, mem_announcers.mp ho, mem_announcers.mp hr⟩)
    obtain ⟨s, hs⟩ := Ledger.mem_keys.mp (h _ hp)
    have hpair := (hf.shares _ s hs).1
    exact ⟨s, hs, congrArg Pair.owner hpair, congrArg Pair.recipient hpair⟩

theorem allSharesIn_iff {m : Mediator S} (hf : m.Filed) (hn : m.expected ≤ 2 ^ 32) :
    m.allSharesIn = true ↔ m.EveryoneAnnounced ∧ m.SharesCover := by
  rw [allSharesIn, Bool.and_eq_true, allAnnounced_iff, beq_iff_eq]
  refine and_congr_right fun ha => ?_
  rw [pairCount_eq_card_pairs hn ha, size_eq_card_pairs_iff hf.shares, sharesCover_iff hf]

theorem verdictsCover_iff {m : Mediator S} (hf : m.Filed) {P : Verdict → Prop} :
    m.VerdictsCover P ↔ ∀ p ∈ m.pairs, ∃ v, m.verdicts.get? p = some v ∧ P v := by
  constructor
  · intro h p hp
    obtain ⟨hne, ho, hr⟩ := admits_iff.mp (mem_pairs.mp hp)
    obtain ⟨v, hv, -, -, hP⟩ := h _ (mem_announcers.mpr ho) _ (mem_announcers.mpr hr) hne
    exact ⟨v, hv, hP⟩
  · intro h o ho r hr hne
    have hp : (⟨o, r⟩ : Pair) ∈ m.pairs :=
      mem_pairs.mpr (admits_iff.mpr ⟨hne, mem_announcers.mp ho, mem_announcers.mp hr⟩)
    obtain ⟨v, hv, hP⟩ := h _ hp
    have hpair := (hf.verdicts _ v hv).1
    exact ⟨v, hv, congrArg Pair.owner hpair, congrArg Pair.recipient hpair, hP⟩

theorem allVerdictsIn_iff {m : Mediator S} (hf : m.Filed) (hn : m.expected ≤ 2 ^ 32) :
    m.allVerdictsIn = true ↔
      m.EveryoneAnnounced ∧ m.SharesCover ∧ m.VerdictsCover fun _ => True := by
  rw [allVerdictsIn, Bool.and_eq_true, allSharesIn_iff hf hn, beq_iff_eq, and_assoc]
  refine and_congr_right fun ha => and_congr_right fun _ => ?_
  rw [pairCount_eq_card_pairs hn ha, size_eq_card_pairs_iff hf.verdicts, verdictsCover_iff hf]
  simp only [Ledger.mem_keys, and_true]

/-! ### Verdicts that are bad -/

theorem mem_failed {m : Mediator S} {p : Pair} :
    p ∈ m.failed ↔ ∃ v, m.verdicts.get? p = some v ∧ v.good = false := by
  simp only [failed, List.mem_map, List.mem_filter, Ledger.get?_eq_some_iff,
    Bool.not_eq_true']
  constructor
  · rintro ⟨⟨q, v⟩, ⟨hm, hg⟩, rfl⟩
    exact ⟨v, hm, hg⟩
  · rintro ⟨v, hm, hg⟩
    exact ⟨(p, v), ⟨hm, hg⟩, rfl⟩

theorem failed_sublist (m : Mediator S) : m.failed.Sublist m.verdicts.keys :=
  List.filter_sublist.map Prod.fst

theorem nodup_failed (m : Mediator S) : m.failed.Nodup :=
  m.failed_sublist.nodup m.verdicts.nodup_keys

theorem allSent_iff {m : Mediator S} : m.summary.allSent = true ↔ m.allVerdictsIn = true := by
  unfold summary
  split_ifs with h <;> simp [h]

theorem summary_failed (m : Mediator S) :
    m.summary.failed = if m.allVerdictsIn then m.failed else [] := by
  unfold summary
  split_ifs <;> rfl

theorem allGood_eq_true_iff {m : Mediator S} :
    m.allGood = true ↔ m.allVerdictsIn = true ∧ m.failed = [] := by
  unfold allGood summary
  split_ifs with h <;> simp [h]

theorem allGood_iff {m : Mediator S} (hf : m.Filed) (hn : m.expected ≤ 2 ^ 32) :
    m.allGood = true ↔
      m.EveryoneAnnounced ∧ m.SharesCover ∧ m.VerdictsCover fun v => v.good = true := by
  rw [allGood_eq_true_iff, allVerdictsIn_iff hf hn, verdictsCover_iff hf, verdictsCover_iff hf,
    List.eq_nil_iff_forall_not_mem]
  constructor
  · rintro ⟨⟨ha, hs, hv⟩, hnone⟩
    refine ⟨ha, hs, fun p hp => ?_⟩
    obtain ⟨v, hget, -⟩ := hv p hp
    refine ⟨v, hget, ?_⟩
    by_contra hbad
    exact hnone p (mem_failed.mpr ⟨v, hget, Bool.eq_false_iff.mpr hbad⟩)
  · rintro ⟨ha, hs, hv⟩
    refine ⟨⟨ha, hs, fun p hp => ?_⟩, fun p hp => ?_⟩
    · obtain ⟨v, hget, -⟩ := hv p hp
      exact ⟨v, hget, trivial⟩
    · obtain ⟨w, hw, hbad⟩ := mem_failed.mp hp
      obtain ⟨v, hget, hgood⟩ := hv p (mem_pairs.mpr (hf.verdicts p w hw).2)
      rw [hw] at hget
      cases hget
      rw [hbad] at hgood
      cases hgood

theorem VerdictsCover.mono {m : Mediator S} {P Q : Verdict → Prop} (h : m.VerdictsCover P)
    (hPQ : ∀ v, P v → Q v) : m.VerdictsCover Q := by
  intro o ho r hr hne
  obtain ⟨v, hget, h1, h2, hP⟩ := h o ho r hr hne
  exact ⟨v, hget, h1, h2, hPQ v hP⟩

/-! ### Stages -/

theorem allAnnounced_of_allSharesIn {m : Mediator S} (h : m.allSharesIn = true) :
    m.allAnnounced = true := (Bool.and_eq_true_iff.mp h).1

theorem allSharesIn_of_allVerdictsIn {m : Mediator S} (h : m.allVerdictsIn = true) :
    m.allSharesIn = true := (Bool.and_eq_true_iff.mp h).1

theorem allVerdictsIn_of_allGood {m : Mediator S} (h : m.allGood = true) :
    m.allVerdictsIn = true := by
  by_contra hv
  simp [allGood, summary, hv] at h

theorem stage_eq_announcing_iff {m : Mediator S} :
    m.stage = .announcing ↔ ¬ m.allAnnounced = true := by
  unfold stage
  split_ifs <;> simp_all

theorem stage_eq_backupsPending_iff {m : Mediator S} :
    m.stage = .backupsPending ↔ m.allAnnounced = true ∧ ¬ m.allSharesIn = true := by
  unfold stage
  split_ifs <;> simp_all

theorem stage_eq_verificationsPending_iff {m : Mediator S} :
    m.stage = .verificationsPending ↔ m.allSharesIn = true ∧ ¬ m.allVerdictsIn = true := by
  have hs := allAnnounced_of_allSharesIn (m := m)
  unfold stage
  split_ifs <;> simp_all

theorem stage_eq_challengesPending_iff {m : Mediator S} :
    m.stage = .challengesPending ↔ m.allVerdictsIn = true ∧ ¬ m.allGood = true := by
  have hs := allAnnounced_of_allSharesIn (m := m)
  have hv := allSharesIn_of_allVerdictsIn (m := m)
  unfold stage
  split_ifs <;> simp_all

theorem stage_eq_verified_iff {m : Mediator S} : m.stage = .verified ↔ m.allGood = true := by
  have hs := allAnnounced_of_allSharesIn (m := m)
  have hv := allSharesIn_of_allVerdictsIn (m := m)
  have hg := allVerdictsIn_of_allGood (m := m)
  unfold stage
  split_ifs <;> simp_all

/-- The joint key is there at the last stage and at no other. -/
theorem isSome_jointKey?_iff {m : Mediator S} :
    m.jointKey?.isSome = true ↔ m.stage = .verified := by
  rw [stage_eq_verified_iff]
  unfold jointKey?
  split_ifs with h <;> simp [h]

/-- **Stages are coverage of pairs.**  In whatever order messages came, each of the four conditions
by which a mediator tells stages apart holds exactly if there is a message for every ordered pair of
different announcers; the stage is that of the first condition that fails; and the pairs that are
reported as failed are those with a bad verdict, each once and in the order in which verdicts on
them first came. -/
theorem stages_cover_pairs {m : Mediator S} (hm : Reachable m) (hn : m.expected ≤ 2 ^ 32) :
    (m.allAnnounced = true ↔ m.EveryoneAnnounced) ∧
    (m.allSharesIn = true ↔ m.EveryoneAnnounced ∧ m.SharesCover) ∧
    (m.summary.allSent = true ↔
      m.EveryoneAnnounced ∧ m.SharesCover ∧ m.VerdictsCover fun _ => True) ∧
    (m.allGood = true ↔
      m.EveryoneAnnounced ∧ m.SharesCover ∧ m.VerdictsCover fun v => v.good = true) ∧
    (m.stage = .announcing ↔ ¬ m.EveryoneAnnounced) ∧
    (m.stage = .backupsPending ↔ m.EveryoneAnnounced ∧ ¬ m.SharesCover) ∧
    (m.stage = .verificationsPending ↔
      m.EveryoneAnnounced ∧ m.SharesCover ∧ ¬ m.VerdictsCover fun _ => True) ∧
    (m.stage = .challengesPending ↔
      m.EveryoneAnnounced ∧ m.SharesCover ∧ (m.VerdictsCover fun _ => True) ∧
        ¬ m.VerdictsCover fun v => v.good = true) ∧
    (m.stage = .verified ↔
      m.EveryoneAnnounced ∧ m.SharesCover ∧ m.VerdictsCover fun v => v.good = true) ∧
    (m.jointKey?.isSome = true ↔ m.stage = .verified) ∧
    m.summary.failed.Sublist m.verdicts.keys ∧
    m.summary.failed.Nodup ∧
    ∀ p, p ∈ m.summary.failed ↔
      m.summary.allSent = true ∧ ∃ v, m.verdicts.get? p = some v ∧ v.good = false := by
  have hf := hm.filed
  have hA := allAnnounced_iff (m := m)
  have hS := allSharesIn_iff hf hn
  have hV := allVerdictsIn_iff hf hn
  have hG := allGood_iff hf hn
  have hfailed : m.summary.failed.Sublist m.verdicts.keys := by
    rw [summary_failed]
    split_ifs
    · exact m.failed_sublist
    · exact List.nil_sublist _
  refine ⟨hA, hS, allSent_iff.trans hV, hG, ?_, ?_, ?_, ?_, ?_, isSome_jointKey?_iff, hfailed,
    hfailed.nodup m.verdicts.nodup_keys, ?_⟩
  · rw [stage_eq_announcing_iff, hA]
  · rw [stage_eq_backupsPending_iff, hA, hS]
    tauto
  · rw [stage_eq_verificationsPending_iff, hS, hV]
    tauto
  · rw [stage_eq_challengesPending_iff, hV, hG]
    tauto
  · rw [stage_eq_verified_iff, hG]
  · intro p
    rw [summary_failed, allSent_iff]
    split_ifs with h
    · rw [mem_failed, and_iff_right h]
    · simp [h]

/-- A key whose values do not matter. -/
def blankAnnouncement (S : Suite) (id : String) : Announcement S :=
  ⟨⟨id, 1, S.generator, []⟩, ⟨id, 1, .ofNatLE 0⟩⟩

def blankShare (S : Suite) (o r : String) : SealedShare S := ⟨o, r, 1, [], []⟩

/-- Two guardians after the second round, one of whom has sent its verdict. -/
def afterFirstVerdict : Mediator Suite.standard :=
  [Request.announce (blankAnnouncement _ "a"), .announce (blankAnnouncement _ "b"),
    .shares [blankShare _ "a" "b", blankShare _ "b" "a"],
    .verdicts [⟨"a", "b", "b", false⟩]].foldl apply (start "mediator" ⟨"ceremony", 2, 1⟩)

theorem stages_cover_pairs_of_two :
    Reachable afterFirstVerdict ∧ afterFirstVerdict.expected ≤ 2 ^ 32 ∧
    afterFirstVerdict.stage = .verificationsPending ∧
    afterFirstVerdict.EveryoneAnnounced ∧ afterFirstVerdict.SharesCover ∧
    ¬ afterFirstVerdict.VerdictsCover fun _ => True := by
  have hm : Reachable afterFirstVerdict := Reachable.foldl _ (.start _ _)
  have hn : afterFirstVerdict.expected ≤ 2 ^ 32 := by decide
  have hstage : afterFirstVerdict.stage = .verificationsPending := by decide +kernel
  exact ⟨hm, hn, hstage, (stages_cover_pairs hm hn).2.2.2.2.2.2.1.mp hstage⟩

end Mediator

end Guardianship
