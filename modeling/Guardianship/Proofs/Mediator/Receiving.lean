import Guardianship.Proofs.Mediator.Coverage

/-!
# What a mediator takes and gives

A request that is not dropped is entered message by message (`receiveShares_eq`,
`receiveVerdicts_eq`), and a disclosure that is found good replaces the verdict on its pair
(`receiveDisclosure_eq`).  What a mediator gives to a guardian is one message for each of the others
(`mem_roster`, `mem_sharesFor`).
-/

namespace Guardianship.Mediator

variable {S : Suite} {m : Mediator S}

/-! ### Requests that are taken -/

/-- Nothing of a request is dropped: its round is open, and every pair is admitted. -/
def Takes (m : Mediator S) : Request S → Prop
  | .announce _ => True
  | .shares ss => m.allAnnounced = true ∧ ∀ s ∈ ss, m.admits s.pair = true
  | .verdicts vs => m.allSharesIn = true ∧ ∀ v ∈ vs, m.admits v.pair = true
  | .disclosure d => m.admits d.pair = true
  | .reset _ => False

/-- Of shares that come one after the other those are entered whose pairs are admitted. -/
theorem foldl_receiveShare :
    ∀ (ss : List (SealedShare S)) (m : Mediator S),
      ss.foldl receiveShare m = { m with
        shares := m.shares.insertAll SealedShare.pair (ss.filter fun s => m.admits s.pair) }
  | [], _ => rfl
  | s :: ss, m => by
    rw [List.foldl_cons, foldl_receiveShare ss, List.filter_cons]
    unfold receiveShare
    by_cases hs : m.admits s.pair = true
    · rw [if_pos hs, if_pos hs]
      -- admission does not depend on the shares that are there already
      rfl
    · rw [if_neg hs, if_neg hs]

theorem receiveShares_eq {ss : List (SealedShare S)} (h : m.Takes (.shares ss)) :
    m.receiveShares ss = { m with shares := m.shares.insertAll SealedShare.pair ss } := by
  rw [receiveShares, if_pos h.1, foldl_receiveShare, List.filter_eq_self.mpr h.2]

theorem foldl_receiveVerdict :
    ∀ (vs : List Verdict) (m : Mediator S),
      vs.foldl receiveVerdict m = { m with
        verdicts := m.verdicts.insertAll Verdict.pair (vs.filter fun v => m.admits v.pair) }
  | [], _ => rfl
  | v :: vs, m => by
    rw [List.foldl_cons, foldl_receiveVerdict vs, List.filter_cons]
    unfold receiveVerdict
    by_cases hv : m.admits v.pair = true
    · rw [if_pos hv, if_pos hv]
      rfl
    · rw [if_neg hv, if_neg hv]

theorem receiveVerdicts_eq {vs : List Verdict} (h : m.Takes (.verdicts vs)) :
    m.receiveVerdicts vs = { m with verdicts := m.verdicts.insertAll Verdict.pair vs } := by
  rw [receiveVerdicts, if_pos h.1, foldl_receiveVerdict, List.filter_eq_self.mpr h.2]

/-! ### Disclosures -/

theorem judge_good_iff {d : Disclosure S} :
    (m.judge d).good = true ↔
      Commitments.accepts d.commitments d.order d.value = true ∧
      (∃ k, m.electionKeys.get? d.owner = some k ∧ k.commitments = d.commitments) ∧
      ∃ k, m.electionKeys.get? d.recipient = some k ∧ k.order = d.order := by
  simp only [judge, Disclosure.judge, Disclosure.isGood, matchesAnnounced, Bool.and_eq_true,
    decide_eq_true_eq, Option.map_eq_some_iff]

/-- The verdict that replaces the one before when a disclosure is found good. -/
def upheld (m : Mediator S) (q : Pair) : Verdict := ⟨q.owner, q.recipient, m.id, true⟩

/-- The mediator after a disclosure that it has found good. -/
def uphold (m : Mediator S) (d : Disclosure S) : Mediator S :=
  { m with
    disclosures := m.disclosures.insert d.pair d
    verdicts := m.verdicts.insert d.pair (m.upheld d.pair) }

@[simp] theorem disclosures_uphold (m : Mediator S) (d : Disclosure S) :
    (m.uphold d).disclosures = m.disclosures.insert d.pair d := rfl

@[simp] theorem verdicts_uphold (m : Mediator S) (d : Disclosure S) :
    (m.uphold d).verdicts = m.verdicts.insert d.pair (m.upheld d.pair) := rfl

theorem receiveDisclosure_eq {d : Disclosure S} (hgood : (m.judge d).good = true)
    (ha : m.admits d.pair = true) : m.receiveDisclosure d = m.uphold d := by
  have hv : m.judge d = m.upheld d.pair := congrArg (Verdict.mk d.owner d.recipient m.id) hgood
  have hkeep : m.keepDisclosure d =
      { m with disclosures := m.disclosures.insert d.pair d } := if_pos ha
  rw [receiveDisclosure, if_pos hgood, hv, hkeep]
  exact if_pos ha

/-- A good disclosure clears its own pair and no other. -/
theorem mem_failed_uphold {d : Disclosure S} {q : Pair} :
    q ∈ (m.uphold d).failed ↔ q ≠ d.pair ∧ q ∈ m.failed := by
  simp only [mem_failed, verdicts_uphold, Ledger.get?_insert]
  by_cases heq : d.pair = q
  · simp [heq, upheld]
  · simp [heq, Ne.symm heq]

/-- One disclosure more by its owner, if there was none on its pair. -/
theorem countP_disclosures_uphold {d : Disclosure S} (h : d.pair ∉ m.disclosures.keys)
    (id : String) :
    ((m.uphold d).disclosures.keys.countP fun q => q.owner = id) =
      (m.disclosures.keys.countP fun q => q.owner = id) + if d.pair.owner = id then 1 else 0 := by
  rw [disclosures_uphold, Ledger.keys_insert, if_neg h, List.countP_append, List.countP_singleton]
  simp only [decide_eq_true_eq]

/-! ### What messages do not change -/

/-- What the mediator holds of announcements, without the messages of later rounds. -/
def foundation (m : Mediator S) : Mediator S :=
  { m with shares := .empty, verdicts := .empty, disclosures := .empty }

theorem foundation_foldl {α : Type} {f : Mediator S → α → Mediator S}
    (hf : ∀ m a, (f m a).foundation = m.foundation) :
    ∀ (as : List α) (m : Mediator S), (as.foldl f m).foundation = m.foundation
  | [], _ => rfl
  | a :: as, m => (foundation_foldl hf as (f m a)).trans (hf m a)

theorem foundation_receiveShares (m : Mediator S) (ss : List (SealedShare S)) :
    (m.receiveShares ss).foundation = m.foundation := by
  unfold receiveShares
  split_ifs
  · refine foundation_foldl (fun m s => ?_) ss m
    unfold receiveShare
    split_ifs <;> rfl
  · rfl

theorem foundation_receiveVerdict (m : Mediator S) (v : Verdict) :
    (m.receiveVerdict v).foundation = m.foundation := by
  unfold receiveVerdict
  split_ifs <;> rfl

theorem foundation_receiveVerdicts (m : Mediator S) (vs : List Verdict) :
    (m.receiveVerdicts vs).foundation = m.foundation := by
  unfold receiveVerdicts
  split_ifs
  · exact foundation_foldl foundation_receiveVerdict vs m
  · rfl

theorem foundation_receiveDisclosure (m : Mediator S) (d : Disclosure S) :
    (m.receiveDisclosure d).foundation = m.foundation := by
  have hkeep : (m.keepDisclosure d).foundation = m.foundation := by
    unfold keepDisclosure
    split_ifs <;> rfl
  unfold receiveDisclosure
  dsimp only
  split_ifs
  · rw [foundation_receiveVerdict, hkeep]
  · exact hkeep

/-- What the mediator was given before the ceremony. -/
def setting (m : Mediator S) : String × Terms := (m.id, m.terms)

theorem setting_of_foundation {m m' : Mediator S} (h : m'.foundation = m.foundation) :
    m'.setting = m.setting :=
  show m'.foundation.setting = m.foundation.setting by rw [h]

theorem setting_receiveShares (m : Mediator S) (ss : List (SealedShare S)) :
    (m.receiveShares ss).setting = m.setting :=
  setting_of_foundation (m.foundation_receiveShares ss)

theorem setting_receiveVerdicts (m : Mediator S) (vs : List Verdict) :
    (m.receiveVerdicts vs).setting = m.setting :=
  setting_of_foundation (m.foundation_receiveVerdicts vs)

theorem setting_receiveDisclosure (m : Mediator S) (d : Disclosure S) :
    (m.receiveDisclosure d).setting = m.setting :=
  setting_of_foundation (m.foundation_receiveDisclosure d)

/-! ### What guardians are given -/

theorem allAnnounced_of_roster {requester : Option String} {as : List (Announcement S)}
    (h : m.roster requester = some as) : m.allAnnounced = true := by
  unfold roster at h
  split_ifs at h with ha
  exact ha

theorem mem_roster {id : String} {as : List (Announcement S)}
    (h : m.roster (some id) = some as) {a : Announcement S} :
    a ∈ as ↔ ∃ owner, owner ≠ id ∧ m.electionKeys.get? owner = some a.election ∧
      m.transportKeys.get? owner = some a.transport := by
  unfold roster at h
  split_ifs at h
  cases h
  simp only [List.mem_filterMap, List.mem_filter, announcementOf?, Option.map_eq_some_iff,
    Ledger.get?_eq_some_iff, decide_eq_true_eq]
  constructor
  · rintro ⟨⟨owner, k⟩, ⟨he, hne⟩, t, ht, rfl⟩
    exact ⟨owner, fun e => hne (congrArg some e), he, ht⟩
  · rintro ⟨owner, hne, he, ht⟩
    exact ⟨(owner, a.election), ⟨he, fun e => hne (Option.some.inj e)⟩, a.transport, ht, rfl⟩

/-- No owner occurs twice among the announcements that a guardian is given. -/
theorem nodup_roster (hf : m.Filed) {id : String} {as : List (Announcement S)}
    (h : m.roster (some id) = some as) : (as.map Announcement.owner).Nodup := by
  have howners : m.electionKeys.entries.map (fun e => e.2.owner) = m.electionKeys.keys :=
    List.map_congr_left fun e he => hf.electionKeys e.1 e.2 (Ledger.get?_eq_some_iff.mpr he)
  have hnodup : m.electionKeys.entries.Pairwise fun e e' => e.2.owner ≠ e'.2.owner :=
    List.pairwise_map.mp (howners ▸ m.electionKeys.nodup_keys)
  unfold roster at h
  split_ifs at h
  cases h
  refine List.pairwise_map.mpr ((hnodup.filter _).filterMap _ fun e e' hne a ha a' ha' => ?_)
  obtain ⟨t, -, rfl⟩ := Option.map_eq_some_iff.mp ha
  obtain ⟨t', -, rfl⟩ := Option.map_eq_some_iff.mp ha'
  exact hne

theorem mem_sharesFor (hf : m.Filed) {id : String} {ss : List (SealedShare S)}
    (h : m.sharesFor (some id) = some ss) {s : SealedShare S} :
    s ∈ ss ↔ s.recipient = id ∧ m.shares.get? ⟨s.owner, id⟩ = some s := by
  unfold sharesFor at h
  split_ifs at h
  cases h
  simp only [List.mem_filterMap, List.mem_filter, decide_eq_true_eq]
  constructor
  · rintro ⟨owner, -, hs⟩
    have hpair := (hf.shares _ _ hs).1
    obtain rfl : s.owner = owner := congrArg Pair.owner hpair
    exact ⟨congrArg Pair.recipient hpair, hs⟩
  · rintro ⟨-, hs⟩
    obtain ⟨hne, howner, -⟩ := admits_iff.mp (hf.shares _ _ hs).2
    exact ⟨s.owner, ⟨howner, hne⟩, hs⟩

theorem nodup_sharesFor (hf : m.Filed) {id : String} {ss : List (SealedShare S)}
    (h : m.sharesFor (some id) = some ss) : (ss.map SealedShare.owner).Nodup := by
  unfold sharesFor at h
  split_ifs at h
  cases h
  refine List.pairwise_map.mpr (List.Pairwise.filterMap _ (fun o o' hne s hs s' hs' => ?_)
    (m.electionKeys.nodup_keys.filter _))
  have ho : s.owner = o := congrArg Pair.owner (hf.shares _ _ hs).1
  have ho' : s'.owner = o' := congrArg Pair.owner (hf.shares _ _ hs').1
  rwa [ho, ho']

end Guardianship.Mediator
