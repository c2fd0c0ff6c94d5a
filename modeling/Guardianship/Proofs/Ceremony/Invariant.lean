import Guardianship.Ceremony
import Guardianship.Proofs.Mediator.Receiving
import Guardianship.Proofs.Participant

/-!
# The invariant of a ceremony

Participants race around one mediator, whose gates drop what comes too early.  `Sound` says how far
they can be apart and what they have to do with each other all the time:

* nobody is in a round to which others have not yet contributed (`InStep`);
* the mediator holds what participants have told it and nothing else, except that a disclosure
  which was found good stands in place of a bad verdict (`Told`);
* everyone holds the messages of the rounds that lie behind it (`Participant.Sound`), knows which
  accusations it has to answer (`Participant.Answers`), and has kept count of what it has done
  (`Participant.Counted`).

From this the gates are open to whoever comes to them (`allAnnounced_of_ahead`,
`allSharesIn_of_ahead`, `allVerdictsIn_of_ahead`), and an open gate says in turn that the others
have contributed (`ahead_of_allAnnounced`, `ahead_of_allSharesIn`, `ahead_of_allVerdictsIn`).
-/

namespace Guardianship

variable {S : Suite}

/-- What a guardian has when the first round is over: the announcement of everyone, and a share for
everyone else. -/
structure Guardian.Prepared (crew : List (Guardian S)) (g : Guardian S) : Prop where
  known : ∀ h ∈ crew, g.known.get? h.id = some h.announcement
  mem_dealt : ∀ id, id ∈ g.dealt.keys ↔ id ≠ g.id ∧ ∃ h ∈ crew, h.id = id
  deals : ∀ h ∈ crew, ∀ s, g.dealt.get? h.id = some s → g.Deals h.announcement s

/-- What a participant holds, by how far it has come. -/
structure Participant.Sound (crew : List (Guardian S)) (m : Mediator S) (p : Participant S) :
    Prop where
  mem_crew : p.guardian.core ∈ crew
  takesPart : p.conduct.TakesPart
  working : ∀ e, p.task ≠ .failed e
  unprepared : 7 ≤ p.task.ahead →
    p.guardian.known.entries = [(p.guardian.id, p.guardian.announcement)]
  prepared : p.task.ahead < 7 → p.guardian.Prepared crew
  unread : 4 ≤ p.task.ahead → p.guardian.received.keys = []
  read : p.task.ahead < 4 → ∀ id s,
    p.guardian.received.get? id = some s ↔ m.shares.get? ⟨id, p.guardian.id⟩ = some s

/-- The accusations that a participant has not answered are the bad verdicts on its shares. -/
structure Participant.Answers (m : Mediator S) (p : Participant S) : Prop where
  nodup : p.pending.Nodup
  mem_pending : p.task.ahead < 2 →
    ∀ q, q ∈ p.pending ↔ q ∈ m.failed ∧ q.owner = p.guardian.id

/-- A participant has kept count of what it has done. -/
structure Participant.Counted (m : Mediator S) (p : Participant S) : Prop where
  guardian : p.outcome.guardian = p.guardian.id
  order : p.outcome.order = p.guardian.order
  sharesSent : p.task.ahead < 6 → p.outcome.sharesSent = p.guardian.dealt.size.toUInt64
  sharesReceived : p.task.ahead < 4 →
    p.outcome.sharesReceived = p.guardian.received.size.toUInt64
  sharesRefused : p.task.ahead < 3 →
    p.outcome.sharesRefused = (p.guardian.verdicts.countP fun v => !v.good).toUInt64
  disclosed : p.outcome.disclosed =
    (m.disclosures.keys.countP fun q => q.owner = p.guardian.id).toUInt64
  upheld : p.outcome.upheld = p.outcome.disclosed

/-! ### What participants have sent, pair by pair -/

theorem Guardian.Deals.fields {g : Guardian S} {h : Guardian S} {s : SealedShare S}
    (hs : g.Deals h.announcement s) :
    s.pair = ⟨g.id, h.id⟩ ∧ s.order = h.order ∧ s.commitments = g.polynomial.commitments := by
  obtain ⟨secret, hseal⟩ := hs
  obtain ⟨ho, hr, horder, hcommitments⟩ := SealedShare.fields_of_sealWith hseal
  refine ⟨?_, horder, hcommitments⟩
  rw [SealedShare.pair, ho, hr]
  rfl

theorem Guardian.Prepared.pair_of_dealt {crew : List (Guardian S)} {g : Guardian S}
    (h : g.Prepared crew) {id : String} {s : SealedShare S} (hs : g.dealt.get? id = some s) :
    s.pair = ⟨g.id, id⟩ := by
  obtain ⟨-, k, hk, rfl⟩ := (h.mem_dealt id).mp (Ledger.mem_keys_of_get? hs)
  exact (h.deals k hk s hs).fields.1

namespace Participant

theorem sentShares_of_le {p : Participant S} (ht : 6 ≤ p.task.ahead) : p.sentShares = [] :=
  if_neg (Nat.not_lt.mpr ht)

theorem sentVerdicts_of_le {p : Participant S} (ht : 3 ≤ p.task.ahead) : p.sentVerdicts = [] :=
  if_neg (Nat.not_lt.mpr ht)

theorem sentShares_congr {p p' : Participant S} (hd : p'.guardian.dealt = p.guardian.dealt)
    (hk : p'.conduct = p.conduct) (h6 : p'.task.ahead < 6 ↔ p.task.ahead < 6) :
    p'.sentShares = p.sentShares := by
  rw [sentShares, sentShares, hd, hk]
  exact if_congr h6 rfl rfl

theorem sentVerdicts_congr {p p' : Participant S} (hg : p'.guardian = p.guardian)
    (hk : p'.conduct = p.conduct) (h3 : p'.task.ahead < 3 ↔ p.task.ahead < 3) :
    p'.sentVerdicts = p.sentVerdicts := by
  rw [sentVerdicts, sentVerdicts, hg, hk]
  exact if_congr h3 rfl rfl

theorem ahead_of_sentShares {p : Participant S} {s : SealedShare S} (hs : s ∈ p.sentShares) :
    p.task.ahead < 6 := by
  by_contra ht
  rw [sentShares_of_le (Nat.not_lt.mp ht)] at hs
  cases hs

theorem ahead_of_sentVerdicts {p : Participant S} {v : Verdict} (hv : v ∈ p.sentVerdicts) :
    p.task.ahead < 3 := by
  by_contra ht
  rw [sentVerdicts_of_le (Nat.not_lt.mp ht)] at hv
  cases hv

namespace Sound

variable {crew : List (Guardian S)} {m : Mediator S} {p : Participant S}
  (h : p.Sound crew m)
include h

theorem map_pair_sentShares (ht : p.task.ahead < 6) :
    p.sentShares.map SealedShare.pair = p.guardian.dealt.keys.map (Pair.mk p.guardian.id) := by
  have hp := h.prepared (by omega)
  rw [sentShares, if_pos ht, List.map_map]
  refine Ledger.map_values_eq_map_keys fun id s hs => ?_
  rw [Function.comp_apply, h.takesPart.alter, hp.pair_of_dealt hs]

theorem map_pair_sentVerdicts (hf : m.Filed) (ht : p.task.ahead < 3) :
    p.sentVerdicts.map Verdict.pair =
      p.guardian.received.keys.map fun id => ⟨id, p.guardian.id⟩ := by
  rw [sentVerdicts, if_pos ht, List.map_map, Guardian.verdicts, List.map_map]
  refine Ledger.map_values_eq_map_keys fun id s hs => ?_
  rw [Function.comp_apply, Function.comp_apply, h.takesPart.report]
  exact (hf.shares _ _ ((h.read (by omega) id s).mp hs)).1

theorem nodup_sentShares : (p.sentShares.map SealedShare.pair).Nodup := by
  by_cases ht : p.task.ahead < 6
  · rw [h.map_pair_sentShares ht]
    exact p.guardian.dealt.nodup_keys.map fun a b hab => congrArg Pair.recipient hab
  · rw [sentShares_of_le (Nat.not_lt.mp ht)]
    exact List.nodup_nil

theorem nodup_sentVerdicts (hf : m.Filed) : (p.sentVerdicts.map Verdict.pair).Nodup := by
  by_cases ht : p.task.ahead < 3
  · rw [h.map_pair_sentVerdicts hf ht]
    exact p.guardian.received.nodup_keys.map fun a b hab => congrArg Pair.owner hab
  · rw [sentVerdicts_of_le (Nat.not_lt.mp ht)]
    exact List.nodup_nil

/-- It has sent shares to everyone else, or none. -/
theorem exists_sentShare_iff {q : Pair} :
    (∃ s ∈ p.sentShares, s.pair = q) ↔
      p.task.ahead < 6 ∧ q.owner = p.guardian.id ∧ q.recipient ≠ p.guardian.id ∧
        ∃ g ∈ crew, g.id = q.recipient := by
  obtain ⟨o, r⟩ := q
  by_cases ht : p.task.ahead < 6
  · have hp := h.prepared (by omega)
    rw [← List.mem_map, h.map_pair_sentShares ht, List.mem_map, and_iff_right ht]
    simp only [hp.mem_dealt, Pair.mk.injEq]
    constructor
    · rintro ⟨id, hid, rfl, rfl⟩
      exact ⟨rfl, hid⟩
    · rintro ⟨rfl, hid⟩
      exact ⟨r, hid, rfl, rfl⟩
  · rw [sentShares_of_le (Nat.not_lt.mp ht)]
    simp [ht]

/-- It has sent a verdict on every share that it has received, or none. -/
theorem exists_sentVerdict_iff (hf : m.Filed) {q : Pair} :
    (∃ v ∈ p.sentVerdicts, v.pair = q) ↔
      p.task.ahead < 3 ∧ q.recipient = p.guardian.id ∧ q ∈ m.shares.keys := by
  obtain ⟨o, r⟩ := q
  by_cases ht : p.task.ahead < 3
  · rw [← List.mem_map, h.map_pair_sentVerdicts hf ht, List.mem_map, and_iff_right ht]
    simp only [Ledger.mem_keys, h.read (by omega), Pair.mk.injEq]
    constructor
    · rintro ⟨id, hid, rfl, rfl⟩
      exact ⟨rfl, hid⟩
    · rintro ⟨rfl, hid⟩
      exact ⟨o, hid, rfl, rfl⟩
  · rw [sentVerdicts_of_le (Nat.not_lt.mp ht)]
    simp [ht]

end Sound

end Participant

namespace Ceremony

/-- Who has fewer than so many tasks ahead is at most one behind. -/
def InStep (n : ℕ) (ps : List (Participant S)) : Prop :=
  ∀ p ∈ ps, p.task.ahead < n → ∀ q ∈ ps, q.task.ahead < n + 1

/-- The keys are those of everyone who has announced. -/
structure ToldKeys (m : Mediator S) (ps : List (Participant S)) : Prop where
  electionKeys : ∀ id k, m.electionKeys.get? id = some k ↔
    ∃ p ∈ ps, p.task.ahead < 8 ∧ p.guardian.id = id ∧ p.guardian.announcement.election = k
  transportKeys : ∀ id k, m.transportKeys.get? id = some k ↔
    ∃ p ∈ ps, p.task.ahead < 8 ∧ p.guardian.id = id ∧ p.guardian.announcement.transport = k

/-- The shares are those that participants have sent. -/
structure ToldShares (m : Mediator S) (ps : List (Participant S)) : Prop where
  shares : ∀ q s, m.shares.get? q = some s ↔ s.pair = q ∧ ∃ p ∈ ps, s ∈ p.sentShares

/-- The verdicts are those that participants have sent, or good ones where a share was disclosed
on which a bad one had been sent. -/
structure ToldVerdicts (m : Mediator S) (ps : List (Participant S)) : Prop where
  verdicts : ∀ q, q ∈ m.verdicts.keys ↔ ∃ p ∈ ps, ∃ v ∈ p.sentVerdicts, v.pair = q
  standing : ∀ q v, m.verdicts.get? q = some v → q ∉ m.disclosures.keys →
    ∃ p ∈ ps, v ∈ p.sentVerdicts
  upheld : ∀ q ∈ m.disclosures.keys, m.verdicts.get? q = some (m.upheld q)
  disclosed : ∀ q ∈ m.disclosures.keys, ∃ p ∈ ps, ∃ v ∈ p.sentVerdicts, v.pair = q ∧
    v.good = false

/-- What the mediator holds is what participants have told it. -/
structure Told (m : Mediator S) (ps : List (Participant S)) : Prop extends
  ToldKeys m ps, ToldShares m ps, ToldVerdicts m ps

/-- **The invariant**, for guardians with different names, as many as the terms say. -/
structure Sound (crew : List (Guardian S)) (m : Mediator S) (ps : List (Participant S)) :
    Prop where
  filed : m.Filed
  perm_crew : (ps.map fun p => p.guardian.core).Perm crew
  nodup_crew : (crew.map Guardian.id).Nodup
  length_crew : crew.length = m.expected
  few : m.expected ≤ 2 ^ 32
  roster : InStep 7 ps
  shares : InStep 5 ps
  verdicts : InStep 2 ps
  told : Told m ps
  each : ∀ p ∈ ps, p.Sound crew m
  answers : ∀ p ∈ ps, p.Answers m
  counted : ∀ p ∈ ps, p.Counted m

/-! ### Who takes part -/

namespace Sound

variable {crew : List (Guardian S)} {m : Mediator S} {ps : List (Participant S)}
  (h : Sound crew m ps)
include h

theorem mem_crew {g : Guardian S} : g ∈ crew ↔ ∃ p ∈ ps, p.guardian.core = g := by
  rw [← h.perm_crew.mem_iff, List.mem_map]

theorem perm_ids : (ps.map fun p => p.guardian.id).Perm (crew.map Guardian.id) := by
  have hmap := h.perm_crew.map Guardian.id
  rwa [List.map_map] at hmap

theorem nodup_ids : (ps.map fun p => p.guardian.id).Nodup :=
  h.perm_ids.nodup_iff.mpr h.nodup_crew

theorem eq_of_id {p q : Participant S} (hp : p ∈ ps) (hq : q ∈ ps)
    (heq : p.guardian.id = q.guardian.id) : p = q :=
  List.inj_on_of_nodup_map h.nodup_ids hp hq heq

theorem card_ids : (ps.map fun p => p.guardian.id).toFinset.card = m.expected := by
  rw [List.toFinset_card_of_nodup h.nodup_ids, List.length_map, ← h.length_crew,
    ← h.perm_crew.length_eq, List.length_map]

/-- There is one entry for everyone else. -/
theorem size_of_mem_keys {ν : Type} {l : Ledger String ν} {p : Participant S} (hp : p ∈ ps)
    (hl : ∀ id, id ∈ l.keys ↔ id ≠ p.guardian.id ∧ ∃ q ∈ ps, q.guardian.id = id) :
    l.size + 1 = m.expected := by
  have hmem : p.guardian.id ∈ (ps.map fun p => p.guardian.id).toFinset :=
    List.mem_toFinset.mpr (List.mem_map_of_mem hp)
  have hkeys : l.keys.toFinset =
      (ps.map fun p => p.guardian.id).toFinset.erase p.guardian.id := by
    ext id
    rw [List.mem_toFinset, hl, Finset.mem_erase, List.mem_toFinset, List.mem_map]
  rw [← Ledger.card_keys, hkeys, Finset.card_erase_add_one hmem, h.card_ids]

/-! ### The first gate -/

theorem mem_announcers {id : String} :
    id ∈ m.announcers ↔ ∃ p ∈ ps, p.task.ahead < 8 ∧ p.guardian.id = id := by
  simp only [Mediator.mem_announcers, Ledger.mem_keys, h.told.electionKeys]
  constructor
  · rintro ⟨k, p, hp, ht, rfl, -⟩
    exact ⟨p, hp, ht, rfl⟩
  · rintro ⟨p, hp, ht, rfl⟩
    exact ⟨_, p, hp, ht, rfl, rfl⟩

theorem announcers_eq_carriers : m.announcers = m.carriers := by
  ext id
  simp only [h.mem_announcers, Mediator.mem_carriers, Ledger.mem_keys, h.told.transportKeys]
  constructor
  · rintro ⟨p, hp, ht, rfl⟩
    exact ⟨_, p, hp, ht, rfl, rfl⟩
  · rintro ⟨k, p, hp, ht, rfl, -⟩
    exact ⟨p, hp, ht, rfl⟩

theorem announcers_subset : m.announcers ⊆ (ps.map fun p => p.guardian.id).toFinset := by
  intro id hid
  obtain ⟨p, hp, -, rfl⟩ := h.mem_announcers.mp hid
  exact List.mem_toFinset.mpr (List.mem_map_of_mem hp)

theorem ahead_of_allAnnounced (ha : m.allAnnounced = true) : ∀ p ∈ ps, p.task.ahead < 8 := by
  intro p hp
  have hall := Finset.eq_of_subset_of_card_le h.announcers_subset
    (by rw [h.card_ids, (Mediator.allAnnounced_iff.mp ha).card_announcers])
  have hid : p.guardian.id ∈ m.announcers := by
    rw [hall]
    exact List.mem_toFinset.mpr (List.mem_map_of_mem hp)
  obtain ⟨q, hq, ht, heq⟩ := h.mem_announcers.mp hid
  rwa [← h.eq_of_id hq hp heq]

theorem announcers_of_ahead (ha : ∀ p ∈ ps, p.task.ahead < 8) :
    m.announcers = (ps.map fun p => p.guardian.id).toFinset := by
  refine h.announcers_subset.antisymm fun id hid => ?_
  obtain ⟨p, hp, rfl⟩ := List.mem_map.mp (List.mem_toFinset.mp hid)
  exact h.mem_announcers.mpr ⟨p, hp, ha p hp, rfl⟩

theorem everyoneAnnounced (ha : ∀ p ∈ ps, p.task.ahead < 8) : m.EveryoneAnnounced := by
  have hcard : m.announcers.card = m.expected := by rw [h.announcers_of_ahead ha, h.card_ids]
  exact ⟨hcard, h.announcers_eq_carriers ▸ hcard, h.announcers_eq_carriers⟩

theorem allAnnounced_of_ahead (ha : ∀ p ∈ ps, p.task.ahead < 8) : m.allAnnounced = true :=
  Mediator.allAnnounced_iff.mpr (h.everyoneAnnounced ha)

/-! ### The second gate -/

/-- There is a share for a pair exactly if its owner has sent shares. -/
theorem mem_keys_shares {q : Pair} :
    q ∈ m.shares.keys ↔ q.owner ≠ q.recipient ∧
      (∃ p ∈ ps, p.guardian.id = q.owner ∧ p.task.ahead < 6) ∧
      ∃ p ∈ ps, p.guardian.id = q.recipient := by
  have hcrew : (∃ g ∈ crew, g.id = q.recipient) ↔ ∃ p ∈ ps, p.guardian.id = q.recipient := by
    simp only [h.mem_crew]
    constructor
    · rintro ⟨g, ⟨p, hp, rfl⟩, hid⟩
      exact ⟨p, hp, hid⟩
    · rintro ⟨p, hp, hid⟩
      exact ⟨_, ⟨p, hp, rfl⟩, hid⟩
  have hsent : q ∈ m.shares.keys ↔ ∃ p ∈ ps, ∃ s ∈ p.sentShares, s.pair = q := by
    simp only [Ledger.mem_keys, h.told.shares]
    constructor
    · rintro ⟨s, hpair, p, hp, hs⟩
      exact ⟨p, hp, s, hs, hpair⟩
    · rintro ⟨p, hp, s, hs, hpair⟩
      exact ⟨s, hpair, p, hp, hs⟩
  rw [hsent, ← hcrew]
  constructor
  · rintro ⟨p, hp, hs⟩
    obtain ⟨ht, ho, hne, hr⟩ := (h.each p hp).exists_sentShare_iff.mp hs
    exact ⟨ho ▸ hne.symm, ⟨p, hp, ho.symm, ht⟩, hr⟩
  · rintro ⟨hne, ⟨p, hp, ho, ht⟩, hr⟩
    exact ⟨p, hp, (h.each p hp).exists_sentShare_iff.mpr ⟨ht, ho.symm, ho ▸ hne.symm, hr⟩⟩

/-- A guardian has dealt one share to everyone else. -/
theorem size_dealt {p : Participant S} (hp : p ∈ ps) (ht : p.task.ahead < 7) :
    p.guardian.dealt.size + 1 = m.expected := by
  refine h.size_of_mem_keys hp fun id => ?_
  rw [((h.each p hp).prepared ht).mem_dealt id]
  refine and_congr_right fun _ => ?_
  simp only [h.mem_crew]
  constructor
  · rintro ⟨g, ⟨q, hq, rfl⟩, hid⟩
    exact ⟨q, hq, hid⟩
  · rintro ⟨q, hq, hid⟩
    exact ⟨_, ⟨q, hq, rfl⟩, hid⟩

/-- A guardian has received one share from everyone else. -/
theorem size_received {p : Participant S} (hp : p ∈ ps) (ht : p.task.ahead < 4) :
    p.guardian.received.size + 1 = m.expected := by
  refine h.size_of_mem_keys hp fun id => ?_
  simp only [Ledger.mem_keys, (h.each p hp).read ht]
  rw [← Ledger.mem_keys, h.mem_keys_shares]
  refine and_congr_right fun _ => ?_
  constructor
  · rintro ⟨⟨q, hq, hid, -⟩, -⟩
    exact ⟨q, hq, hid⟩
  · rintro ⟨q, hq, hid⟩
    exact ⟨⟨q, hq, hid, h.shares p hp (by omega) q hq⟩, p, hp, rfl⟩

theorem sharesCover (ha : ∀ p ∈ ps, p.task.ahead < 6) : m.SharesCover := by
  intro o ho r hr hne
  obtain ⟨p, hp, -, rfl⟩ := h.mem_announcers.mp ho
  obtain ⟨q, hq, -, rfl⟩ := h.mem_announcers.mp hr
  have hkey : ⟨p.guardian.id, q.guardian.id⟩ ∈ m.shares.keys :=
    h.mem_keys_shares.mpr ⟨hne, ⟨p, hp, rfl, ha p hp⟩, q, hq, rfl⟩
  obtain ⟨s, hs⟩ := Ledger.mem_keys.mp hkey
  have hpair := (h.filed.shares _ _ hs).1
  exact ⟨s, hs, congrArg Pair.owner hpair, congrArg Pair.recipient hpair⟩

theorem allSharesIn_of_ahead (ha : ∀ p ∈ ps, p.task.ahead < 6) : m.allSharesIn = true :=
  (Mediator.allSharesIn_iff h.filed h.few).mpr
    ⟨h.everyoneAnnounced fun p hp => (ha p hp).trans (by decide), h.sharesCover ha⟩

theorem ahead_of_allSharesIn (hm : m.allSharesIn = true) {p q : Participant S} (hp : p ∈ ps)
    (hq : q ∈ ps) (hne : p.guardian.id ≠ q.guardian.id) : p.task.ahead < 6 := by
  obtain ⟨ha, hs⟩ := (Mediator.allSharesIn_iff h.filed h.few).mp hm
  have hall := h.ahead_of_allAnnounced (Mediator.allAnnounced_iff.mpr ha)
  obtain ⟨s, hget, -⟩ := hs _ (h.mem_announcers.mpr ⟨p, hp, hall p hp, rfl⟩) _
    (h.mem_announcers.mpr ⟨q, hq, hall q hq, rfl⟩) hne
  obtain ⟨-, ⟨p', hp', hid, ht⟩, -⟩ := h.mem_keys_shares.mp (Ledger.mem_keys_of_get? hget)
  rwa [← h.eq_of_id hp' hp hid]

/-! ### The third gate -/

/-- There is a verdict on a pair exactly if its recipient has sent verdicts. -/
theorem mem_keys_verdicts {q : Pair} :
    q ∈ m.verdicts.keys ↔ q.owner ≠ q.recipient ∧
      (∃ p ∈ ps, p.guardian.id = q.owner) ∧
      ∃ p ∈ ps, p.guardian.id = q.recipient ∧ p.task.ahead < 3 := by
  rw [h.told.verdicts]
  constructor
  · rintro ⟨p, hp, hv⟩
    obtain ⟨ht, hr, hq⟩ := ((h.each p hp).exists_sentVerdict_iff h.filed).mp hv
    obtain ⟨hne, ⟨o, ho, hid, -⟩, -⟩ := h.mem_keys_shares.mp hq
    exact ⟨hne, ⟨o, ho, hid⟩, p, hp, hr.symm, ht⟩
  · rintro ⟨hne, ⟨o, ho, hid⟩, p, hp, hr, ht⟩
    -- whoever judges shares has seen all of them in
    have hsent := h.shares p hp (by omega) o ho
    exact ⟨p, hp, ((h.each p hp).exists_sentVerdict_iff h.filed).mpr
      ⟨ht, hr.symm, h.mem_keys_shares.mpr ⟨hne, ⟨o, ho, hid, hsent⟩, p, hp, hr⟩⟩⟩

/-- A verdict stands as it was sent unless the share was disclosed: the recipient sends one verdict
on it, and nobody else sends any. -/
theorem get?_verdict {p : Participant S} (hp : p ∈ ps) {v : Verdict} (hv : v ∈ p.sentVerdicts)
    (hnot : v.pair ∉ m.disclosures.keys) : m.verdicts.get? v.pair = some v := by
  obtain ⟨w, hget⟩ := Ledger.mem_keys.mp ((h.told.verdicts v.pair).mpr ⟨p, hp, v, hv, rfl⟩)
  obtain ⟨q, hq, hw⟩ := h.told.standing _ w hget hnot
  have hpair : w.pair = v.pair := (h.filed.verdicts _ w hget).1
  have hrecipient : ∀ r ∈ ps, ∀ u ∈ r.sentVerdicts, u.pair.recipient = r.guardian.id :=
    fun r hr u hu => (((h.each r hr).exists_sentVerdict_iff h.filed).mp ⟨u, hu, rfl⟩).2.1
  have hid : q.guardian.id = p.guardian.id := by
    rw [← hrecipient q hq w hw, hpair, hrecipient p hp v hv]
  obtain rfl := h.eq_of_id hq hp hid
  obtain rfl := List.inj_on_of_nodup_map ((h.each q hp).nodup_sentVerdicts h.filed) hw hv hpair
  exact hget

theorem allVerdictsIn_of_ahead (ha : ∀ p ∈ ps, p.task.ahead < 3) : m.allVerdictsIn = true := by
  have ha' : ∀ p ∈ ps, p.task.ahead < 6 := fun p hp => (ha p hp).trans (by decide)
  refine (Mediator.allVerdictsIn_iff h.filed h.few).mpr
    ⟨h.everyoneAnnounced fun p hp => (ha p hp).trans (by decide), h.sharesCover ha',
      (Mediator.verdictsCover_iff h.filed).mpr fun q hq => ?_⟩
  obtain ⟨hne, ho, hr⟩ := Mediator.admits_iff.mp (Mediator.mem_pairs.mp hq)
  obtain ⟨p, hp, -, hpid⟩ := h.mem_announcers.mp (Mediator.mem_announcers.mpr ho)
  obtain ⟨r, hr, -, hrid⟩ := h.mem_announcers.mp (Mediator.mem_announcers.mpr hr)
  obtain ⟨v, hv⟩ := Ledger.mem_keys.mp
    (h.mem_keys_verdicts.mpr ⟨hne, ⟨p, hp, hpid⟩, r, hr, hrid, ha r hr⟩)
  exact ⟨v, hv, trivial⟩

theorem ahead_of_allVerdictsIn (hm : m.allVerdictsIn = true) {p q : Participant S} (hp : p ∈ ps)
    (hq : q ∈ ps) (hne : p.guardian.id ≠ q.guardian.id) : q.task.ahead < 3 := by
  obtain ⟨ha, -, hv⟩ := (Mediator.allVerdictsIn_iff h.filed h.few).mp hm
  have hall := h.ahead_of_allAnnounced (Mediator.allAnnounced_iff.mpr ha)
  obtain ⟨v, hget, -⟩ := hv _ (h.mem_announcers.mpr ⟨p, hp, hall p hp, rfl⟩) _
    (h.mem_announcers.mpr ⟨q, hq, hall q hq, rfl⟩) hne
  obtain ⟨-, -, q', hq', hid, ht⟩ := h.mem_keys_verdicts.mp (Ledger.mem_keys_of_get? hget)
  rwa [← h.eq_of_id hq' hq hid]

end Sound

end Ceremony

end Guardianship
