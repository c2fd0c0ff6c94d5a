import Guardianship.Proofs.Ceremony.Preservation
import Mathlib.Logic.Hydra

/-!
# How a ceremony ends

Whoever is furthest behind can go on (`exists_step`), so a ceremony does not come to a stop before
everyone has finished; and it cannot go on for ever, in whatever order steps are taken
(`wellFounded_step`), so it comes to its end (`exists_over`).  Then no bad verdict is left, so the
mediator is at its last stage (`stage_eq`) and the joint key is the commitment to the sum of all
secrets (`exists_jointKey`); and there have been as many disclosures as bad verdicts
(`size_disclosures`).
-/

namespace Guardianship.Ceremony

open Participant
open scoped Fin.CommRing

variable {S : Suite} {crew : List (Guardian S)} {m : Mediator S} {ps : List (Participant S)}

/-! ### Nobody waits for ever -/

namespace Sound

/-- Nobody has to wait who has as many tasks ahead as anyone. -/
theorem exists_act (h : Sound crew m ps) {p : Participant S} (hp : p ∈ ps)
    (hmax : ∀ q ∈ ps, q.task.ahead ≤ p.task.ahead) (hnot : p.task ≠ .finished) {ρ : Type}
    [RandomSource ρ] : ∃ x : StateM ρ (Move S), p.act m = some x := by
  have hall : ∀ n, p.task.ahead < n → ∀ q ∈ ps, q.task.ahead < n := fun n hn q hq =>
    (hmax q hq).trans_lt hn
  unfold Participant.act
  cases ht : p.task with
  | awaitRoster =>
    have ha := h.allAnnounced_of_ahead (hall 8 (by rw [ht]; decide))
    unfold Mediator.roster
    rw [if_pos ha]
    exact ⟨_, rfl⟩
  | awaitShares => exact ⟨_, if_pos (h.allSharesIn_of_ahead (hall 6 (by rw [ht]; decide)))⟩
  | awaitVerdicts =>
    exact ⟨_, if_pos (Mediator.allSent_iff.mpr
      (h.allVerdictsIn_of_ahead (hall 3 (by rw [ht]; decide))))⟩
  | answer accusations => cases accusations <;> exact ⟨_, rfl⟩
  | finished => exact absurd ht hnot
  | failed e => exact absurd ht ((h.each p hp).working e)
  | _ => exact ⟨_, rfl⟩

theorem finished_of_ahead (h : Sound crew m ps) {p : Participant S} (hp : p ∈ ps)
    (ht : p.task.ahead = 0) : p.task = .finished := by
  have hworking := (h.each p hp).working
  cases htask : p.task with
  | finished => rfl
  | failed e => exact absurd htask (hworking e)
  | _ => rw [htask] at ht; cases ht

end Sound

theorem isOver_iff {c : Ceremony S} :
    c.isOver = true ↔ ∀ p ∈ c.participants, p.task = .finished := by
  simp only [isOver, List.all_eq_true, decide_eq_true_eq]

/-- **No deadlock**: as long as somebody has not finished, somebody can take a step. -/
theorem exists_step {c : Ceremony S} (h : Sound crew c.mediator c.participants)
    (hover : c.isOver ≠ true) : ∃ d, Step c d := by
  rw [Ne, isOver_iff] at hover
  push Not at hover
  obtain ⟨p₀, hp₀, hnot₀⟩ := hover
  obtain ⟨p, hp, hmax⟩ := Set.exists_max_image {p | p ∈ c.participants}
    (fun p => p.task.ahead) (List.finite_toSet _) ⟨p₀, hp₀⟩
  have hnot : p.task ≠ .finished := fun ht => by
    refine hnot₀ (h.finished_of_ahead hp₀ (Nat.le_zero.mp ?_))
    have := hmax p₀ hp₀
    rwa [ht] at this
  obtain ⟨x, hx⟩ := h.exists_act (ρ := SplitMix) hp hmax hnot
  rw [← step_eq_act (h.each p hp).takesPart] at hx
  obtain ⟨m, ps⟩ := c
  obtain ⟨before, after, rfl⟩ := List.append_of_mem hp
  exact ⟨_, Step.take hx ⟨0⟩⟩

/-! ### Nobody goes on for ever -/

theorem wellFounded_nearer : WellFounded (Nearer : Participant S → Participant S → Prop) :=
  InvImage.wf (fun p : Participant S => (p.task.ahead, p.task.unanswered))
    (WellFounded.prod_lex Nat.lt_wfRel.wf Nat.lt_wfRel.wf)

theorem cutExpand_nearer {p q : Participant S} (h : q.Nearer p)
    (before after : List (Participant S)) :
    Relation.CutExpand Nearer (Multiset.ofList (before ++ q :: after))
      (Multiset.ofList (before ++ p :: after)) := by
  rw [← Multiset.coe_add, ← Multiset.coe_add, Relation.cutExpand_add_left, ← Multiset.cons_coe,
    ← Multiset.cons_coe, ← Multiset.singleton_add, ← Multiset.singleton_add]
  exact Relation.cutExpand_single_add h _

/-- **No run is infinite**: a step brings one participant nearer to its end and leaves the others
where they are. -/
theorem wellFounded_step : WellFounded fun d c : Ceremony S => Step c d := by
  refine Subrelation.wf (fun {d c} hs => ?_)
    (InvImage.wf (fun c : Ceremony S => (c.participants : Multiset (Participant S)))
      wellFounded_nearer.cutExpand)
  cases hs with
  | take taken r => exact cutExpand_nearer (step_nearer taken r) _ _

/-- A ceremony that never comes to a stop before everyone has finished comes to its end. -/
theorem exists_over {c : Ceremony S}
    (h : ∀ d, Reachable c d → d.isOver ≠ true → ∃ e, Step d e) :
    ∃ d, Reachable c d ∧ d.isOver = true := by
  induction c using wellFounded_step.induction with
  | _ c ih =>
    by_cases hover : c.isOver = true
    · exact ⟨c, .refl, hover⟩
    · obtain ⟨d, hd⟩ := h c .refl hover
      have hcd : Reachable c d := Reachable.refl.step hd
      obtain ⟨e, he, hover⟩ := ih d hd fun e he => h e (hcd.trans he)
      exact ⟨e, hcd.trans he, hover⟩

/-! ### When everyone has finished -/

/-- What the mediator has of the keys when all have announced. -/
theorem Sound.perm_values (h : Sound crew m ps) (ha : ∀ p ∈ ps, p.task.ahead < 8) :
    m.electionKeys.values.Perm (crew.map fun g => g.announcement.election) := by
  have howners : m.electionKeys.values.map ElectionKey.owner = m.electionKeys.keys := by
    rw [Ledger.map_values_eq_map_keys (g := id) h.filed.electionKeys, List.map_id]
  have hleft : m.electionKeys.values.Nodup :=
    List.Nodup.of_map ElectionKey.owner (howners ▸ m.electionKeys.nodup_keys)
  have hright : (crew.map fun g => g.announcement.election).Nodup := by
    refine List.Nodup.of_map ElectionKey.owner ?_
    rw [List.map_map]
    exact h.nodup_crew
  refine (List.perm_ext_iff_of_nodup hleft hright).mpr fun k => ?_
  simp only [Ledger.mem_values, h.told.electionKeys, List.mem_map, h.mem_crew]
  constructor
  · rintro ⟨id, p, hp, -, -, rfl⟩
    exact ⟨_, ⟨p, hp, rfl⟩, rfl⟩
  · rintro ⟨g, ⟨p, hp, rfl⟩, rfl⟩
    exact ⟨_, p, hp, ha p hp, rfl, rfl⟩

theorem ahead_of_over (hover : ∀ p ∈ ps, p.task = .finished) {n : ℕ} (hn : 0 < n) :
    ∀ p ∈ ps, p.task.ahead < n := fun p hp => by
  rw [hover p hp]
  exact hn

section Over

variable (h : Sound crew m ps) (hover : ∀ p ∈ ps, p.task = .finished)
include h hover

/-- The owner of a bad verdict would not have finished. -/
theorem failed_eq_nil : m.failed = [] := by
  refine List.eq_nil_iff_forall_not_mem.mpr fun q hq => ?_
  obtain ⟨v, hget, -⟩ := Mediator.mem_failed.mp hq
  obtain ⟨-, ⟨p, hp, hid⟩, -⟩ := h.mem_keys_verdicts.mp (Ledger.mem_keys_of_get? hget)
  have hmem := ((h.answers p hp).mem_pending (ahead_of_over hover (by decide) p hp) q).mpr
    ⟨hq, hid.symm⟩
  unfold pending at hmem
  rw [hover p hp] at hmem
  cases hmem

theorem summary_eq : m.summary = ⟨true, true, []⟩ := by
  unfold Mediator.summary
  rw [if_pos (h.allVerdictsIn_of_ahead (ahead_of_over hover (by decide))),
    failed_eq_nil h hover]
  rfl

theorem allGood_of_over : m.allGood = true := by
  unfold Mediator.allGood
  rw [summary_eq h hover]

theorem stage_eq : m.stage = .verified :=
  Mediator.stage_eq_verified_iff.mpr (allGood_of_over h hover)

/-- The joint key commits to the sum of all secrets. -/
theorem exists_jointKey (hS : S.Lawful) :
    ∃ k, m.jointKey? = some k ∧ k.key = S.commit (crew.map fun g => g.polynomial.secret).sum := by
  refine ⟨JointKey.combine m.electionKeys.values, if_pos (allGood_of_over h hover), ?_⟩
  have hperm := (h.perm_values (ahead_of_over hover (by decide))).map ElectionKey.key
  calc S.sum (m.electionKeys.values.map ElectionKey.key)
      = S.sum ((crew.map fun g => g.announcement.election).map ElectionKey.key) :=
        hS.sum_perm hperm
    _ = S.sum ((crew.map fun g => g.polynomial.secret).map S.commit) := by
        rw [List.map_map, List.map_map]
        congr 1
        exact List.map_congr_left fun g _ => g.polynomial.publicKey_eq_commit_secret
    _ = S.commit (crew.map fun g => g.polynomial.secret).sum := hS.sum_commit _

/-- Exactly the shares have been disclosed on which a bad verdict was sent. -/
theorem mem_disclosures {q : Pair} :
    q ∈ m.disclosures.keys ↔ ∃ p ∈ ps, ∃ v ∈ p.sentVerdicts, v.pair = q ∧ v.good = false := by
  refine ⟨h.told.disclosed q, ?_⟩
  rintro ⟨p, hp, v, hv, rfl, hbad⟩
  by_contra hnot
  have hfailed : v.pair ∈ m.failed :=
    Mediator.mem_failed.mpr ⟨v, h.get?_verdict hp hv hnot, hbad⟩
  rw [failed_eq_nil h hover] at hfailed
  cases hfailed

theorem size_disclosures :
    m.disclosures.size = (ps.map fun p => p.sentVerdicts.countP fun v => !v.good).sum := by
  let bad := fun p : Participant S =>
    (p.sentVerdicts.filter fun v => !v.good).map Verdict.pair
  have hnodup : (ps.flatMap bad).Nodup := by
    refine List.nodup_flatMap.mpr ⟨fun p hp => ?_, ?_⟩
    · exact (List.filter_sublist.map _).nodup ((h.each p hp).nodup_sentVerdicts h.filed)
    · -- the recipient of a verdict is the one who sends it
      refine (List.pairwise_map.mp h.nodup_ids).imp_of_mem fun {p p'} hp hp' hne => ?_
      intro q hq hq'
      have hrecipient : ∀ r ∈ ps, q ∈ bad r → q.recipient = r.guardian.id := fun r hr hmem => by
        obtain ⟨v, hv, hpair⟩ := List.mem_map.mp hmem
        exact (((h.each r hr).exists_sentVerdict_iff h.filed).mp
          ⟨v, (List.mem_filter.mp hv).1, hpair⟩).2.1
      exact hne ((hrecipient p hp hq).symm.trans (hrecipient p' hp' hq'))
  have hperm : m.disclosures.keys.Perm (ps.flatMap bad) := by
    refine (List.perm_ext_iff_of_nodup m.disclosures.nodup_keys hnodup).mpr fun q => ?_
    rw [mem_disclosures h hover, List.mem_flatMap]
    refine exists_congr fun p => and_congr_right fun _ => ?_
    simp only [bad, List.mem_map, List.mem_filter, Bool.not_eq_true']
    exact exists_congr fun v => by rw [and_assoc, and_comm (a := v.pair = q)]
  rw [← Ledger.length_keys, hperm.length_eq, List.length_flatMap]
  simp only [bad, List.length_map, ← List.countP_eq_length_filter]

end Over

end Guardianship.Ceremony
