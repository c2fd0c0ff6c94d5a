import Guardianship.Proofs.Ceremony.Ending
import Guardianship.Proofs.Ceremony.Roster
import Guardianship.Proofs.Suite.Exponents

/-!
# Honest ceremonies

When all guardians are honest, every share is found good by the one to whom it was dealt
(`Sound.good_of_honest`), so nobody is ever accused.  A ceremony that is held by its settings
completes correctly, in whatever order its guardians take their steps
(`honest_ceremony_completes`).
-/

namespace Guardianship.Ceremony

open Participant
open scoped Fin.CommRing

variable {S : Suite} {crew : List (Guardian S)} {m : Mediator S} {ps : List (Participant S)}

/-! ### Nobody is accused -/

section Honest

variable (hS : S.Lawful) (hA : S.Agrees) (h : Sound crew m ps)
  (hhonest : ∀ p ∈ ps, p.conduct = .honest)
include hS hA h hhonest

/-- A guardian finds every share good that was dealt to it. -/
theorem Sound.good_of_honest {p : Participant S} (hp : p ∈ ps) (ht : p.task.ahead < 4) :
    ∀ v ∈ p.guardian.verdicts, v.good = true := by
  intro v hv
  obtain ⟨s, hs, rfl⟩ := List.mem_map.mp hv
  obtain ⟨id, hid⟩ := Ledger.mem_values.mp hs
  have hshare := ((h.each p hp).read ht id s).mp hid
  obtain ⟨hpair, q, hq, hsent⟩ := (h.told.shares _ _).mp hshare
  have hqt := ahead_of_sentShares hsent
  -- an honest owner sends what it has dealt
  rw [sentShares, if_pos hqt, hhonest q hq] at hsent
  obtain ⟨s, hdealt, rfl⟩ := List.mem_map.mp hsent
  obtain ⟨id', hget⟩ := Ledger.mem_values.mp hdealt
  have hprepared := (h.each q hq).prepared (by omega)
  obtain ⟨howner, hrecipient⟩ := Pair.mk.inj ((hprepared.pair_of_dealt hget).symm.trans hpair)
  subst hrecipient
  have hdeals := hprepared.deals _ (h.each p hp).mem_crew s hget
  obtain ⟨-, horder, hcommitments⟩ := hdeals.fields
  obtain ⟨secret, hseal⟩ := hdeals
  have hknown := ((h.each p hp).prepared (by omega)).known _ (h.each q hq).mem_crew
  have hso : s.owner = q.guardian.id := congrArg Pair.owner (hprepared.pair_of_dealt hget)
  refine Guardian.judge_good_iff.mpr
    ⟨SealedShare.isGood_of_sealWith hS hA rfl hseal, ⟨q.guardian.announcement, ?_, ?_⟩, horder⟩
  · show p.guardian.known.get? s.owner = _
    rw [hso]
    exact hknown
  · exact hcommitments.symm

theorem Sound.sentVerdicts_good {p : Participant S} (hp : p ∈ ps) :
    ∀ v ∈ p.sentVerdicts, v.good = true := by
  intro v hv
  have ht := ahead_of_sentVerdicts hv
  rw [sentVerdicts, if_pos ht, hhonest p hp] at hv
  obtain ⟨w, hw, rfl⟩ := List.mem_map.mp hv
  exact h.good_of_honest hS hA hhonest hp (by omega) w hw

theorem Sound.disclosures_eq_nil : m.disclosures.keys = [] := by
  refine List.eq_nil_iff_forall_not_mem.mpr fun q hq => ?_
  obtain ⟨p, hp, v, hv, -, hbad⟩ := h.told.disclosed q hq
  rw [h.sentVerdicts_good hS hA hhonest hp v hv] at hbad
  cases hbad

end Honest

/-! ### What everyone comes to -/

/-- Everything that a participant has told the mediator is there. -/
structure Kept (m : Mediator S) (p : Participant S) : Prop where
  electionKey : p.task.ahead < 8 →
    m.electionKeys.get? p.guardian.id = some p.guardian.announcement.election
  transportKey : p.task.ahead < 8 →
    m.transportKeys.get? p.guardian.id = some p.guardian.announcement.transport
  shares : ∀ s ∈ p.sentShares, m.shares.get? s.pair = some s
  verdicts : ∀ v ∈ p.sentVerdicts, m.verdicts.get? v.pair = some v

theorem Sound.kept (h : Sound crew m ps) (hnone : m.disclosures.keys = []) {p : Participant S}
    (hp : p ∈ ps) : Kept m p where
  electionKey ht := (h.told.electionKeys _ _).mpr ⟨p, hp, ht, rfl, rfl⟩
  transportKey ht := (h.told.transportKeys _ _).mpr ⟨p, hp, ht, rfl, rfl⟩
  shares _ hs := (h.told.shares _ _).mpr ⟨rfl, p, hp, hs⟩
  verdicts _ hv := h.get?_verdict hp hv (hnone ▸ List.not_mem_nil)

/-- What the guardian with a name and a place has done in an honest ceremony: one share to and from
everyone else, and nothing to complain of. -/
def honestOutcome (terms : Terms) (e : String × UInt64) : Outcome :=
  ⟨e.1, e.2, (terms.guardians.toNat - 1).toUInt64, (terms.guardians.toNat - 1).toUInt64, 0, 0, 0⟩

theorem Sound.outcome_eq (hS : S.Lawful) (hA : S.Agrees) (h : Sound crew m ps)
    (hhonest : ∀ p ∈ ps, p.conduct = .honest) {p : Participant S} (hp : p ∈ ps)
    (ht : p.task.ahead < 3) :
    p.outcome = honestOutcome m.terms (p.guardian.id, p.guardian.order) := by
  have hcounted := h.counted p hp
  have hsent : p.guardian.dealt.size = m.terms.guardians.toNat - 1 :=
    Nat.eq_sub_of_add_eq (h.size_dealt hp (by omega))
  have hreceived : p.guardian.received.size = m.terms.guardians.toNat - 1 :=
    Nat.eq_sub_of_add_eq (h.size_received hp (by omega))
  have hrefused : (p.guardian.verdicts.countP fun v => !v.good) = 0 :=
    List.countP_eq_zero.mpr fun v hv => by
      rw [h.good_of_honest hS hA hhonest hp (by omega) v hv]
      exact Bool.false_ne_true
  have h1 := hcounted.sharesSent (by omega)
  have h2 := hcounted.sharesReceived (by omega)
  have h3 := hcounted.sharesRefused ht
  have h4 := hcounted.disclosed
  rw [hsent] at h1
  rw [hreceived] at h2
  rw [hrefused] at h3
  rw [h.disclosures_eq_nil hS hA hhonest] at h4
  have h5 := hcounted.upheld.trans h4
  calc p.outcome
      = ⟨p.outcome.guardian, p.outcome.order, p.outcome.sharesSent, p.outcome.sharesReceived,
          p.outcome.sharesRefused, p.outcome.disclosed, p.outcome.upheld⟩ := rfl
    _ = honestOutcome m.terms (p.guardian.id, p.guardian.order) := by
        rw [hcounted.guardian, hcounted.order, h1, h2, h3, h4, h5]
        rfl

/-! ### The ceremony -/

theorem failure?_eq_none {c : Ceremony S} (h : ∀ p ∈ c.participants, ∀ e, p.task ≠ .failed e) :
    c.failure? = none := by
  refine List.findSome?_eq_none_iff.mpr fun p hp => ?_
  split
  · rename_i cause ht
    exact absurd ht (h p hp cause)
  · rfl

/-- The invariant holds of everything that an honest ceremony comes to, and its guardians stay at
their places in the roster. -/
theorem sound_of_honest {terms : Terms} (hfew : terms.guardians.toNat ≤ 2 ^ 32)
    {gs : List (Guardian S)} (hids : gs.map (fun g => (g.id, g.order)) = roster terms)
    (hcreated : ∀ g ∈ gs, g.CreatedFor terms) (hS : S.Lawful) {id : String} {c : Ceremony S}
    (hc : Reachable (start id terms (gs.map fun g => (g, .honest))) c) :
    Sound (gs.map Guardian.core) c.mediator c.participants ∧
      (∀ p ∈ c.participants, p.conduct = .honest) ∧
      c.participants.map (fun p => (p.guardian.id, p.guardian.order)) = roster terms ∧
      c.mediator.setting = (id, terms) := by
  let hs : List (Guardian S × Conduct S) := gs.map fun g => (g, .honest)
  have hnames : (hs.map fun g => g.1.id).Nodup := by
    have hnodup := nodup_names terms
    rw [← hids, List.map_map] at hnodup
    rw [List.map_map]
    exact hnodup
  have hlength : hs.length = terms.guardians.toNat := by
    have hlen := congrArg List.length hids
    rw [List.length_map] at hlen
    rw [List.length_map, hlen, roster, List.length_map, List.length_range]
  have hcreated' : ∀ g ∈ hs, g.1.CreatedFor terms := List.forall_mem_map.mpr hcreated
  have hconduct : ∀ g ∈ hs, g.2.TakesPart :=
    List.forall_mem_map.mpr fun _ _ => Conduct.takesPart_honest
  obtain ⟨hparts, hsetting⟩ := parts_of_reachable hc
  have hparts' : c.participants.map part = gs.map fun g => (g.core, .honest) := by
    rw [hparts, start, List.map_map, List.map_map]
    rfl
  refine ⟨?_, fun p hp => ?_, ?_, hsetting⟩
  · have hsound := (sound_start id hcreated' hconduct hnames hlength hfew).reachable hS hc
    rwa [List.map_map] at hsound
  · have hpart : p.part ∈ gs.map fun g => (g.core, (.honest : Conduct S)) :=
      hparts' ▸ List.mem_map_of_mem hp
    obtain ⟨g, -, hg⟩ := List.mem_map.mp hpart
    exact (congrArg Prod.snd hg).symm
  · have hmap := congrArg (List.map fun g => (g.1.id, g.1.order)) hparts'
    rw [List.map_map, List.map_map] at hmap
    exact hmap.trans hids

/-- **An honest ceremony completes correctly.**  All guardians of a ceremony on valid terms can be
created, with the names and at the places of the roster; and in whatever order they take their
steps,

* nothing that they tell the mediator is dropped, and all of it stays there;
* no step fails, and somebody can go on until everyone has finished;
* then everyone has sent a share to everyone else, received one, and found nothing to complain of;
  the joint key is that of all guardians' secrets together; and the report names the guardians in
  their order, which is also the one that sorting by places makes of any other. -/
theorem honest_ceremony_completes (hS : S.Lawful) (hA : S.Agrees) {ceremonyId : String}
    {n k : UInt64} {terms : Terms} (hterms : Terms.agree ceremonyId n k = .ok terms)
    (hfew : n.toNat ≤ 2 ^ 32) (mediator : String) {ρ : Type} [RandomSource ρ] (r : ρ) :
    ∃ gs : List (Guardian S), (drawGuardians terms (roster terms) r).1 = .ok gs ∧
      gs.map (fun g => (g.id, g.order)) = roster terms ∧
      ∀ c : Ceremony S,
        Reachable (start mediator terms (gs.map fun g => (g, .honest))) c →
        (∀ p ∈ c.participants, ∀ (ρ : Type) [RandomSource ρ] (x : StateM ρ (Move S)) (r : ρ),
          p.step c.mediator = some x → ∀ q, (x r).1.request? = some q → c.mediator.Takes q) ∧
        (∀ p ∈ c.participants, Kept c.mediator p) ∧
        (∀ p ∈ c.participants, ∀ e, p.task ≠ .failed e) ∧
        (c.isOver ≠ true → ∃ d, Step c d) ∧
        (c.isOver = true →
          c.mediator.stage = .verified ∧
          c.mediator.disclosures.size = 0 ∧
          c.outcomes = ((roster terms).map (honestOutcome terms)).map some ∧
          (∀ os : List Outcome, os.Perm ((roster terms).map (honestOutcome terms)) →
            os.mergeSort (fun a b => a.order ≤ b.order) =
              (roster terms).map (honestOutcome terms)) ∧
          ∃ key, c.mediator.jointKey? = some key ∧
            key.key = S.commit (gs.map fun g => g.polynomial.secret).sum ∧
            ∀ timeout, c.report timeout = .ok ⟨ceremonyId, mediator, n, k, .verified, key, 0,
              (roster terms).map (honestOutcome terms)⟩) := by
  obtain ⟨rfl, -, hk⟩ := Terms.of_agree hterms
  have hplaces : ∀ e ∈ roster ⟨ceremonyId, n, k⟩, e.2 ≠ 0 := place_ne_zero hfew
  have hquorum : (⟨ceremonyId, n, k⟩ : Terms).quorum ≠ 0 := hk
  obtain ⟨gs, hgs, hids, hcreated⟩ := exists_drawGuardians (S := S) hquorum _ r hplaces
  refine ⟨gs, hgs, hids, fun c hc => ?_⟩
  obtain ⟨h, hhonest, hroster, hsetting⟩ := sound_of_honest hfew hids hcreated hS hc
  have hterms : c.mediator.terms = ⟨ceremonyId, n, k⟩ := congrArg Prod.snd hsetting
  have hid : c.mediator.id = mediator := congrArg Prod.fst hsetting
  have hnone := h.disclosures_eq_nil hS hA hhonest
  refine ⟨fun p hp ρ _ x r hx q hq => h.takes hS hp (acts_of_step hx r) hq,
    fun p hp => h.kept hnone hp, fun p hp => (h.each p hp).working, exists_step h, fun hover => ?_⟩
  have hfinished := isOver_iff.mp hover
  have hstage := stage_eq h hfinished
  have hsize : c.mediator.disclosures.size = 0 := by rw [← Ledger.length_keys, hnone]; rfl
  have houtcomes : c.outcomes =
      ((roster ⟨ceremonyId, n, k⟩).map (honestOutcome ⟨ceremonyId, n, k⟩)).map some := by
    rw [outcomes, ← hroster, List.map_map, List.map_map]
    refine List.map_congr_left fun p hp => ?_
    rw [outcome?, if_pos (hfinished p hp),
      h.outcome_eq hS hA hhonest hp (ahead_of_over hfinished (by decide) p hp), hterms]
    rfl
  have hreported : c.outcomes.filterMap id =
      (roster ⟨ceremonyId, n, k⟩).map (honestOutcome ⟨ceremonyId, n, k⟩) := by
    rw [houtcomes, List.filterMap_map, Function.id_comp, List.filterMap_some]
  obtain ⟨key, hkey, hsum⟩ := exists_jointKey h hfinished hS
  refine ⟨hstage, hsize, houtcomes, fun os hperm => mergeSort_outcomes ?_ hperm, key, hkey, ?_,
    fun timeout => ?_⟩
  · exact List.pairwise_map.mpr (pairwise_places hfew)
  · rw [hsum, List.map_map]
    rfl
  · rw [report, failure?_eq_none fun p hp => (h.each p hp).working, hkey]
    dsimp only
    rw [if_pos hover, hterms, hid, hstage, hsize, hreported]
    rfl

/-- Two guardians come to the end of an honest ceremony, with this report. -/
theorem honest_ceremony_completes_of_two :
    ∃ (gs : List (Guardian Suite.exponents)) (c : Ceremony Suite.exponents),
      Reachable (start "mediator" ⟨"ceremony", 2, 1⟩ (gs.map fun g => (g, .honest))) c ∧
        ∃ key, c.report 60 = .ok ⟨"ceremony", "mediator", 2, 1, .verified, key, 0,
          [⟨"guardian-1", 1, 1, 1, 0, 0, 0⟩, ⟨"guardian-2", 2, 1, 1, 0, 0, 0⟩]⟩ := by
  have hterms : Terms.agree "ceremony" 2 1 = .ok ⟨"ceremony", 2, 1⟩ := rfl
  obtain ⟨gs, -, hids, hall⟩ := honest_ceremony_completes Suite.lawful_exponents
    Suite.agrees_exponents hterms (by decide) "mediator" (⟨0⟩ : SplitMix)
  obtain ⟨c, hc, hover⟩ := exists_over fun c hc => (hall c hc).2.2.2.1
  obtain ⟨-, -, -, -, key, -, -, hreport⟩ := (hall c hc).2.2.2.2 hover
  exact ⟨gs, c, hc, key, hreport 60⟩

end Guardianship.Ceremony
