import Guardianship.Proofs.Ceremony.Ending
import Guardianship.Proofs.Suite.Exponents

/-!
# False accusations

Shares may be changed on their way to the mediator, and guardians may report whatever verdicts they
like on the shares that they have received.  The owners of the shares that are found bad disclose
them, in any order and while others are still at it; every disclosure is found good, and when
everyone has finished the ceremony stands where it would have stood without any accusation, but for
the number of disclosures (`accusations_are_cleared`).
-/

namespace Guardianship.Ceremony

open Participant
open scoped Fin.CommRing

variable {S : Suite}

/-- Who accuses is heard, and the accused answers. -/
theorem Sound.answers_accusation (hS : S.Lawful) {crew : List (Guardian S)} {m : Mediator S}
    {ps : List (Participant S)} (h : Sound crew m ps) {p : Participant S} (hp : p ∈ ps)
    {a : Pair} {others : List Pair} (ht : p.task = .answer (a :: others)) :
    a.owner = p.guardian.id ∧ a ∈ m.summary.failed ∧
      ∃ d, p.guardian.disclose a.recipient = some d ∧ d.pair = a ∧ (m.judge d).good = true := by
  have h1 : p.task.ahead = 1 := by rw [ht]; rfl
  have ha : a ∈ p.pending := by
    unfold pending
    rw [ht]
    exact List.mem_cons_self
  obtain ⟨hfailed, howner⟩ := ((h.answers p hp).mem_pending (by omega) a).mp ha
  obtain ⟨d, hd, hpair, hgood, -⟩ := h.exists_disclosure hS hp (by omega) ha
  refine ⟨howner, ?_, d, hd, hpair, hgood⟩
  rwa [Mediator.summary_failed, if_pos (h.allVerdictsIn_of_ahead (h.verdicts p hp (by omega)))]

/-- **False accusations never block a ceremony.**  Take guardians that were created for the terms of
a ceremony, with different names and at any places in the order, who speak in every round but may
change the shares that they send and report any verdicts on those that they have received.  In
whatever order they take their steps,

* every disclosure is found good at once, and whoever is accused discloses the share;
* somebody can go on until everyone has finished;
* then no verdict is bad any more, there have been as many disclosures as bad verdicts were
  reported, and the joint key is that of all guardians' secrets together. -/
theorem accusations_are_cleared (hS : S.Lawful) {ceremonyId id : String} {n k : UInt64}
    {terms : Terms} (hterms : Terms.agree ceremonyId n k = .ok terms)
    (hfew : n.toNat ≤ 2 ^ 32) {gs : List (Guardian S × Conduct S)}
    (hlength : gs.length = n.toNat) (hcreated : ∀ g ∈ gs, g.1.CreatedFor terms)
    (hnames : (gs.map fun g => g.1.id).Nodup) (hconduct : ∀ g ∈ gs, g.2.TakesPart)
    {c : Ceremony S} (hc : Reachable (start id terms gs) c) :
    (∀ p ∈ c.participants, ∀ (ρ : Type) [RandomSource ρ] (x : StateM ρ (Move S)) (r : ρ),
      p.step c.mediator = some x → ∀ d, (x r).1.request? = some (.disclosure d) →
        d.owner = p.guardian.id ∧ d.pair ∈ c.mediator.summary.failed ∧
          (c.mediator.judge d).good = true) ∧
    (∀ p ∈ c.participants, ∀ a others, p.task = .answer (a :: others) →
      ∃ d, p.guardian.disclose a.recipient = some d ∧ d.pair = a) ∧
    (c.isOver ≠ true → ∃ d, Step c d) ∧
    (c.isOver = true →
      c.mediator.stage = .verified ∧
      c.mediator.summary = ⟨true, true, []⟩ ∧
      c.mediator.disclosures.size = (c.participants.map fun p =>
        (p.guardian.verdicts.map p.conduct.report).countP fun v => !v.good).sum ∧
      (∃ key, c.mediator.jointKey? = some key ∧
        key.key = S.commit (gs.map fun g => g.1.polynomial.secret).sum) ∧
      ∀ p ∈ c.participants, p.outcome.upheld = p.outcome.disclosed) := by
  obtain ⟨rfl, -, -⟩ := Terms.of_agree hterms
  have h := (sound_start id hcreated hconduct hnames hlength hfew).reachable hS hc
  refine ⟨fun p hp ρ _ x r hx d hd => ?_, fun p hp a others ht => ?_, exists_step h,
    fun hover => ?_⟩
  · obtain ⟨a, others, ht, hdisclose⟩ := (acts_of_step hx r).of_disclosure hd
    obtain ⟨howner, hfailed, d', hd', rfl, hgood⟩ := h.answers_accusation hS hp ht
    obtain rfl := Option.some.inj (hd'.symm.trans hdisclose)
    exact ⟨howner, hfailed, hgood⟩
  · obtain ⟨-, -, d, hd, hpair, -⟩ := h.answers_accusation hS hp ht
    exact ⟨d, hd, hpair⟩
  · have hfinished := isOver_iff.mp hover
    refine ⟨stage_eq h hfinished, summary_eq h hfinished, ?_, ?_, fun p hp =>
      (h.counted p hp).upheld⟩
    · rw [size_disclosures h hfinished]
      refine congrArg List.sum (List.map_congr_left fun p hp => ?_)
      rw [sentVerdicts, if_pos (ahead_of_over hfinished (by decide) p hp)]
    · obtain ⟨key, hkey, hsum⟩ := exists_jointKey h hfinished hS
      rw [List.map_map] at hsum
      exact ⟨key, hkey, hsum⟩

/-- Spoils every share that it sends, and finds fault with every share that it receives. -/
def rogue : Conduct S := { Conduct.corrupt with report := fun v => { v with good := false } }

/-- It reports one bad verdict for every share that it holds. -/
theorem countP_rogue (g : Guardian S) :
    (g.verdicts.map (rogue : Conduct S).report).countP (fun v => !v.good) = g.received.size := by
  have hall : ∀ v ∈ g.verdicts.map (rogue : Conduct S).report, (!v.good) = true := fun v hv => by
    obtain ⟨w, -, rfl⟩ := List.mem_map.mp hv
    rfl
  rw [List.countP_eq_length.mpr hall, List.length_map, Guardian.verdicts, List.length_map,
    Ledger.length_values]

/-- Two guardians who accuse each other bring the ceremony to its end with two disclosures. -/
theorem accusations_are_cleared_of_two :
    ∃ (gs : List (Guardian Suite.exponents × Conduct Suite.exponents))
      (c : Ceremony Suite.exponents),
      Reachable (start "mediator" ⟨"ceremony", 2, 2⟩ gs) c ∧ c.isOver = true ∧
        c.mediator.stage = .verified ∧ c.mediator.disclosures.size = 2 := by
  let terms : Terms := ⟨"ceremony", 2, 2⟩
  have hterms : Terms.agree "ceremony" 2 2 = .ok terms := rfl
  have hquorum : terms.quorum ≠ 0 := by decide
  have hone : (1 : UInt64) ≠ 0 := by decide
  have htwo : (2 : UInt64) ≠ 0 := by decide
  obtain ⟨g, hg⟩ :=
    Guardian.exists_create (S := Suite.exponents) "a" hone hquorum (⟨1⟩ : SplitMix)
  obtain ⟨g', hg'⟩ :=
    Guardian.exists_create (S := Suite.exponents) "b" htwo hquorum (⟨2⟩ : SplitMix)
  let gs : List (Guardian Suite.exponents × Conduct Suite.exponents) := [(g, rogue), (g', rogue)]
  have hcreated : ∀ g ∈ gs, g.1.CreatedFor terms :=
    List.forall_mem_cons.mpr ⟨⟨SplitMix, inferInstance, _, _, _, hg⟩,
      List.forall_mem_singleton.mpr ⟨SplitMix, inferInstance, _, _, _, hg'⟩⟩
  have hnames : (gs.map fun g => g.1.id).Nodup := by
    obtain ⟨p, sk, rfl, -⟩ := Guardian.of_create hg
    obtain ⟨p', sk', rfl, -⟩ := Guardian.of_create hg'
    exact List.nodup_cons.mpr ⟨by simp [Guardian.ofSecrets, Guardian.learn],
      List.nodup_singleton _⟩
  have hrogue : (rogue : Conduct Suite.exponents).TakesPart :=
    ⟨rfl, fun _ => rfl, fun _ => rfl⟩
  have hconduct : ∀ g ∈ gs, g.2.TakesPart :=
    List.forall_mem_cons.mpr ⟨hrogue, List.forall_mem_singleton.mpr hrogue⟩
  have hall := fun (c : Ceremony Suite.exponents) (hc : Reachable (start "mediator" terms gs) c) =>
    accusations_are_cleared Suite.lawful_exponents hterms (by decide) rfl hcreated hnames
      hconduct hc
  obtain ⟨c, hc, hover⟩ := exists_over fun c hc => (hall c hc).2.2.1
  obtain ⟨hstage, -, hsize, -⟩ := (hall c hc).2.2.2 hover
  have h := (sound_start "mediator" hcreated hconduct hnames rfl (by decide)).reachable
    Suite.lawful_exponents hc
  obtain ⟨hparts, hsetting⟩ := parts_of_reachable hc
  refine ⟨gs, c, hc, hover, hstage, ?_⟩
  have hcount : ∀ p ∈ c.participants,
      ((p.guardian.verdicts.map p.conduct.report).countP fun v => !v.good) = 1 := fun p hp => by
    have hpart : p.part ∈ (start "mediator" terms gs).participants.map part :=
      hparts ▸ List.mem_map_of_mem hp
    have hk : p.conduct = rogue := by
      rcases List.mem_cons.mp hpart with heq | hmem
      · exact congrArg Prod.snd heq
      · exact congrArg Prod.snd (List.mem_singleton.mp hmem)
    have hreceived := h.size_received hp (ahead_of_over (isOver_iff.mp hover) (by decide) p hp)
    have hexpected : c.mediator.expected = 2 :=
      congrArg (fun s : String × Terms => s.2.guardians.toNat) hsetting
    rw [hk, countP_rogue]
    omega
  have hlength : c.participants.length = 2 := by
    have hlen := congrArg List.length hparts
    rwa [List.length_map] at hlen
  rw [hsize, List.map_congr_left hcount, List.map_const', List.sum_replicate, hlength]
  rfl

end Guardianship.Ceremony
