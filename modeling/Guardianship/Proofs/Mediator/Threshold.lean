import Guardianship.Proofs.Guardian.Dealing
import Guardianship.Proofs.Mediator.JointKey
import Guardianship.Proofs.Polynomial.Threshold

/-!
# When a verified ceremony has the agreed threshold

The terms of a ceremony say how many guardians are to be enough to stand in for the others.  The
mediator keeps that number and compares it with nothing: not with how many commitments a guardian
announces, which is how many shares determine the secret, nor does it look at the places for which
the shares are (`verified_without_threshold`).

A verified ceremony has the agreed threshold (`IsThreshold`) if all announced places are different
and not zero and there are as many commitments as the quorum (`WellDealt`).  A quorum of two or more
is the threshold in no other case (`verified_threshold_iff`).  Guardians who were created for the
terms announce no other number of commitments, and no place that is zero
(`electionKeys_of_created`).
-/

namespace Guardianship

variable {S : Suite}

theorem Terms.quorum_le_of_agree {ceremonyId : String} {n k : UInt64} {terms : Terms}
    (h : Terms.agree ceremonyId n k = .ok terms) : k ≤ n := by
  unfold Terms.agree at h
  split_ifs at h with hn hk
  exact UInt64.not_lt.mp fun hlt => hk (Or.inr hlt)

namespace Mediator

/-! ### Places and thresholds -/

/-- The place that a guardian announced with its election key. -/
def electionPlace (m : Mediator S) (id : String) : UInt64 :=
  (m.electionKeys.get? id).elim 0 ElectionKey.order

/-- The place that a guardian announced with its transport key, at which its shares are values. -/
def transportPlace (m : Mediator S) (id : String) : UInt64 :=
  (m.transportKeys.get? id).elim 0 TransportKey.order

/-- As many announcers as the quorum, whoever they are, determine every secret by the values at
their places, and fewer learn nothing. -/
structure IsThreshold (m : Mediator S) (place : String → UInt64) : Prop where
  determine : ∀ e ∈ m.electionKeys.values, ∀ Q ⊆ m.announcers,
    m.terms.quorum.toNat ≤ Q.card → Commitments.Determine e.commitments (Q.image place)
  hide : ∀ e ∈ m.electionKeys.values, ∀ Q ⊆ m.announcers,
    Q.card < m.terms.quorum.toNat → Commitments.Hide e.commitments (Q.image place)

/-- The places are different and not zero, and there are as many commitments as the quorum. -/
structure WellDealt (m : Mediator S) (place : String → UInt64) : Prop where
  ne_zero : ∀ id ∈ m.announcers, place id ≠ 0
  injOn : Set.InjOn place m.announcers
  length_eq : ∀ e ∈ m.electionKeys.values, e.commitments.length = m.terms.quorum.toNat

theorem card_image_place {m : Mediator S} {place : String → UInt64}
    (h : Set.InjOn place m.announcers) {Q : Finset String} (hQ : Q ⊆ m.announcers) :
    (Q.image place).card = Q.card :=
  Finset.card_image_of_injOn (h.mono (Finset.coe_subset.mpr hQ))

/-- Of two guardians at one place, one is as good as both. -/
theorem image_erase_place {place : String → UInt64} {a b : String} (hne : a ≠ b)
    (hab : place a = place b) {Q : Finset String} (hb : b ∈ Q) :
    (Q.erase a).image place = Q.image place := by
  refine (Finset.image_subset_image (Finset.erase_subset a Q)).antisymm fun x hx => ?_
  obtain ⟨c, hc, rfl⟩ := Finset.mem_image.mp hx
  by_cases hca : c = a
  · subst hca
    exact Finset.mem_image.mpr ⟨b, Finset.mem_erase.mpr ⟨hne.symm, hb⟩, hab.symm⟩
  · exact Finset.mem_image_of_mem place (Finset.mem_erase.mpr ⟨hca, hc⟩)

section Lawful

variable (hS : S.Lawful) {m : Mediator S} {place : String → UInt64}
include hS

/-- If a quorum with two guardians at one place is enough, then so is what is one short of it. -/
theorem IsThreshold.injOn (h : m.IsThreshold place) (hk : 2 ≤ m.terms.quorum.toNat)
    (hn : m.terms.quorum.toNat ≤ m.announcers.card) {e : ElectionKey S}
    (he : e ∈ m.electionKeys.values) : Set.InjOn place m.announcers := by
  intro a ha b hb hab
  by_contra hne
  have hpair : ({a, b} : Finset String) ⊆ m.announcers :=
    Finset.insert_subset ha (Finset.singleton_subset_iff.mpr hb)
  have hcard : ({a, b} : Finset String).card ≤ m.terms.quorum.toNat := by
    rwa [Finset.card_pair hne]
  obtain ⟨Q, hpairQ, hQ, hQcard⟩ := Finset.exists_subsuperset_card_eq hpair hcard hn
  have haQ : a ∈ Q := hpairQ (Finset.mem_insert_self a {b})
  have hbQ : b ∈ Q := hpairQ (Finset.mem_insert_of_mem (Finset.mem_singleton_self b))
  have hshort : (Q.erase a).card < m.terms.quorum.toNat := by
    rw [← hQcard]
    exact Finset.card_erase_lt_of_mem haQ
  have hhide := h.hide e he (Q.erase a) ((Finset.erase_subset a Q).trans hQ) hshort
  rw [image_erase_place hne hab hbQ] at hhide
  exact (h.determine e he Q hQ hQcard.ge).not_hide hS hhide

variable (hq : 2 ^ 64 ≤ S.order)
include hq

theorem WellDealt.isThreshold (h : m.WellDealt place) (hk : m.terms.quorum ≠ 0) :
    m.IsThreshold place := by
  have hne : ∀ e ∈ m.electionKeys.values, e.commitments ≠ [] := fun e he hnil => by
    have hlen := h.length_eq e he
    rw [hnil, List.length_nil] at hlen
    exact hk (UInt64.toNat_inj.mp hlen.symm)
  constructor
  · intro e he Q hQ hle
    rw [Commitments.determine_iff hS hq, card_image_place h.injOn hQ, h.length_eq e he]
    exact ⟨hne e he, Or.inr hle⟩
  · intro e he Q hQ hlt
    rw [Commitments.hide_iff hS hq, card_image_place h.injOn hQ, h.length_eq e he]
    refine ⟨hne e he, fun h0 => ?_, hlt⟩
    obtain ⟨id, hid, hzero⟩ := Finset.mem_image.mp h0
    exact h.ne_zero id (hQ hid) hzero

theorem IsThreshold.wellDealt (h : m.IsThreshold place) (hk : 2 ≤ m.terms.quorum.toNat)
    (hn : m.terms.quorum.toNat ≤ m.announcers.card) : m.WellDealt place := by
  -- somebody has announced
  obtain ⟨id₀, hid₀⟩ := Finset.card_pos.mp (show 0 < m.announcers.card by omega)
  obtain ⟨e₀, hget₀⟩ := Ledger.mem_keys.mp (mem_announcers.mp hid₀)
  have he₀ : e₀ ∈ m.electionKeys.values := Ledger.mem_values.mpr ⟨id₀, hget₀⟩
  have hinj := h.injOn hS hk hn he₀
  obtain ⟨Q, hQ, hQcard⟩ := Finset.exists_subset_card_eq hn
  obtain ⟨R, hRQ, hRcard⟩ := Finset.exists_subset_card_eq
    (show m.terms.quorum.toNat - 1 ≤ Q.card by omega)
  have hne : ∀ id ∈ m.announcers, place id ≠ 0 := by
    intro id hid hzero
    -- a single guardian is fewer than the quorum, and would know every secret
    have hhide := h.hide e₀ he₀ {id} (Finset.singleton_subset_iff.mpr hid)
      (by rw [Finset.card_singleton]; omega)
    rw [Commitments.hide_iff hS hq, Finset.image_singleton, hzero] at hhide
    exact hhide.2.1 (Finset.mem_singleton_self 0)
  refine ⟨hne, hinj, fun e he => ?_⟩
  have hle : e.commitments.length ≤ m.terms.quorum.toNat := by
    have hdet := h.determine e he Q hQ hQcard.ge
    rw [Commitments.determine_iff hS hq, card_image_place hinj hQ, hQcard] at hdet
    refine hdet.2.resolve_left fun h0 => ?_
    obtain ⟨id, hid, hzero⟩ := Finset.mem_image.mp h0
    exact hne id (hQ hid) hzero
  have hlt : m.terms.quorum.toNat - 1 < e.commitments.length := by
    have hhide := h.hide e he R (hRQ.trans hQ) (by omega)
    rw [Commitments.hide_iff hS hq, card_image_place hinj (hRQ.trans hQ), hRcard] at hhide
    exact hhide.2.2
  omega

/-- **When a verified ceremony has the agreed threshold.**  Whatever was sent, everyone has announced
by then; and for the places announced with either key, a quorum of guardians determines every secret
and fewer learn nothing if places are different and not zero and there are as many commitments as
the quorum.  A quorum of more than one is the threshold in no other case. -/
theorem verified_threshold_iff {ceremonyId : String} {n k : UInt64}
    (hterms : Terms.agree ceremonyId n k = .ok m.terms) (hverified : m.stage = .verified) :
    m.announcers.card = n.toNat ∧ m.announcers = m.carriers ∧
    ∀ place ∈ [m.electionPlace, m.transportPlace],
      (m.WellDealt place → m.IsThreshold place) ∧
      (k ≠ 1 → (m.IsThreshold place ↔ m.WellDealt place)) := by
  obtain ⟨hm, -, hk⟩ := Terms.of_agree hterms
  have hquorum : m.terms.quorum = k := by rw [hm]
  have hannounced := allAnnounced_iff.mp (allAnnounced_of_allSharesIn
    (allSharesIn_of_allVerdictsIn (allVerdictsIn_of_allGood (stage_eq_verified_iff.mp hverified))))
  have hcard : m.announcers.card = n.toNat := by
    rw [hannounced.card_announcers, expected, hm]
  refine ⟨hcard, hannounced.announcers_eq, fun place _ => ?_⟩
  have hthreshold : m.WellDealt place → m.IsThreshold place :=
    fun h => h.isThreshold hS hq (hquorum ▸ hk)
  refine ⟨hthreshold, fun hk1 => ⟨fun h => ?_, hthreshold⟩⟩
  have hk2 : 2 ≤ k.toNat := by
    have h0 : k.toNat ≠ 0 := fun h => hk (UInt64.toNat_inj.mp h)
    have h1 : k.toNat ≠ 1 := fun h => hk1 (UInt64.toNat_inj.mp h)
    omega
  have hkn : k.toNat ≤ n.toNat := UInt64.le_iff_toNat_le.mp (Terms.quorum_le_of_agree hterms)
  exact h.wellDealt hS hq (hquorum ▸ hk2) (by rw [hquorum, hcard]; exact hkn)

end Lawful

/-! ### Who keeps to the terms -/

/-- Guardians who were created for the terms announce places other than zero, the first of their
commitments for a key, and as many commitments as the quorum. -/
theorem electionKeys_of_created {id : String} {terms : Terms} {rs : List (Request S)}
    (hrs : ∀ a ∈ announcements rs, ∃ g : Guardian S, g.CreatedFor terms ∧ a = g.announcement) :
    ∀ e ∈ (rs.foldl apply (start id terms)).electionKeys.values,
      e.order ≠ 0 ∧ e.Consistent ∧ e.commitments.length = terms.quorum.toNat := by
  refine forall_electionKeys_foldl_apply (fun _ he => absurd he List.not_mem_nil) fun a ha => ?_
  obtain ⟨g, ⟨ρ, _, r, id', order, hg⟩, rfl⟩ := hrs a ha
  obtain ⟨p, secret, rfl, ho, hlen⟩ := Guardian.of_create hg
  exact ⟨ho, ElectionKey.consistent_ofPolynomial _ _ p, p.length_commitments.trans hlen⟩

/-- Two guardians who announce one commitment each for a quorum of two, and zero for a place. -/
def misplacedPair : Mediator Suite.standard :=
  verifiedPair 2 (announcementOf _ "a" 0 2 [2]) (announcementOf _ "b" 0 3 [3])

theorem verified_without_threshold :
    Reachable misplacedPair ∧ Terms.agree "ceremony" 2 2 = .ok misplacedPair.terms ∧
      misplacedPair.stage = .verified ∧
      (∃ id ∈ misplacedPair.announcers,
        misplacedPair.electionPlace id = 0 ∧ misplacedPair.transportPlace id = 0) ∧
      (∃ a ∈ misplacedPair.announcers, ∃ b ∈ misplacedPair.announcers, a ≠ b ∧
        misplacedPair.electionPlace a = misplacedPair.electionPlace b ∧
        misplacedPair.transportPlace a = misplacedPair.transportPlace b) ∧
      ∃ e ∈ misplacedPair.electionKeys.values,
        e.commitments.length ≠ misplacedPair.terms.quorum.toNat := by
  refine ⟨reachable_verifiedPair _ _ _, by decide +kernel, by decide +kernel, ?_, ?_, ?_⟩ <;>
    decide +kernel

/-- Two guardians at the places one and two, with two commitments each for a quorum of two. -/
def placedPair : Mediator Suite.exponents :=
  verifiedPair 2 (announcementOf _ "a" 1 2 [2, 5]) (announcementOf _ "b" 2 3 [3, 7])

theorem wellDealt_placedPair : placedPair.WellDealt placedPair.transportPlace where
  ne_zero := by decide +kernel
  injOn := by
    have h : ∀ a ∈ placedPair.announcers, ∀ b ∈ placedPair.announcers,
        placedPair.transportPlace a = placedPair.transportPlace b → a = b := by decide +kernel
    exact fun a ha b hb => h a ha b hb
  length_eq := by decide +kernel

theorem threshold_of_placedPair :
    Terms.agree "ceremony" 2 2 = .ok placedPair.terms ∧ placedPair.stage = .verified ∧
      placedPair.IsThreshold placedPair.transportPlace := by
  have hterms : Terms.agree "ceremony" 2 2 = .ok placedPair.terms := by decide +kernel
  have hverified : placedPair.stage = .verified := by decide +kernel
  obtain ⟨-, -, hplaces⟩ := verified_threshold_iff Suite.lawful_exponents (by decide) hterms
    hverified
  have hplace : placedPair.transportPlace ∈ [placedPair.electionPlace, placedPair.transportPlace] :=
    List.mem_cons_of_mem _ List.mem_cons_self
  exact ⟨hterms, hverified, (hplaces _ hplace).1 wellDealt_placedPair⟩

end Mediator

end Guardianship
