import Guardianship.Proofs.Disputes
import Guardianship.Proofs.Mediator.Rosters

/-!
# Dealing to everyone else or to nobody

A guardian knows of everyone else what was announced last, in the order in which the others first
announced (`filter_known_eq_peersOf`).  It deals to them one after the other, and it may be half
through when it comes upon someone who carries a transport key of someone else.  Then it has dealt
to nobody, and what it had dealt before is as it was; if there is no such announcement, everyone
else is dealt one share (`deal_to_all_or_nobody`).

The mediator gives out no such announcements, whatever it was sent (`GivesOut.ofOne`), and it keeps
all shares of a guardian which it knows and for whom it gave out the announcements
(`receiveShares_of_givesOut`).
-/

namespace Guardianship

variable {S : Suite}

/-! ### What the mediator gives out -/

namespace Mediator

variable {m : Mediator S}

/-- An announcement is among those that the mediator gives to someone. -/
def GivesOut (m : Mediator S) (a : Announcement S) : Prop :=
  ∃ requester as, m.roster requester = some as ∧ a ∈ as

namespace GivesOut

variable {a : Announcement S} (h : m.GivesOut a)
include h

theorem allAnnounced : m.allAnnounced = true := by
  obtain ⟨requester, as, hroster, -⟩ := h
  exact allAnnounced_of_roster hroster

variable (hm : Reachable m)
include hm

theorem mem_keySets : a ∈ m.keySets := by
  have ha := h.allAnnounced
  obtain ⟨requester, as, hroster, hmem⟩ := h
  rw [roster_eq hm.filed ha, Option.some.injEq] at hroster
  subst hroster
  exact List.mem_of_mem_filter hmem

/-- Both keys name the same guardian, whatever was announced. -/
theorem ofOne : a.OfOne := ofOne_of_mem_keySets hm.filed (h.mem_keySets hm)

/-- Shares are admitted between those who are known and those who are given out. -/
theorem admits {id : String} (hid : id ∈ m.announcers) (hne : a.owner ≠ id) :
    m.admits ⟨id, a.owner⟩ = true := by
  have hkey := ((Mediator.mem_keySets hm.filed).mp (h.mem_keySets hm)).1
  exact admits_iff.mpr ⟨hne.symm, mem_announcers.mp hid, Ledger.mem_keys_of_get? hkey⟩

end GivesOut

end Mediator

namespace Guardian

/-! ### What is dealt -/

/-- What the share for someone is to be. -/
structure DealtFor (g : Guardian S) (a : Announcement S) (s : SealedShare S) : Prop where
  deals : g.Deals a s
  owner : s.owner = g.id
  recipient : s.recipient = a.owner
  order : s.order = a.transport.order
  commitments : s.commitments = g.polynomial.commitments

theorem Deals.dealtFor {g : Guardian S} {a : Announcement S} {s : SealedShare S}
    (h : g.Deals a s) (hrecipient : s.recipient = a.owner) : g.DealtFor a s := by
  obtain ⟨secret, hs⟩ := h
  obtain ⟨howner, -, horder, hcommitments⟩ := SealedShare.fields_of_sealWith hs
  exact ⟨⟨secret, hs⟩, howner, hrecipient, horder, hcommitments⟩

/-! ### Everyone else -/

/-- The last announcements of everyone else, in the order of the first ones. -/
def peersOf (id : String) (as : List (Announcement S)) : List (Announcement S) :=
  ((as.map Announcement.owner).filter fun o => o ≠ id).eraseDups.filterMap (lastOf as)

theorem owner_ne_of_mem_peersOf {id : String} {as : List (Announcement S)} {a : Announcement S}
    (h : a ∈ peersOf id as) : a.owner ≠ id := by
  obtain ⟨o, ho, ha⟩ := List.mem_filterMap.mp h
  rw [(mem_of_lastOf ha).2]
  exact of_decide_eq_true (List.mem_filter.mp (List.mem_eraseDups.mp ho)).2

theorem Learns.owner_ne {g g₁ : Guardian S} {as : List (Announcement S)} (has : g.Learns as g₁)
    {a : Announcement S} (h : a ∈ peersOf g.id as) : a.owner ≠ g₁.id := by
  rw [(fields_of_core has.core_eq).1]
  exact owner_ne_of_mem_peersOf h

section Created

variable {terms : Terms} {g g₁ : Guardian S} {as : List (Announcement S)}
  (hg : g.CreatedFor terms) (has : g.Learns as g₁)
include hg has

/-- A guardian knows itself first, and then everyone else who announced. -/
theorem keys_known_of_learns :
    g₁.known.keys = g.id :: ((as.map Announcement.owner).filter fun o => o ≠ g.id).eraseDups := by
  have hkeys : g.known.keys = [g.id] := by
    obtain ⟨id, order, p, secret, rfl⟩ := hg.exists_ofSecrets
    rfl
  rw [has.known_eq, Ledger.keys_insertAll, hkeys]
  simp

/-- What a guardian knows of everyone else. -/
theorem filter_known_eq_peersOf :
    (g₁.known.entries.filter fun e => e.1 ≠ g.id) =
      (peersOf g.id as).map fun a => (a.owner, a) := by
  rw [Ledger.entries_eq_filterMap_keys, List.filter_filterMap, keys_known_of_learns hg has,
    peersOf, List.map_filterMap, List.filterMap_cons_none]
  · refine List.filterMap_congr fun o ho => ?_
    have hne : o ≠ g.id :=
      of_decide_eq_true (List.mem_filter.mp (List.mem_eraseDups.mp ho)).2
    rw [get?_known_eq_lastOf hg has hne]
    cases ha : lastOf as o with
    | none => rfl
    | some a =>
      rw [Option.map_some, Option.map_some, (mem_of_lastOf ha).2, Option.filter_some_pos]
      exact decide_eq_true hne
  · cases g₁.known.get? g.id <;> simp [Option.filter]

/-- So everyone else is one of them, with one announcement. -/
theorem nodup_owners_peersOf : ((peersOf g.id as).map Announcement.owner).Nodup := by
  have hnodup : ((g₁.known.entries.filter fun e => e.1 ≠ g.id).map Prod.fst).Nodup :=
    g₁.known.nodup.sublist (List.filter_sublist.map _)
  rw [filter_known_eq_peersOf hg has, List.map_map] at hnodup
  exact hnodup

/-- Who carries a foreign transport key is the first one whose two keys name different
guardians. -/
theorem foreign?_known :
    g₁.foreign? g₁.known.entries =
      ((peersOf g.id as).find? fun b => ¬ b.OfOne).map fun a => (a.owner, a) := by
  have hid : g₁.id = g.id := (fields_of_core has.core_eq).1
  calc g₁.foreign? g₁.known.entries
      = (g₁.known.entries.filter fun e => e.1 ≠ g.id).find? fun e => e.2.transport.owner ≠ e.1 := by
        rw [List.find?_filter, foreign?, hid]
        simp only [Bool.decide_and, Bool.decide_eq_true]
    _ = _ := by
        rw [filter_known_eq_peersOf hg has, List.find?_map]
        rfl

end Created

/-! ### The shares of everyone else -/

section Shares

variable {g : Guardian S} {as : List (Announcement S)} {ss : List (SealedShare S)}
  (hall : List.Forall₂ g.DealtFor as ss)
include hall

/-- The shares are for the pairs of the guardian with each of the others. -/
theorem map_pair_of_dealtFor : as.map (fun a => ⟨g.id, a.owner⟩) = ss.map SealedShare.pair :=
  map_eq_map_of_forall₂ hall fun _ _ h => by rw [SealedShare.pair, h.owner, h.recipient]

theorem nodup_pairs_of_dealtFor (hnodup : (as.map Announcement.owner).Nodup) :
    (ss.map SealedShare.pair).Nodup := by
  have hinj : Function.Injective (Pair.mk g.id) := fun _ _ h => congrArg Pair.recipient h
  have hpairs : (as.map fun a => (⟨g.id, a.owner⟩ : Pair)) =
      (as.map Announcement.owner).map (Pair.mk g.id) := by rw [List.map_map]; rfl
  rw [← map_pair_of_dealtFor hall, hpairs]
  exact hnodup.map hinj

end Shares

/-- A mediator keeps the shares of a guardian that it knows, if it gave out whom they are for. -/
theorem receiveShares_of_givesOut {m : Mediator S} (hm : Mediator.Reachable m) {g : Guardian S}
    (hid : g.id ∈ m.announcers) {as : List (Announcement S)} {ss : List (SealedShare S)}
    (hothers : ∀ a ∈ as, a.owner ≠ g.id) (hgiven : ∀ a ∈ as, m.GivesOut a)
    (hall : List.Forall₂ g.DealtFor as ss) :
    m.receiveShares ss = { m with shares := m.shares.insertAll SealedShare.pair ss } := by
  cases as with
  | nil =>
    -- nothing is given out, so the round may not be open, but there is nothing to keep
    cases hall
    unfold Mediator.receiveShares
    split_ifs <;> rfl
  | cons a as =>
    refine Mediator.receiveShares_eq ⟨(hgiven a List.mem_cons_self).allAnnounced, fun s hs => ?_⟩
    obtain ⟨b, hb, hdealt⟩ := exists_of_mem_forall₂ hall hs
    rw [SealedShare.pair, hdealt.owner, hdealt.recipient]
    exact (hgiven b hb).admits hm hid (hothers b hb)

/-! ### Everyone else or nobody -/

section Deal

variable {ρ : Type} [RandomSource ρ] {terms : Terms} {g g₁ : Guardian S}
  {as : List (Announcement S)} (hg : g.CreatedFor terms) (has : g.Learns as g₁) (r : ρ)
include hg has

theorem dealShares_of_crossed {a : Announcement S}
    (ha : ((peersOf g.id as).find? fun b => ¬ b.OfOne) = some a) :
    (g₁.dealShares r).1 = (.error (.foreignTransportKey a.owner), g₁) := by
  refine g₁.dealShares_of_foreign r (e := (a.owner, a)) ?_
  rw [foreign?_known hg has, ha, Option.map_some]

theorem exists_dealShares_of_ofOne (hones : ∀ b ∈ peersOf g.id as, b.OfOne) :
    ∃ dealt, (g₁.dealShares r).1 = (.ok (), { g₁ with dealt }) ∧
      dealt.keys = (peersOf g.id as).map Announcement.owner ∧
      List.Forall₂ g₁.DealtFor (peersOf g.id as) dealt.values := by
  have hnone : g₁.foreign? g₁.known.entries = none := by
    rw [foreign?_known hg has, Option.map_eq_none_iff, List.find?_eq_none]
    simpa using hones
  obtain ⟨dealt, hd, hall⟩ := g₁.exists_dealShares r hnone
  rw [(fields_of_core has.core_eq).1, filter_known_eq_peersOf hg has,
    List.forall₂_map_left_iff] at hall
  refine ⟨dealt, hd, (map_eq_map_of_forall₂ hall fun _ _ hs => hs.1.symm).symm, ?_⟩
  rw [Ledger.values, List.forall₂_map_right_iff]
  exact hall.imp fun _ _ hs => hs.2.2.dealtFor hs.2.1

/-- **Everyone else is dealt a share, or nobody is.**  A guardian that was told to deal after it has
learned some announcements goes by the last ones of everyone else.  If one of them carries a foreign
transport key, the first such is named, and the guardian is as it was, with the shares that it had
dealt before.  Otherwise there is exactly one share for each of the others, in the order in which
they first announced.  This is so if all of these were given out by mediators, at whatever time; and
if one mediator gave them out that also knows the guardian, it keeps every share. -/
theorem deal_to_all_or_nobody :
    (∀ a, ((peersOf g.id as).find? fun b => ¬ b.OfOne) = some a →
      (g₁.dealShares r).1 = (.error (.foreignTransportKey a.owner), g₁)) ∧
    ((∀ b ∈ peersOf g.id as, b.OfOne) →
      ∃ dealt, (g₁.dealShares r).1 = (.ok (), { g₁ with dealt }) ∧
        dealt.keys = (peersOf g.id as).map Announcement.owner ∧
        List.Forall₂ g₁.DealtFor (peersOf g.id as) dealt.values) ∧
    ((∀ b ∈ peersOf g.id as, ∃ m, Mediator.Reachable m ∧ m.GivesOut b) →
      ∃ g₂, (g₁.dealShares r).1 = (.ok (), g₂)) ∧
    ∀ m, Mediator.Reachable m → g.id ∈ m.announcers → (∀ b ∈ peersOf g.id as, m.GivesOut b) →
      ∃ dealt, (g₁.dealShares r).1 = (.ok (), { g₁ with dealt }) ∧
        m.receiveShares dealt.values =
          { m with shares := m.shares.insertAll SealedShare.pair dealt.values } ∧
        ∀ s ∈ dealt.values, (m.receiveShares dealt.values).shares.get? s.pair = some s := by
  refine ⟨fun a => dealShares_of_crossed hg has r, exists_dealShares_of_ofOne hg has r,
    fun hgiven => ?_, fun m hm hid hgiven => ?_⟩
  · have hones : ∀ b ∈ peersOf g.id as, b.OfOne := by
      intro b hb
      obtain ⟨m, hm, hb⟩ := hgiven b hb
      exact hb.ofOne hm
    obtain ⟨dealt, hd, -⟩ := exists_dealShares_of_ofOne hg has r hones
    exact ⟨_, hd⟩
  · obtain ⟨dealt, hd, -, hall⟩ :=
      exists_dealShares_of_ofOne hg has r fun b hb => (hgiven b hb).ofOne hm
    have hid₁ : g₁.id = g.id := (fields_of_core has.core_eq).1
    have hreceive :=
      receiveShares_of_givesOut hm (hid₁ ▸ hid) (fun b hb => has.owner_ne hb) hgiven hall
    refine ⟨dealt, hd, hreceive, fun s hs => ?_⟩
    rw [hreceive]
    exact Ledger.get?_insertAll_of_mem
      (nodup_pairs_of_dealtFor hall (nodup_owners_peersOf hg has)) _ hs

end Deal

/-! ### A guardian that deals twice -/

/-- What a third guardian announces, with the transport key of the second. -/
def crossedAccuser : Announcement Suite.standard :=
  Mediator.crossed (Mediator.blankAnnouncement _ "c") (accuser _ 2 2)

/-- A guardian deals to the accuser, whose share the mediator keeps.  Then it learns what the third
one announces, and cannot deal any more, but still has the share. -/
theorem deal_to_accuser_then_to_nobody :
    ∃ (g g₂ : Guardian Suite.standard) (s : SealedShare Suite.standard),
      g.CreatedFor ⟨"ceremony", 2, 2⟩ ∧
      ((g.learn (accuser _ 2 2)).dealShares (⟨1⟩ : SplitMix)).1 = (.ok (), g₂) ∧
      g₂.dealt.values = [s] ∧ s.owner = "a" ∧ s.recipient = "b" ∧ s.order = 2 ∧
      ((disputed g.announcement (accuser _ 2 2)).receiveShares [s]).shares.get? s.pair = some s ∧
      ((g₂.learn crossedAccuser).dealShares (⟨2⟩ : SplitMix)).1 =
        (.error (.foreignTransportKey "c"), g₂.learn crossedAccuser) ∧
      ((g₂.learn crossedAccuser).dealShares (⟨2⟩ : SplitMix)).1.2.dealt.values = [s] := by
  obtain ⟨g, hg, hid, hown, -, hroster⟩ := exists_disputed 2 2 Suite.standard
  have has : g.Learns [accuser _ 2 2] (g.learn (accuser _ 2 2)) := Learns.refl.learn _
  have hpeers : peersOf g.id [accuser Suite.standard 2 2] = [accuser _ 2 2] := by
    rw [hid]
    decide +kernel
  have hgiven : ∀ b ∈ peersOf g.id [accuser Suite.standard 2 2],
      (disputed g.announcement (accuser _ 2 2)).GivesOut b := by
    rw [hpeers]
    exact fun b hb => ⟨_, _, hroster, hb⟩
  obtain ⟨-, hones, -, hkept⟩ := deal_to_all_or_nobody hg has (⟨1⟩ : SplitMix)
  obtain ⟨dealt, hd, -, hstored⟩ := hkept _ (reachable_disputed _ 2 2)
    (Mediator.mem_announcers.mpr (Ledger.mem_keys_of_get? hown)) hgiven
  obtain ⟨dealt', hd', -, hall⟩ :=
    hones fun b hb => (hgiven b hb).ofOne (reachable_disputed _ 2 2)
  rw [hd] at hd'
  cases hd'
  rw [hpeers, List.forall₂_cons_left_iff] at hall
  obtain ⟨s, ss, hs, hnil, hvalues⟩ := hall
  obtain rfl := List.forall₂_nil_left_iff.mp hnil
  rw [hvalues] at hstored
  have has₂ : g.Learns [accuser _ 2 2, crossedAccuser] (_ : Guardian Suite.standard) :=
    (has.deal (deal_eq_ok_iff.mpr hd)).learn crossedAccuser
  obtain ⟨hcrossed, -⟩ := deal_to_all_or_nobody hg has₂ (⟨2⟩ : SplitMix)
  have herror := hcrossed crossedAccuser (by rw [hid]; decide +kernel)
  refine ⟨g, _, s, hg, hd, hvalues, hs.owner.trans hid, hs.recipient, hs.order,
    hstored s (List.mem_singleton_self _), herror, ?_⟩
  rw [herror]
  exact hvalues

end Guardian

end Guardianship
