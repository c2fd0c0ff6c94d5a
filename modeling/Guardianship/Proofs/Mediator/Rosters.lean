import Guardianship.Proofs.Mediator.Completion
import Guardianship.Proofs.Mediator.History

/-!
# Rosters

Once everyone has announced, the roster holds one announcement for each guardian, put together from
the two ledgers of keys (`keySets`).  Everyone is given the same roster but for the own entry
(`roster_eq`), in the order in which guardians first announced, and the joint key combines the
election keys in this order (`rosters_are_complete`).

The two keys of an entry are the last ones that name their guardian, which need not have come in
one announcement.  They have if no announcement since the last reset names the guardian with one of
its keys only (`keySets_announced_unless_crossed`).  Announcements that cross, each with the
transport key of the other, are all taken, and no entry of the roster was announced as it stands
(`crossed_announcements_mix`).
-/

namespace Guardianship

variable {S : Suite}

namespace Announcement

/-- Both keys name the same guardian. -/
def OfOne (a : Announcement S) : Prop := a.transport.owner = a.election.owner

/-- One of the keys names a guardian. -/
def Names (a : Announcement S) (o : String) : Prop :=
  a.election.owner = o ∨ a.transport.owner = o

instance (a : Announcement S) : Decidable a.OfOne :=
  inferInstanceAs (Decidable (a.transport.owner = a.election.owner))

instance (a : Announcement S) (o : String) : Decidable (a.Names o) :=
  inferInstanceAs (Decidable (a.election.owner = o ∨ a.transport.owner = o))

end Announcement

namespace Mediator

variable {m : Mediator S}

/-! ### The entries of a roster -/

/-- The keys of everyone who has announced both of them, in the order of the election keys. -/
def keySets (m : Mediator S) : List (Announcement S) :=
  m.electionKeys.entries.filterMap fun e => m.announcementOf? e.2 e.1

/-- When everyone has announced, everyone has announced both keys. -/
theorem exists_transportKey (ha : m.allAnnounced = true) {o : String}
    (h : o ∈ m.electionKeys.keys) : ∃ t, m.transportKeys.get? o = some t := by
  have heq := (allAnnounced_iff.mp ha).announcers_eq
  exact Ledger.mem_keys.mp (mem_carriers.mp (heq ▸ mem_announcers.mpr h))

/-- And so they have with whatever transport key is held. -/
theorem exists_electionKey (ha : m.allAnnounced = true) {o : String}
    (h : o ∈ m.transportKeys.keys) : ∃ k, m.electionKeys.get? o = some k := by
  have heq := (allAnnounced_iff.mp ha).announcers_eq
  exact Ledger.mem_keys.mp (mem_announcers.mp (heq.symm ▸ mem_carriers.mpr h))

section Entries

variable (hf : m.Filed)
include hf

theorem mem_keySets {a : Announcement S} :
    a ∈ m.keySets ↔ m.electionKeys.get? a.owner = some a.election ∧
      m.transportKeys.get? a.owner = some a.transport := by
  simp only [keySets, List.mem_filterMap, announcementOf?, Option.map_eq_some_iff,
    Ledger.get?_eq_some_iff]
  constructor
  · rintro ⟨⟨o, k⟩, he, t, ht, rfl⟩
    obtain rfl : k.owner = o := hf.electionKeys o k (Ledger.get?_eq_some_iff.mpr he)
    exact ⟨he, ht⟩
  · rintro ⟨he, ht⟩
    exact ⟨(a.owner, a.election), he, a.transport, ht, rfl⟩

theorem ofOne_of_mem_keySets {a : Announcement S} (h : a ∈ m.keySets) : a.OfOne :=
  hf.transportKeys _ _ ((mem_keySets hf).mp h).2

variable (ha : m.allAnnounced = true)
include ha

/-- No election key is left out. -/
theorem map_keySets : (m.keySets.map fun a => (a.owner, a.election)) = m.electionKeys.entries := by
  rw [keySets, List.map_filterMap]
  refine (List.filterMap_congr fun e he => ?_).trans List.filterMap_some
  have hget := Ledger.get?_eq_some_iff.mpr he
  obtain ⟨t, ht⟩ := exists_transportKey ha (Ledger.mem_keys_of_get? hget)
  rw [announcementOf?, ht, Option.map_some, Option.map_some, Announcement.owner,
    hf.electionKeys _ _ hget]

theorem map_owner_keySets : m.keySets.map Announcement.owner = m.electionKeys.keys := by
  rw [Ledger.keys, ← map_keySets hf ha, List.map_map]
  rfl

theorem map_election_keySets : m.keySets.map Announcement.election = m.electionKeys.values := by
  rw [Ledger.values, ← map_keySets hf ha, List.map_map]
  rfl

theorem length_keySets : m.keySets.length = m.expected := by
  rw [← (allAnnounced_iff.mp ha).card_announcers, announcers, Ledger.card_keys,
    ← Ledger.length_keys, ← map_owner_keySets hf ha, List.length_map]

/-- Everyone is given the same roster but for the own entry. -/
theorem roster_eq (requester : Option String) :
    m.roster requester = some (m.keySets.filter fun a => some a.owner ≠ requester) := by
  rw [roster, if_pos ha, keySets, List.filter_filterMap, List.filterMap_filter]
  refine congrArg some (List.filterMap_congr fun e he => ?_)
  have hget := Ledger.get?_eq_some_iff.mpr he
  obtain ⟨t, ht⟩ := exists_transportKey ha (Ledger.mem_keys_of_get? hget)
  have howner := hf.electionKeys _ _ hget
  by_cases hr : some e.1 = requester <;>
    simp [announcementOf?, ht, Announcement.owner, howner, hr, Option.filter]

theorem roster_none : m.roster none = some m.keySets := by
  rw [roster_eq hf ha]
  simp

theorem length_filter_keySets {g : String} (hg : g ∈ m.electionKeys.keys) :
    (m.keySets.filter fun a => a.owner ≠ g).length + 1 = m.expected := by
  have hlength : (m.keySets.filter fun a => a.owner ≠ g).length =
      ((m.keySets.map Announcement.owner).filter fun o => o ≠ g).length := by
    rw [List.filter_map, List.length_map]
    rfl
  rw [hlength, map_owner_keySets hf ha, Ledger.length_keys_filter_ne hg, ← Ledger.length_keys,
    ← map_owner_keySets hf ha, List.length_map, length_keySets hf ha]

theorem filter_keySets_of_notMem {g : String} (hg : g ∉ m.electionKeys.keys) :
    (m.keySets.filter fun a => a.owner ≠ g) = m.keySets := by
  refine List.filter_eq_self.mpr fun a hmem => decide_eq_true fun hag => hg ?_
  rw [← map_owner_keySets hf ha, ← hag]
  exact List.mem_map_of_mem hmem

end Entries

/-! ### What rosters say of the announcements -/

section Run

variable {id : String} {terms : Terms} {rs : List (Request S)}
  (hm : rs.foldl apply (start id terms) = m)
include hm

/-- The keys of an entry are the last ones that name its owner. -/
theorem last?_of_mem_keySets {a : Announcement S} (h : a ∈ m.keySets) :
    Ledger.last? ElectionKey.owner ((announced rs).map Announcement.election) a.owner =
        some a.election ∧
      Ledger.last? TransportKey.owner ((announced rs).map Announcement.transport) a.owner =
        some a.transport := by
  rw [← get?_electionKeys hm, ← get?_transportKeys hm]
  exact (mem_keySets (filed_of_run hm)).mp h

/-- **Everyone is given the same complete roster.**  Once everyone has announced, it has one entry
for each guardian, in the order in which their election keys first came since the last reset, with
the keys of both kinds that name the guardian last.  A guardian who asks is given the others, and a
stranger all of them; and the joint key combines the election keys in the order of the roster. -/
theorem rosters_are_complete (ha : m.allAnnounced = true) :
    ∃ as, m.roster none = some as ∧ as.length = m.expected ∧
      as.map Announcement.owner = ((announced rs).map Announcement.owner).eraseDups ∧
      (∀ a ∈ as, a.transport.owner = a.election.owner ∧
        Ledger.last? ElectionKey.owner ((announced rs).map Announcement.election) a.owner =
          some a.election ∧
        Ledger.last? TransportKey.owner ((announced rs).map Announcement.transport) a.owner =
          some a.transport) ∧
      (∀ g, m.roster (some g) = some (as.filter fun a => a.owner ≠ g)) ∧
      (∀ g, (∃ a ∈ announced rs, a.owner = g) →
        (as.filter fun a => a.owner ≠ g).length + 1 = m.expected) ∧
      (∀ g, (∀ a ∈ announced rs, a.owner ≠ g) → m.roster (some g) = some as) ∧
      ∀ k, m.jointKey? = some k → k = JointKey.combine (as.map Announcement.election) := by
  have hf := filed_of_run hm
  have hsome : ∀ g, m.roster (some g) = some (m.keySets.filter fun a => a.owner ≠ g) := by
    intro g
    rw [roster_eq hf ha]
    simp
  refine ⟨m.keySets, roster_none hf ha, length_keySets hf ha, ?_, fun a hmem => ?_, hsome, ?_, ?_,
    ?_⟩
  · rw [map_owner_keySets hf ha, keys_electionKeys hm]
  · exact ⟨ofOne_of_mem_keySets hf hmem, last?_of_mem_keySets hm hmem⟩
  · intro g hg
    exact length_filter_keySets hf ha ((mem_keys_electionKeys hm).mpr hg)
  · intro g hg
    have hnot : g ∉ m.electionKeys.keys := by
      rw [mem_keys_electionKeys hm]
      rintro ⟨a, hmem, howner⟩
      exact hg a hmem howner
    rw [hsome, filter_keySets_of_notMem hf ha hnot]
  · intro k hk
    rw [map_election_keySets hf ha, (jointKey?_eq_some_iff.mp hk).2]

end Run

/-- Two guardians announce after a reset and find each other's shares good; then the first of them
announces again, for another place. -/
def repeatedRequests : List (Request Suite.standard) :=
  [.announce (blankAnnouncement _ "b"), .reset ⟨"ceremony", 2, 1⟩] ++
    pairRequests (blankAnnouncement _ "a") (blankAnnouncement _ "b") ++
    [.announce movedAnnouncement]

def repeatedPair : Mediator Suite.standard :=
  repeatedRequests.foldl apply (start "mediator" ⟨"ceremony", 2, 1⟩)

/-- The first one stays first, with its new key, and the second one is given just this entry.  A joint
key is published, and it combines the two keys of the roster. -/
theorem rosters_are_complete_in_repeatedPair :
    repeatedPair.allAnnounced = true ∧ repeatedPair.stage = .verified ∧
      ∃ as k, repeatedPair.roster none = some as ∧ as.map Announcement.owner = ["a", "b"] ∧
        repeatedPair.roster (some "b") = some (as.filter fun a => a.owner ≠ "b") ∧
        (as.filter fun a => a.owner ≠ "b").length = 1 ∧
        repeatedPair.roster (some "c") = some as ∧
        repeatedPair.jointKey? = some k ∧
        k = JointKey.combine (as.map Announcement.election) ∧
        movedAnnouncement.election ∈ as.map Announcement.election := by
  have ha : repeatedPair.allAnnounced = true := by decide +kernel
  have hgood : repeatedPair.allGood = true := by decide +kernel
  have hk : repeatedPair.jointKey? = some (JointKey.combine _) := if_pos hgood
  obtain ⟨as, hroster, -, howners, hlatest, hothers, hlength, hstranger, hkey⟩ :=
    rosters_are_complete (m := repeatedPair) rfl ha
  have hab : as.map Announcement.owner = ["a", "b"] := howners.trans (by decide +kernel)
  refine ⟨ha, stage_eq_verified_iff.mpr hgood, as, _, hroster, hab, hothers "b", ?_,
    hstranger "c" (by decide +kernel), hk, hkey _ hk, ?_⟩
  · exact Nat.succ.inj (hlength "b" (by decide +kernel))
  · obtain ⟨a, hmem, howner⟩ := List.mem_map.mp (hab ▸ List.mem_cons_self : "a" ∈ _)
    obtain ⟨-, helection, -⟩ := hlatest a hmem
    have hmoved : Ledger.last? ElectionKey.owner
        ((announced repeatedRequests).map Announcement.election) "a" =
          some movedAnnouncement.election := by decide +kernel
    rw [howner, hmoved] at helection
    exact List.mem_map.mpr ⟨a, hmem, (Option.some.inj helection).symm⟩

/-! ### Keys that were announced together -/

/-- When everyone has announced, nobody who is known can change that. -/
theorem allAnnounced_announce (ha : m.allAnnounced = true) {b : Announcement S}
    (hknown : ¬ m.Newcomer b) : (m.announce b).allAnnounced = true := by
  have hreset : ∀ terms, Request.reset terms ∉ [Request.announce b] := by simp
  have hiff := everyoneAnnounced_foldl_apply_iff hreset (allAnnounced_iff.mp ha)
  refine allAnnounced_iff.mpr (hiff.mpr fun a hmem => ?_)
  rwa [List.mem_singleton.mp hmem]

section Run

variable {id : String} {terms : Terms} {rs : List (Request S)}
  (hm : rs.foldl apply (start id terms) = m)
include hm

/-- An entry is the last announcement that names its owner with either key, if this one names the
owner with both. -/
theorem eq_last_names_iff {a b : Announcement S} (h : a ∈ m.keySets)
    (hlast : ((announced rs).filter fun b => b.Names a.owner).getLast? = some b) :
    a = b ↔ b.OfOne := by
  constructor
  · rintro rfl
    exact ofOne_of_mem_keySets (filed_of_run hm) h
  · intro hb
    have hnames : b.Names a.owner :=
      of_decide_eq_true (List.mem_filter.mp (List.mem_of_getLast? hlast)).2
    have helection : b.election.owner = a.owner := by
      rcases hnames with he | ht
      · exact he
      · exact hb.symm.trans ht
    obtain ⟨he, ht⟩ := last?_of_mem_keySets hm h
    rw [Ledger.last?_map hlast helection fun _ => Or.inl] at he
    rw [Ledger.last?_map hlast (hb.trans helection) fun _ => Or.inr] at ht
    exact (congrArg₂ Announcement.mk (Option.some.inj he) (Option.some.inj ht)).symm

/-- An entry that was not announced as it stands has an owner whom somebody named with one key
only. -/
theorem exists_crossed_of_notMem {a : Announcement S} (h : a ∈ m.keySets)
    (hnot : a ∉ announced rs) : ∃ b ∈ announced rs, b.Names a.owner ∧ ¬ b.OfOne := by
  obtain ⟨c, hc, howner⟩ := (mem_keys_electionKeys hm).mp
    (Ledger.mem_keys_of_get? ((mem_keySets (filed_of_run hm)).mp h).1)
  have hmem : c ∈ (announced rs).filter fun b => b.Names a.owner :=
    List.mem_filter.mpr ⟨hc, decide_eq_true (Or.inl howner)⟩
  obtain ⟨b, hlast⟩ := Option.isSome_iff_exists.mp
    (List.getLast?_isSome.mpr (List.ne_nil_of_mem hmem))
  obtain ⟨hb, hnames⟩ := List.mem_filter.mp (List.mem_of_getLast? hlast)
  refine ⟨b, hb, of_decide_eq_true hnames, fun hone => hnot ?_⟩
  rwa [(eq_last_names_iff hm h hlast).mpr hone]

/-- Two guardians who are known are crossed: if one of the keys is new, the roster has an entry with
this key that nobody announced. -/
theorem exists_unannounced (ha : m.allAnnounced = true) {b : Announcement S} (hb : ¬ b.OfOne)
    (hknown : ¬ m.Newcomer b) :
    ∃ as, (m.announce b).roster none = some as ∧
      ((∀ a ∈ announced rs, a.election ≠ b.election) →
        ∃ a ∈ as, a.election = b.election ∧ a ∉ announced (rs ++ [.announce b])) ∧
      ((∀ a ∈ announced rs, a.transport ≠ b.transport) →
        ∃ a ∈ as, a.transport = b.transport ∧ a ∉ announced (rs ++ [.announce b])) := by
  have hf : (m.announce b).Filed := (filed_of_run hm).announce b
  have hannounced := allAnnounced_announce ha hknown
  -- an entry is of one guardian, so it is not the crossed announcement
  have hnot : ∀ a ∈ (m.announce b).keySets, a ∉ announced rs →
      a ∉ announced (rs ++ [.announce b]) := by
    intro a hmem hold
    rw [announced_concat, List.mem_append, List.mem_singleton]
    rintro (h | rfl)
    · exact hold h
    · exact hb (ofOne_of_mem_keySets hf hmem)
  have helection : (m.announce b).electionKeys.get? b.owner = some b.election :=
    Ledger.get?_insert_self ..
  have htransport : (m.announce b).transportKeys.get? b.transport.owner = some b.transport :=
    Ledger.get?_insert_self ..
  refine ⟨_, roster_none hf hannounced, fun hfresh => ?_, fun hfresh => ?_⟩
  · obtain ⟨t, ht⟩ := exists_transportKey hannounced (Ledger.mem_keys_of_get? helection)
    have hmem : ⟨b.election, t⟩ ∈ (m.announce b).keySets := (mem_keySets hf).mpr ⟨helection, ht⟩
    exact ⟨_, hmem, rfl, hnot _ hmem fun hold => hfresh _ hold rfl⟩
  · obtain ⟨k, hk⟩ := exists_electionKey hannounced (Ledger.mem_keys_of_get? htransport)
    have howner : k.owner = b.transport.owner := hf.electionKeys _ k hk
    have hmem : ⟨k, b.transport⟩ ∈ (m.announce b).keySets := by
      refine (mem_keySets hf).mpr ?_
      rw [Announcement.owner, howner]
      exact ⟨hk, htransport⟩
    exact ⟨_, hmem, rfl, hnot _ hmem fun hold => hfresh _ hold rfl⟩

end Run

/-- **What a roster pairs was announced as a pair, unless announcements cross.**  The keys of an
entry both name its owner and are the last of their kinds to do so.  The entry is the owner's last
announcement exactly if this one has both keys of the owner, and if it was not announced as it
stands, somebody has named its owner with one key only.  Whoever crosses two guardians once everyone
has announced makes an entry that was not announced, with each of the keys that is new. -/
theorem keySets_announced_unless_crossed {id : String} {terms : Terms} {rs : List (Request S)}
    (hm : rs.foldl apply (start id terms) = m) :
    (∀ requester as, m.roster requester = some as → ∀ a ∈ as,
      a.OfOne ∧
      Ledger.last? ElectionKey.owner ((announced rs).map Announcement.election) a.owner =
        some a.election ∧
      Ledger.last? TransportKey.owner ((announced rs).map Announcement.transport) a.owner =
        some a.transport ∧
      (∀ b, ((announced rs).filter fun b => b.Names a.owner).getLast? = some b →
        (a = b ↔ b.OfOne)) ∧
      (a ∈ announced rs ∨ ∃ b ∈ announced rs, b.Names a.owner ∧ ¬ b.OfOne)) ∧
    (m.allAnnounced = true → ∀ b : Announcement S, ¬ b.OfOne → ¬ m.Newcomer b →
      ∃ as, (m.announce b).roster none = some as ∧
        ((∀ a ∈ announced rs, a.election ≠ b.election) →
          ∃ a ∈ as, a.election = b.election ∧ a ∉ announced (rs ++ [.announce b])) ∧
        ((∀ a ∈ announced rs, a.transport ≠ b.transport) →
          ∃ a ∈ as, a.transport = b.transport ∧ a ∉ announced (rs ++ [.announce b]))) := by
  refine ⟨fun requester as h a hmem => ?_, fun ha _ hb hknown =>
    exists_unannounced hm ha hb hknown⟩
  have hf := filed_of_run hm
  have hentry : a ∈ m.keySets := by
    have hroster := roster_eq hf (allAnnounced_of_roster h) requester
    rw [h] at hroster
    obtain rfl := Option.some.inj hroster
    exact List.mem_of_mem_filter hmem
  obtain ⟨he, ht⟩ := last?_of_mem_keySets hm hentry
  refine ⟨ofOne_of_mem_keySets hf hentry, he, ht, fun b hlast => eq_last_names_iff hm hentry hlast,
    ?_⟩
  exact or_iff_not_imp_left.mpr (exists_crossed_of_notMem hm hentry)

/-- The election key of one announcement with the transport key of another. -/
def crossed (a b : Announcement S) : Announcement S := ⟨a.election, b.transport⟩

/-- Two guardians announce, each with the transport key of the other. -/
def crossedPair : List (Request Suite.standard) :=
  [.announce (crossed (blankAnnouncement _ "a") (blankAnnouncement _ "b")),
    .announce (crossed (blankAnnouncement _ "b") (blankAnnouncement _ "a"))]

theorem crossed_announcements_mix :
    ∃ as, (crossedPair.foldl apply (start "mediator" ⟨"ceremony", 2, 1⟩)).roster none = some as ∧
      as = [blankAnnouncement _ "a", blankAnnouncement _ "b"] ∧
      ∀ a ∈ as, a ∉ announced crossedPair :=
  ⟨_, by decide +kernel, rfl, by decide +kernel⟩

/-- The first of the two announces again, with a transport key in the name of the second. -/
def crossedAnnouncement : Announcement Suite.standard :=
  ⟨movedAnnouncement.election, ⟨"b", 1, .ofNatLE 1⟩⟩

/-- Nothing is crossed at first, so what the second guardian is given was announced.  Then the first
one announces a transport key in its name, and the entry with this key was not announced. -/
theorem keySets_announced_in_repeatedPair :
    (∃ as, repeatedPair.roster (some "b") = some as ∧ movedAnnouncement ∈ as ∧
      movedAnnouncement ∈ announced repeatedRequests) ∧
    ∃ as, (repeatedPair.announce crossedAnnouncement).roster none = some as ∧
      ∃ a ∈ as, a.transport = crossedAnnouncement.transport ∧
        a ∉ announced (repeatedRequests ++ [.announce crossedAnnouncement]) := by
  obtain ⟨hgiven, hcrossed⟩ := keySets_announced_unless_crossed (m := repeatedPair) rfl
  have hb : ¬ crossedAnnouncement.OfOne := by decide +kernel
  have hknown : ¬ repeatedPair.Newcomer crossedAnnouncement := by
    unfold Newcomer
    decide +kernel
  refine ⟨⟨[movedAnnouncement], by decide +kernel, List.mem_singleton_self _, ?_⟩, ?_⟩
  · obtain ⟨-, -, -, -, hmem | ⟨b, hb, hnames, hnot⟩⟩ :=
      hgiven (some "b") [movedAnnouncement] (by decide +kernel) _ (List.mem_singleton_self _)
    · exact hmem
    · have hone : ∀ b ∈ announced repeatedRequests, b.OfOne := by decide +kernel
      exact absurd (hone b hb) hnot
  · obtain ⟨as, hroster, -, htransport⟩ := hcrossed (by decide +kernel) _ hb hknown
    exact ⟨as, hroster, htransport (by decide +kernel)⟩

end Mediator

end Guardianship
