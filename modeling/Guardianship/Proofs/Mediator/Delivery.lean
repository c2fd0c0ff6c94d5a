import Guardianship.Proofs.Mediator.History
import Guardianship.Proofs.Mediator.Receiving

/-!
# The delivery of shares

All shares together are given in the order in which their pairs first came.  What one guardian is
given is found in another way, by looking for a share from each of the others in the order of their
announcements (`inbox`).  Since every share is filed under its own pair, and both ends of the pair
have announced, the two agree: the inbox of a guardian holds the shares that are addressed to it
(`inbox_perm`), and all inboxes together hold all shares (`flatMap_inbox_perm`).

Main statement: `shares_are_delivered`.
-/

namespace Guardianship.Mediator

variable {S : Suite} {m : Mediator S}

/-- The shares that are filed for a guardian, in the order of their owners' announcements. -/
def inbox (m : Mediator S) (g : String) : List (SealedShare S) :=
  (m.electionKeys.keys.filter fun o => o ≠ g).filterMap fun o => m.shares.get? ⟨o, g⟩

theorem sharesFor_none (ha : m.allAnnounced = true) : m.sharesFor none = some m.shares.values :=
  if_pos ha

theorem sharesFor_some (ha : m.allAnnounced = true) (g : String) :
    m.sharesFor (some g) = some (m.inbox g) := if_pos ha

section Filed

variable (hf : m.Filed)
include hf

/-- Shares are listed by their pairs. -/
theorem map_pair_shares : m.shares.values.map SealedShare.pair = m.shares.keys := by
  have hpairs : m.shares.values.map SealedShare.pair = m.shares.keys.map fun p => p :=
    Ledger.map_values_eq_map_keys fun p s hs => (hf.shares p s hs).1
  rwa [List.map_id'] at hpairs

theorem nodup_shares : m.shares.values.Nodup :=
  List.Nodup.of_map SealedShare.pair (map_pair_shares hf ▸ m.shares.nodup_keys)

theorem mem_shares {s : SealedShare S} :
    s ∈ m.shares.values ↔ m.shares.get? s.pair = some s := by
  rw [Ledger.mem_values]
  constructor
  · rintro ⟨p, hs⟩
    rwa [(hf.shares p s hs).1]
  · exact fun hs => ⟨s.pair, hs⟩

/-- Whoever owns a share, and whoever it is addressed to, has announced. -/
theorem admits_of_mem_shares {s : SealedShare S} (h : s ∈ m.shares.values) :
    m.admits s.pair = true := (hf.shares _ s ((mem_shares hf).mp h)).2

/-- The owners in an inbox are those announcers by whom there is a share. -/
theorem map_owner_inbox (g : String) :
    (m.inbox g).map SealedShare.owner =
      (m.electionKeys.keys.filter fun o => o ≠ g).filter fun o =>
        (m.shares.get? ⟨o, g⟩).isSome := by
  rw [inbox, List.map_filterMap]
  generalize (m.electionKeys.keys.filter fun o => o ≠ g) = os
  rw [← List.filterMap_eq_filter]
  refine List.filterMap_congr fun o _ => ?_
  cases hs : m.shares.get? ⟨o, g⟩ with
  | none => simp [Option.guard, hs]
  | some s =>
    have howner : s.owner = o := congrArg Pair.owner (hf.shares _ s hs).1
    simp [Option.guard, hs, howner]

section Announced

variable (ha : m.allAnnounced = true)
include ha

theorem nodup_inbox (g : String) : (m.inbox g).Nodup :=
  List.Nodup.of_map SealedShare.owner (nodup_sharesFor hf (sharesFor_some ha g))

theorem mem_inbox {g : String} {s : SealedShare S} :
    s ∈ m.inbox g ↔ s ∈ m.shares.values ∧ s.recipient = g := by
  rw [mem_sharesFor hf (sharesFor_some ha g), mem_shares hf, and_comm]
  refine and_congr_left fun hg => ?_
  rw [← hg, SealedShare.pair]

/-- An inbox holds the shares that are addressed to its guardian. -/
theorem inbox_perm (g : String) :
    (m.inbox g).Perm (m.shares.values.filter fun s => s.recipient = g) := by
  refine (List.perm_ext_iff_of_nodup (nodup_inbox hf ha g) ((nodup_shares hf).filter _)).mpr ?_
  intro s
  rw [mem_inbox hf ha, List.mem_filter, decide_eq_true_eq]

/-- Every share is in one of the inboxes, and in one only. -/
theorem flatMap_inbox_perm : (m.electionKeys.keys.flatMap m.inbox).Perm m.shares.values := by
  have hdisjoint : m.electionKeys.keys.Pairwise (Function.onFun List.Disjoint m.inbox) := by
    refine m.electionKeys.nodup_keys.imp fun {g g'} hne s hs hs' => hne ?_
    rw [← ((mem_inbox hf ha).mp hs).2, ← ((mem_inbox hf ha).mp hs').2]
  have hnodup : (m.electionKeys.keys.flatMap m.inbox).Nodup :=
    List.nodup_flatMap.mpr ⟨fun g _ => nodup_inbox hf ha g, hdisjoint⟩
  refine (List.perm_ext_iff_of_nodup hnodup (nodup_shares hf)).mpr fun s => ?_
  rw [List.mem_flatMap]
  constructor
  · rintro ⟨g, -, hs⟩
    exact ((mem_inbox hf ha).mp hs).1
  · intro hs
    have hrecipient := (admits_iff.mp (admits_of_mem_shares hf hs)).2.2
    exact ⟨s.recipient, hrecipient, (mem_inbox hf ha).mpr ⟨hs, rfl⟩⟩

theorem owner_ne_of_mem_inbox {g : String} {s : SealedShare S} (h : s ∈ m.inbox g) :
    s.owner ≠ g := by
  obtain ⟨hs, rfl⟩ := (mem_inbox hf ha).mp h
  exact (admits_iff.mp (admits_of_mem_shares hf hs)).1

/-- Nothing is filed for a stranger. -/
theorem inbox_eq_nil {g : String} (hg : g ∉ m.electionKeys.keys) : m.inbox g = [] := by
  refine List.eq_nil_iff_forall_not_mem.mpr fun s h => hg ?_
  obtain ⟨hs, rfl⟩ := (mem_inbox hf ha).mp h
  exact (admits_iff.mp (admits_of_mem_shares hf hs)).2.2

end Announced

/-- Once every share is in, there is one by each of the others. -/
theorem map_owner_inbox_of_sharesCover (hs : m.SharesCover) {g : String}
    (hg : g ∈ m.electionKeys.keys) :
    (m.inbox g).map SealedShare.owner = m.electionKeys.keys.filter fun o => o ≠ g := by
  rw [map_owner_inbox hf]
  refine List.filter_eq_self.mpr fun o ho => ?_
  obtain ⟨ho, hne⟩ := List.mem_filter.mp ho
  obtain ⟨s, hget, -⟩ :=
    hs o (mem_announcers.mpr ho) g (mem_announcers.mpr hg) (of_decide_eq_true hne)
  rw [hget]
  rfl

end Filed

/-- **Shares are delivered to whom they are addressed and to nobody else.**  What a guardian is
given are those of all shares that are addressed to it, each once, in the order of their owners'
first announcements, and none of its own; a stranger is given nothing.  What all announcers are
given makes up all shares, and once every share is in, each of them is given one by each other. -/
theorem shares_are_delivered {id : String} {terms : Terms} {rs : List (Request S)}
    (hm : rs.foldl apply (start id terms) = m) (ha : m.allAnnounced = true) :
    m.electionKeys.keys = ((announced rs).map Announcement.owner).eraseDups ∧
    m.sharesFor none = some m.shares.values ∧
    (m.shares.values.map SealedShare.pair).Nodup ∧
    (∀ g, m.sharesFor (some g) = some (m.inbox g) ∧
      (m.inbox g).Perm (m.shares.values.filter fun s => s.recipient = g) ∧
      ((m.inbox g).map SealedShare.owner).Sublist m.electionKeys.keys ∧
      (∀ s ∈ m.inbox g, s.owner ≠ g) ∧
      (g ∉ m.electionKeys.keys → m.inbox g = [])) ∧
    (m.electionKeys.keys.flatMap m.inbox).Perm m.shares.values ∧
    (m.allSharesIn = true → m.expected ≤ 2 ^ 32 → ∀ g ∈ m.electionKeys.keys,
      (m.inbox g).map SealedShare.owner = (m.electionKeys.keys.filter fun o => o ≠ g) ∧
      (m.inbox g).length + 1 = m.expected) := by
  have hf : m.Filed := filed_of_run hm
  refine ⟨keys_electionKeys hm, sharesFor_none ha, map_pair_shares hf ▸ m.shares.nodup_keys,
    fun g => ⟨sharesFor_some ha g, inbox_perm hf ha g, ?_,
      fun s => owner_ne_of_mem_inbox hf ha, inbox_eq_nil hf ha⟩,
    flatMap_inbox_perm hf ha, fun hs hn g hg => ?_⟩
  · rw [map_owner_inbox hf]
    exact List.filter_sublist.trans List.filter_sublist
  · obtain ⟨hannounced, hcover⟩ := (allSharesIn_iff hf hn).mp hs
    have howners := map_owner_inbox_of_sharesCover hf hcover hg
    refine ⟨howners, ?_⟩
    rw [← List.length_map (f := SealedShare.owner), howners, Ledger.length_keys_filter_ne hg,
      ← hannounced.card_announcers, announcers, Ledger.card_keys]

/-- Three guardians, whose shares come together with one that goes nowhere and one to its own
owner. -/
def triadRequests : List (Request Suite.standard) :=
  [.announce (blankAnnouncement _ "a"), .announce (blankAnnouncement _ "b"),
    .announce (blankAnnouncement _ "c"),
    .shares [blankShare _ "c" "b", blankShare _ "b" "a", blankShare _ "a" "z",
      blankShare _ "a" "b", blankShare _ "a" "a", blankShare _ "b" "c", blankShare _ "c" "a",
      blankShare _ "a" "c"]]

def triad : Mediator Suite.standard :=
  triadRequests.foldl apply (start "mediator" ⟨"ceremony", 3, 1⟩)

/-- The share of the first guardian comes first in the inbox, though it was sent later. -/
theorem shares_are_delivered_in_triad :
    triad.allAnnounced = true ∧ triad.allSharesIn = true ∧ triad.expected ≤ 2 ^ 32 ∧
    triad.sharesFor (some "b") = some (triad.inbox "b") ∧
    (triad.inbox "b").map SealedShare.owner = ["a", "c"] ∧ triad.inbox "z" = [] := by
  have ha : triad.allAnnounced = true := by decide +kernel
  have hs : triad.allSharesIn = true := by decide +kernel
  have hn : triad.expected ≤ 2 ^ 32 := by decide
  obtain ⟨-, -, -, hgiven, -, hall⟩ := shares_are_delivered (m := triad) rfl ha
  refine ⟨ha, hs, hn, (hgiven "b").1, ?_, (hgiven "z").2.2.2.2 (by decide +kernel)⟩
  exact (hall hs hn "b" (by decide +kernel)).1.trans (by decide +kernel)

end Guardianship.Mediator
