import Guardianship.Proofs.Guardian.Places

/-!
# Whether all shares have arrived

A guardian that knows all others takes the shares for complete by counting their owners
(`allReceived`), but it keeps whatever is addressed to it, also what it sends itself or gets from
someone unknown.  So what it counts is whether as many shares are outstanding as have come from
where none is expected (`allReceived_iff_card`), and the test says that everyone else has sent a
share exactly if nothing unexpected has come, or not as much as is outstanding
(`test_covers_peers_iff`).  With a share to itself in place of another's the test passes
(`own_share_stands_for_peer`).

`Receives` says what can happen to a guardian while some shares arrive.
-/

namespace Guardianship.Guardian

variable {S : Suite}

/-- From one guardian to another, in any steps in which these shares arrive. -/
inductive Receives (g : Guardian S) : List (SealedShare S) → Guardian S → Prop
  | refl : Receives g [] g
  | learn {ss : List (SealedShare S)} {g' : Guardian S} (a : Announcement S) :
      Receives g ss g' → Receives g ss (g'.learn a)
  | deal {ρ : Type} [RandomSource ρ] {ss : List (SealedShare S)} {g' g'' : Guardian S} {r : ρ}
      (dealt : (g'.deal r).1 = .ok g'') : Receives g ss g' → Receives g ss g''
  | accept {ss : List (SealedShare S)} {g' : Guardian S} (s : SealedShare S) :
      Receives g ss g' → Receives g (ss ++ [s]) (g'.accept s)

namespace Receives

variable {g g' : Guardian S} {ss : List (SealedShare S)}

theorem core_eq (h : g.Receives ss g') : g'.core = g.core := by
  induction h with
  | refl => rfl
  | learn a _ ih => exact ih
  | deal dealt _ ih =>
    rw [eq_of_deal dealt]
    exact ih
  | accept s _ ih => rw [core_accept, ih]

theorem id_eq (h : g.Receives ss g') : g'.id = g.id := (fields_of_core h.core_eq).1

/-- Who is known stays known. -/
theorem mem_known (h : g.Receives ss g') {id : String} (hid : id ∈ g.known.keys) :
    id ∈ g'.known.keys := by
  induction h with
  | refl => exact hid
  | learn a _ ih => exact Ledger.mem_keys_insert.mpr (.inr ih)
  | deal dealt _ ih =>
    rw [eq_of_deal dealt]
    exact ih
  | accept s _ ih => rwa [known_accept]

/-- Those shares are kept that are addressed to the guardian. -/
theorem mem_received (h : g.Receives ss g') {id : String} :
    id ∈ g'.received.keys ↔
      id ∈ g.received.keys ∨ ∃ s ∈ ss, s.recipient = g.id ∧ s.owner = id := by
  induction h with
  | refl => simp
  | learn a _ ih => exact ih
  | deal dealt _ ih =>
    rw [eq_of_deal dealt]
    exact ih
  | @accept ss g' s h ih =>
    rw [Guardian.accept, h.id_eq]
    split_ifs with hs
    · rw [Ledger.mem_keys_insert, ih]
      simp only [List.mem_append, List.mem_singleton, or_and_right, exists_or,
        exists_eq_left, hs, true_and]
      rw [← or_assoc, ← or_assoc, or_comm (a := id = s.owner), or_right_comm, eq_comm]
    · rw [ih]
      simp only [List.mem_append, List.mem_singleton, or_and_right, exists_or,
        exists_eq_left, hs, false_and, or_false]

end Receives

/-! ### Counting -/

/-- The other guardians that are known. -/
def peers (g : Guardian S) : Finset String := g.known.keys.toFinset.erase g.id

/-- Those who own a share that has been received. -/
def senders (g : Guardian S) : Finset String := g.received.keys.toFinset

/-- The peers whose shares are outstanding. -/
def awaited (g : Guardian S) : Finset String := g.peers \ g.senders

/-- The senders of whom no share is expected: the guardian itself, and strangers. -/
def unexpected (g : Guardian S) : Finset String := g.senders \ g.peers

theorem mem_senders {g : Guardian S} {id : String} : id ∈ g.senders ↔ id ∈ g.received.keys :=
  List.mem_toFinset

/-- There are as many peers as take part besides the guardian, if it knows itself and all others. -/
theorem card_peers {g : Guardian S} (hself : g.id ∈ g.known.keys) (hknown : g.allKnown = true) :
    g.peers.card + 1 = g.terms.guardians.toNat := by
  have hsize : g.known.size = g.terms.guardians.toNat := beq_iff_eq.mp hknown
  rw [peers, Finset.card_erase_add_one (List.mem_toFinset.mpr hself), Ledger.card_keys, hsize]

/-- The test compares what is outstanding with what has come unexpectedly. -/
theorem allReceived_iff_card {g : Guardian S} (hself : g.id ∈ g.known.keys)
    (hknown : g.allKnown = true) :
    g.allReceived = true ↔ g.awaited.card = g.unexpected.card := by
  have hpeers := card_peers hself hknown
  have hsenders : g.senders.card = g.received.size := Ledger.card_keys _
  rw [allReceived, beq_iff_eq, ← hpeers, ← hsenders, Nat.add_right_cancel_iff, eq_comm]
  exact Finset.card_sdiff_eq_card_sdiff_iff.symm

/-! ### What the test says -/

/-- A share has come from everyone else who is known. -/
def AllArrived (g : Guardian S) (ss : List (SealedShare S)) : Prop :=
  ∀ id ∈ g.peers, ∃ s ∈ ss, s.recipient = g.id ∧ s.owner = id

section Created

variable {terms : Terms} {g g' : Guardian S} {ss : List (SealedShare S)}
  (hg : g.CreatedFor terms) (h : g.Receives ss g')
include hg h

theorem id_mem_known : g'.id ∈ g'.known.keys := by
  obtain ⟨id, order, p, secret, rfl⟩ := hg.exists_ofSecrets
  rw [h.id_eq]
  exact h.mem_known (Ledger.mem_keys_insert.mpr (.inl rfl))

theorem mem_senders_iff {id : String} :
    id ∈ g'.senders ↔ ∃ s ∈ ss, s.recipient = g'.id ∧ s.owner = id := by
  rw [mem_senders, h.mem_received, h.id_eq]
  refine or_iff_right ?_
  obtain ⟨id', order, p, secret, rfl⟩ := hg.exists_ofSecrets
  exact List.not_mem_nil

theorem allArrived_iff : g'.AllArrived ss ↔ g'.awaited = ∅ := by
  rw [awaited, Finset.sdiff_eq_empty_iff_subset, AllArrived]
  exact forall₂_congr fun id _ => (mem_senders_iff hg h).symm

theorem unexpected_eq_empty_iff :
    g'.unexpected = ∅ ↔ ∀ s ∈ ss, s.recipient = g'.id → s.owner ∈ g'.peers := by
  rw [unexpected, Finset.sdiff_eq_empty_iff_subset]
  constructor
  · exact fun hsub s hs hrecipient =>
      hsub ((mem_senders_iff hg h).mpr ⟨s, hs, hrecipient, rfl⟩)
  · rintro hexpected id hid
    obtain ⟨s, hs, hrecipient, rfl⟩ := (mem_senders_iff hg h).mp hid
    exact hexpected s hs hrecipient

/-- **What a guardian's own test for completeness says.**  It compares how many peers' shares are
outstanding with how many senders are unexpected; so it says that all have arrived exactly if no
sender is unexpected, or if some shares are outstanding but not as many. -/
theorem test_covers_peers_iff (hknown : g'.allKnown = true) :
    (g'.allReceived = true ↔ g'.awaited.card = g'.unexpected.card) ∧
    ((g'.allReceived = true ↔ g'.AllArrived ss) ↔
      g'.unexpected = ∅ ∨ g'.awaited ≠ ∅ ∧ g'.awaited.card ≠ g'.unexpected.card) ∧
    (g'.unexpected = ∅ ↔ ∀ s ∈ ss, s.recipient = g'.id → s.owner ∈ g'.peers) := by
  have hcard := allReceived_iff_card (id_mem_known hg h) hknown
  refine ⟨hcard, ?_, unexpected_eq_empty_iff hg h⟩
  rw [hcard, allArrived_iff hg h]
  by_cases hnone : g'.unexpected = ∅
  · simp [hnone]
  · by_cases hall : g'.awaited = ∅
    · -- all have arrived, but the test counts someone unexpected
      have hne : g'.unexpected.card ≠ 0 := fun h0 => hnone (Finset.card_eq_zero.mp h0)
      simp [hnone, hall, hne.symm]
    · simp [hnone, hall]

end Created

/-! ### Two guardians -/

/-- A share for the first guardian, whoever owns it. -/
def shareFrom (owner : String) : SealedShare Suite.standard := ⟨owner, "a", 1, [], []⟩

/-- The first guardian gets to know the second, and then a share arrives. -/
theorem exists_receives_shareFrom (owner : String) :
    ∃ g g' : Guardian Suite.standard, g.CreatedFor ⟨"ceremony", 2, 2⟩ ∧
      g.Receives ([] ++ [shareFrom owner]) g' ∧ g'.id = "a" ∧ g'.allKnown = true ∧
      g'.allReceived = true ∧ g'.peers = {"b"} := by
  obtain ⟨g, -, hg, hid, -⟩ := exists_deal_announcementAt 2
  obtain ⟨p, secret, rfl, -⟩ := of_create hg
  have hlearns := (Receives.refl (g := ofSecrets "a" 1 ⟨"ceremony", 2, 2⟩ p secret)).learn
    (announcementAt 2)
  exact ⟨_, _, ⟨_, _, _, _, _, hg⟩, hlearns.accept (shareFrom owner), rfl, rfl, rfl, rfl⟩

/-- A guardian that sends itself a share takes it for the one of its only peer. -/
theorem own_share_stands_for_peer :
    ∃ g g' : Guardian Suite.standard, g.CreatedFor ⟨"ceremony", 2, 2⟩ ∧
      g.Receives [shareFrom "a"] g' ∧ g'.allKnown = true ∧
      ¬ (g'.allReceived = true ↔ g'.AllArrived [shareFrom "a"]) := by
  obtain ⟨g, g', hg, h, hid, hknown, hall, hpeers⟩ := exists_receives_shareFrom "a"
  refine ⟨g, g', hg, h, hknown, fun hiff => ?_⟩
  obtain ⟨s, hs, -, howner⟩ := hiff.mp hall "b" (by rw [hpeers]; exact Finset.mem_singleton_self _)
  obtain rfl := List.mem_singleton.mp hs
  exact absurd howner (by decide)

/-- The share of the peer completes the shares, and the test says so. -/
theorem test_covers_only_peer :
    ∃ g g' : Guardian Suite.standard, g.CreatedFor ⟨"ceremony", 2, 2⟩ ∧
      g.Receives ([] ++ [shareFrom "b"]) g' ∧ g'.allKnown = true ∧ g'.unexpected = ∅ ∧
      (g'.allReceived = true ↔ g'.AllArrived ([] ++ [shareFrom "b"])) := by
  obtain ⟨g, g', hg, h, hid, hknown, -, hpeers⟩ := exists_receives_shareFrom "b"
  obtain ⟨-, htest, hexpected⟩ := test_covers_peers_iff hg h hknown
  have hnone : g'.unexpected = ∅ := by
    refine hexpected.mpr fun s hs _ => ?_
    obtain rfl := List.mem_singleton.mp hs
    rw [hpeers]
    exact Finset.mem_singleton_self _
  exact ⟨g, g', hg, h, hknown, hnone, htest.mpr (.inl hnone)⟩

end Guardianship.Guardian
