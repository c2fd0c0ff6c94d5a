import Guardianship.Proofs.Guardian.Dealing

/-!
# Where a guardian files messages

`Reachable` says which guardians arise when a created one learns announcements, deals, and accepts
shares, in any order and from anyone.  All of them have filed announcements under those who made
them, and shares that are addressed to them under their owners (`Reachable.filed`).  So a verdict on
an owner is a verdict on the share that is filed under it (`get?_of_mem_verdicts`), and a good one
says that the share was opened, agrees with what the owner announced, and is for the guardian's own
place in the order (`judge_good_iff`).
-/

namespace Guardianship.Guardian

variable {S : Suite}

/-! ### What does not change -/

/-- The guardian without the messages that it holds. -/
def core (g : Guardian S) : Guardian S :=
  { g with known := .empty, dealt := .empty, received := .empty }

theorem fields_of_core {g g' : Guardian S} (h : g.core = g'.core) :
    g.id = g'.id ∧ g.order = g'.order ∧ g.polynomial = g'.polynomial ∧ g.secret = g'.secret := by
  simp only [core, Guardian.mk.injEq] at h
  exact ⟨h.1, h.2.1, h.2.2.2.1, h.2.2.2.2.1⟩

theorem announcement_of_core {g g' : Guardian S} (h : g.core = g'.core) :
    g.announcement = g'.announcement :=
  show g.core.announcement = g'.core.announcement by rw [h]

@[simp] theorem core_learn (g : Guardian S) (a : Announcement S) : (g.learn a).core = g.core := rfl

@[simp] theorem core_accept (g : Guardian S) (s : SealedShare S) : (g.accept s).core = g.core := by
  unfold accept
  split_ifs <;> rfl

theorem foldl_learn : ∀ (as : List (Announcement S)) (g : Guardian S),
    as.foldl learn g = { g with known := g.known.insertAll Announcement.owner as }
  | [], _ => rfl
  | a :: as, g => foldl_learn as (g.learn a)

theorem core_foldl_accept : ∀ (ss : List (SealedShare S)) (g : Guardian S),
    (ss.foldl accept g).core = g.core
  | [], _ => rfl
  | s :: ss, g => by rw [List.foldl_cons, core_foldl_accept ss, core_accept]

theorem foldl_accept : ∀ (ss : List (SealedShare S)) (g : Guardian S),
    (∀ s ∈ ss, s.recipient = g.id) →
      ss.foldl accept g = { g with received := g.received.insertAll SealedShare.owner ss }
  | [], _, _ => rfl
  | s :: ss, g, h => by
    rw [List.foldl_cons, accept, if_pos (h s List.mem_cons_self)]
    exact foldl_accept ss _ fun t ht => h t (List.mem_cons_of_mem _ ht)

@[simp] theorem known_accept (g : Guardian S) (s : SealedShare S) :
    (g.accept s).known = g.known := by
  unfold accept
  split_ifs <;> rfl

theorem get?_known_learn (g : Guardian S) (a : Announcement S) (id : String) :
    (g.learn a).known.get? id = if a.owner = id then some a else g.known.get? id :=
  Ledger.get?_insert _ _ _ _

theorem get?_received_accept {g : Guardian S} {s : SealedShare S} (hs : s.recipient = g.id)
    (id : String) :
    (g.accept s).received.get? id = if s.owner = id then some s else g.received.get? id := by
  unfold accept
  rw [if_pos hs]
  exact Ledger.get?_insert _ _ _ _

/-! ### Filing -/

/-- The guardians that arise from a created one. -/
inductive Reachable : Guardian S → Prop
  | create {ρ : Type} [RandomSource ρ] {id : String} {order : UInt64} {terms : Terms} {r : ρ}
      {g : Guardian S} (created : (create id order terms r).1 = .ok g) : Reachable g
  | learn {g : Guardian S} (a : Announcement S) : Reachable g → Reachable (g.learn a)
  | deal {ρ : Type} [RandomSource ρ] {g g' : Guardian S} {r : ρ}
      (dealt : (g.deal r).1 = .ok g') : Reachable g → Reachable g'
  | accept {g : Guardian S} (s : SealedShare S) : Reachable g → Reachable (g.accept s)

/-- Announcements are filed under those who made them, and shares under their owners. -/
structure Filed (g : Guardian S) : Prop where
  known : ∀ id a, g.known.get? id = some a → a.owner = id
  received : ∀ id s, g.received.get? id = some s → s.owner = id ∧ s.recipient = g.id

theorem Filed.learn {g : Guardian S} (h : g.Filed) (a : Announcement S) : (g.learn a).Filed := by
  refine ⟨fun id b hb => ?_, h.received⟩
  rw [get?_known_learn] at hb
  split_ifs at hb with heq
  · cases hb
    exact heq
  · exact h.known id b hb

theorem Filed.accept {g : Guardian S} (h : g.Filed) (s : SealedShare S) : (g.accept s).Filed := by
  by_cases hs : s.recipient = g.id
  · obtain ⟨hid, -⟩ := fields_of_core (core_accept g s)
    refine ⟨(known_accept g s).symm ▸ h.known, fun id t ht => ?_⟩
    rw [get?_received_accept hs] at ht
    rw [hid]
    split_ifs at ht with heq
    · cases ht
      exact ⟨heq, hs⟩
    · exact h.received id t ht
  · rw [Guardian.accept, if_neg hs]
    exact h

theorem filed_ofSecrets (id : String) (order : UInt64) (terms : Terms) (p : Polynomial S)
    (secret : Block 32) : (ofSecrets id order terms p secret).Filed := by
  refine Filed.learn ⟨?_, ?_⟩ _ <;> intro _ _ h <;> cases h

/-- Dealing replaces the shares that were dealt, and nothing else. -/
theorem eq_of_deal {ρ : Type} [RandomSource ρ] {g g' : Guardian S} {r : ρ}
    (h : (g.deal r).1 = .ok g') : g' = { g with dealt := g'.dealt } := by
  have hdone := deal_eq_ok_iff.mp h
  rcases g.dealShares_cases r with ⟨dealt, hd⟩ | ⟨e, hd⟩
  · cases hd.symm.trans hdone
    rfl
  · cases hd.symm.trans hdone

theorem Reachable.filed {g : Guardian S} (h : Reachable g) : g.Filed := by
  induction h with
  | create created =>
    obtain ⟨p, secret, rfl, -⟩ := of_create created
    exact filed_ofSecrets _ _ _ p secret
  | learn a _ ih => exact ih.learn a
  | deal dealt _ ih =>
    rw [eq_of_deal dealt]
    exact ⟨ih.known, ih.received⟩
  | accept s _ ih => exact ih.accept s

/-! ### Verdicts -/

theorem judge_good_iff {g : Guardian S} {s : SealedShare S} :
    (g.judge s).good = true ↔
      s.isGood g.secret = true ∧
      (∃ a, g.known.get? s.owner = some a ∧ a.election.commitments = s.commitments) ∧
      s.order = g.order := by
  simp only [judge, SealedShare.judge, matchesAnnounced, Bool.and_eq_true, decide_eq_true_eq,
    Option.map_eq_some_iff, beq_iff_eq]

theorem get?_of_mem_verdicts {g : Guardian S} (hg : g.Filed) {v : Verdict}
    (hv : v ∈ g.verdicts) :
    ∃ s, g.received.get? v.owner = some s ∧ s.owner = v.owner ∧ s.recipient = g.id ∧
      v = g.judge s := by
  obtain ⟨s, hs, rfl⟩ := List.mem_map.mp hv
  obtain ⟨id, hid⟩ := Ledger.mem_values.mp hs
  obtain ⟨rfl, hrecipient⟩ := hg.received id s hid
  exact ⟨s, hid, rfl, hrecipient, rfl⟩

end Guardianship.Guardian
