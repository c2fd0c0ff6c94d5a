import Guardianship.Proofs.Mediator.Receiving

/-!
# Announcements during a ceremony

Between two resets the keys that a mediator holds are changed by announcements and by nothing else
(`foundation_foldl_apply`): each key is entered under the owner that it names, whatever the stage
(`electionKeys_foldl_apply`).  So owners keep their places, newcomers come after them, and each
election key is the one that its owner announced last.

Across resets as well, what is true of all announced election keys is true of all that are held
(`forall_electionKeys_foldl_apply`).
-/

namespace Guardianship.Mediator

variable {S : Suite}

/-- The announcement that a request makes, if it makes one. -/
def Request.announcement? : Request S → Option (Announcement S)
  | .announce a => some a
  | _ => none

/-- The announcements among some requests, in their order. -/
def announcements (rs : List (Request S)) : List (Announcement S) :=
  rs.filterMap Request.announcement?

theorem announcements_cons (r : Request S) (rs : List (Request S)) :
    announcements (r :: rs) = r.announcement?.toList ++ announcements rs := by
  cases r <;> rfl

/-- Apart from a reset a request changes what the mediator holds of announcements only by
announcing. -/
theorem foundation_apply (m : Mediator S) {r : Request S} (hr : ∀ terms, r ≠ .reset terms) :
    (m.apply r).foundation = r.announcement?.toList.foldl announce m.foundation := by
  cases r with
  | announce a => rfl
  | shares ss => exact m.foundation_receiveShares ss
  | verdicts vs => exact m.foundation_receiveVerdicts vs
  | disclosure d => exact m.foundation_receiveDisclosure d
  | reset terms => exact absurd rfl (hr terms)

theorem reset_notMem_cons {r : Request S} {rs : List (Request S)} :
    (∀ terms, Request.reset terms ∉ r :: rs) ↔
      (∀ terms, r ≠ .reset terms) ∧ ∀ terms, Request.reset terms ∉ rs := by
  simp only [List.mem_cons, not_or, forall_and, ne_comm]

theorem reset_notMem_append {pre post : List (Request S)} :
    (∀ terms, Request.reset terms ∉ pre ++ post) ↔
      (∀ terms, Request.reset terms ∉ pre) ∧ ∀ terms, Request.reset terms ∉ post := by
  simp only [List.mem_append, not_or, forall_and]

theorem foundation_foldl_apply :
    ∀ {rs : List (Request S)}, (∀ terms, Request.reset terms ∉ rs) → ∀ m : Mediator S,
      (rs.foldl apply m).foundation = (announcements rs).foldl announce m.foundation
  | [], _, _ => rfl
  | r :: rs, hrs, m => by
    obtain ⟨hr, hrest⟩ := reset_notMem_cons.mp hrs
    rw [List.foldl_cons, foundation_foldl_apply hrest, foundation_apply m hr, announcements_cons,
      List.foldl_append]

theorem setting_foldl_announce :
    ∀ (as : List (Announcement S)) (m : Mediator S), (as.foldl announce m).setting = m.setting
  | [], _ => rfl
  | a :: as, m => setting_foldl_announce as (m.announce a)

theorem electionKeys_foldl_announce :
    ∀ (as : List (Announcement S)) (m : Mediator S),
      (as.foldl announce m).electionKeys =
        m.electionKeys.insertAll ElectionKey.owner (as.map Announcement.election)
  | [], _ => rfl
  | a :: as, m => electionKeys_foldl_announce as (m.announce a)

theorem transportKeys_foldl_announce :
    ∀ (as : List (Announcement S)) (m : Mediator S),
      (as.foldl announce m).transportKeys =
        m.transportKeys.insertAll TransportKey.owner (as.map Announcement.transport)
  | [], _ => rfl
  | a :: as, m => transportKeys_foldl_announce as (m.announce a)

section Ongoing

variable {rs : List (Request S)} (hrs : ∀ terms, Request.reset terms ∉ rs) (m : Mediator S)
include hrs

/-- The terms of a ceremony stay. -/
theorem setting_foldl_apply : (rs.foldl apply m).setting = m.setting := by
  calc (rs.foldl apply m).setting
      = (rs.foldl apply m).foundation.setting := rfl
    _ = m.setting := by rw [foundation_foldl_apply hrs, setting_foldl_announce]; rfl

theorem expected_foldl_apply : (rs.foldl apply m).expected = m.expected :=
  congrArg (fun s : String × Terms => s.2.guardians.toNat) (setting_foldl_apply hrs m)

theorem electionKeys_foldl_apply :
    (rs.foldl apply m).electionKeys =
      m.electionKeys.insertAll ElectionKey.owner ((announcements rs).map Announcement.election) := by
  calc (rs.foldl apply m).electionKeys
      = (rs.foldl apply m).foundation.electionKeys := rfl
    _ = _ := by rw [foundation_foldl_apply hrs, electionKeys_foldl_announce]; rfl

theorem transportKeys_foldl_apply :
    (rs.foldl apply m).transportKeys =
      m.transportKeys.insertAll TransportKey.owner
        ((announcements rs).map Announcement.transport) := by
  calc (rs.foldl apply m).transportKeys
      = (rs.foldl apply m).foundation.transportKeys := rfl
    _ = _ := by rw [foundation_foldl_apply hrs, transportKeys_foldl_announce]; rfl

end Ongoing

/-! ### What all election keys have in common -/

/-- What is true of every election key that is held stays so if it is true of the announced. -/
theorem forall_electionKeys_apply {P : ElectionKey S → Prop} {m : Mediator S} {r : Request S}
    (hm : ∀ e ∈ m.electionKeys.values, P e) (hr : ∀ a, r.announcement? = some a → P a.election) :
    ∀ e ∈ (m.apply r).electionKeys.values, P e := by
  have hkeep : ∀ m' : Mediator S, m'.foundation = m.foundation →
      ∀ e ∈ m'.electionKeys.values, P e := by
    intro m' h
    have hkeys : m'.electionKeys = m.electionKeys := congrArg (fun f => f.electionKeys) h
    rwa [hkeys]
  cases r with
  | announce a =>
    intro e he
    rcases Ledger.mem_values_of_insert he with rfl | hold
    · exact hr a rfl
    · exact hm e hold
  | shares ss => exact hkeep _ (m.foundation_receiveShares ss)
  | verdicts vs => exact hkeep _ (m.foundation_receiveVerdicts vs)
  | disclosure d => exact hkeep _ (m.foundation_receiveDisclosure d)
  | reset terms => exact fun _ he => absurd he List.not_mem_nil

theorem forall_electionKeys_foldl_apply {P : ElectionKey S → Prop} :
    ∀ {rs : List (Request S)} {m : Mediator S}, (∀ e ∈ m.electionKeys.values, P e) →
      (∀ a ∈ announcements rs, P a.election) →
      ∀ e ∈ (rs.foldl apply m).electionKeys.values, P e
  | [], _, hm, _ => hm
  | r :: rs, m, hm, hrs => by
    rw [announcements_cons] at hrs
    have hstep := forall_electionKeys_apply hm fun a ha =>
      hrs a (List.mem_append_left _ (Option.mem_toList.mpr ha))
    rw [List.foldl_cons]
    exact forall_electionKeys_foldl_apply hstep fun a ha => hrs a (List.mem_append_right _ ha)

end Guardianship.Mediator
