import Guardianship.Proofs.Ledger.Order
import Guardianship.Proofs.Mediator.Announcements
import Mathlib.Data.List.DropRight

/-!
# What a mediator remembers

A reset leaves nothing of what was before but the name of the mediator, so a mediator is what the
requests since the last reset have made of a new one (`foldl_apply_eq_sinceReset`).

Its keys are those of the announcements among these requests.  Both ledgers of keys are entered
key by key: owners stand in the order of their first announcement (`keys_electionKeys`), and the key
that is held of an owner is the last one that names it (`get?_electionKeys`, `get?_transportKeys`).
-/

namespace Guardianship.Mediator

variable {S : Suite}

/-! ### Since the last reset -/

def Request.isReset : Request S → Bool
  | .reset _ => true
  | .announce _ | .shares _ | .verdicts _ | .disclosure _ => false

/-- The requests after the last reset. -/
def sinceReset (rs : List (Request S)) : List (Request S) := rs.rtakeWhile fun r => !r.isReset

theorem reset_notMem_sinceReset (rs : List (Request S)) (terms : Terms) :
    Request.reset terms ∉ sinceReset rs := by
  intro hmem
  have hnot := List.mem_rtakeWhile_imp hmem
  simp [Request.isReset] at hnot

theorem sinceReset_concat_reset (rs : List (Request S)) (terms : Terms) :
    sinceReset (rs ++ [.reset terms]) = [] :=
  List.rtakeWhile_concat_neg _ _ _ (by simp [Request.isReset])

theorem sinceReset_concat (rs : List (Request S)) {r : Request S}
    (hr : ∀ terms, r ≠ .reset terms) : sinceReset (rs ++ [r]) = sinceReset rs ++ [r] := by
  refine List.rtakeWhile_concat_pos _ _ _ ?_
  cases r with
  | reset terms => exact absurd rfl (hr terms)
  | _ => rfl

theorem setting_apply (m : Mediator S) {r : Request S} (hr : ∀ terms, r ≠ .reset terms) :
    (m.apply r).setting = m.setting :=
  setting_foldl_apply (reset_notMem_cons.mpr ⟨hr, fun _ => List.not_mem_nil⟩) m

/-- A mediator keeps its name, even through resets. -/
theorem id_foldl_apply : ∀ (rs : List (Request S)) (m : Mediator S), (rs.foldl apply m).id = m.id
  | [], _ => rfl
  | r :: rs, m => by
    rw [List.foldl_cons, id_foldl_apply rs]
    by_cases hr : ∃ terms, r = .reset terms
    · obtain ⟨terms, rfl⟩ := hr
      rfl
    · exact congrArg Prod.fst (m.setting_apply (not_exists.mp hr))

/-- What was before the last reset makes no difference. -/
theorem foldl_apply_eq_sinceReset (id : String) (terms : Terms) (rs : List (Request S)) :
    rs.foldl apply (start id terms) =
      (sinceReset rs).foldl apply (start id (rs.foldl apply (start id terms)).terms) := by
  induction rs using List.reverseRecOn with
  | nil => rfl
  | append_singleton rs r ih =>
    rw [List.foldl_concat]
    by_cases hr : ∃ terms', r = .reset terms'
    · obtain ⟨terms', rfl⟩ := hr
      rw [sinceReset_concat_reset]
      exact congrArg (start · terms') (id_foldl_apply rs _)
    · have hterms : ((rs.foldl apply (start id terms)).apply r).terms =
          (rs.foldl apply (start id terms)).terms :=
        congrArg Prod.snd (setting_apply _ (not_exists.mp hr))
      rw [sinceReset_concat rs (not_exists.mp hr), List.foldl_concat, hterms, ← ih]

/-- The mediators that can arise are those that some requests make of a new one. -/
theorem reachable_iff {m : Mediator S} :
    Reachable m ↔ ∃ (id : String) (terms : Terms) (rs : List (Request S)),
      rs.foldl apply (start id terms) = m := by
  constructor
  · intro h
    induction h with
    | start id terms => exact ⟨id, terms, [], rfl⟩
    | apply r _ ih =>
      obtain ⟨id, terms, rs, rfl⟩ := ih
      exact ⟨id, terms, rs ++ [r], List.foldl_concat ..⟩
  · rintro ⟨id, terms, rs, rfl⟩
    exact Reachable.foldl rs (.start id terms)

/-! ### The announcements that count -/

/-- The announcements after the last reset, in their order. -/
def announced (rs : List (Request S)) : List (Announcement S) := announcements (sinceReset rs)

theorem announced_concat (rs : List (Request S)) (b : Announcement S) :
    announced (rs ++ [.announce b]) = announced rs ++ [b] := by
  rw [announced, sinceReset_concat rs (by simp), announcements, List.filterMap_append]
  rfl

section Run

variable {id : String} {terms : Terms} {rs : List (Request S)} {m : Mediator S}
  (hm : rs.foldl apply (start id terms) = m)
include hm

theorem filed_of_run : m.Filed := (reachable_iff.mpr ⟨id, terms, rs, hm⟩).filed

theorem electionKeys_eq_insertAll :
    m.electionKeys =
      Ledger.empty.insertAll ElectionKey.owner ((announced rs).map Announcement.election) := by
  rw [← hm, foldl_apply_eq_sinceReset, electionKeys_foldl_apply (reset_notMem_sinceReset rs)]
  rfl

theorem transportKeys_eq_insertAll :
    m.transportKeys =
      Ledger.empty.insertAll TransportKey.owner ((announced rs).map Announcement.transport) := by
  rw [← hm, foldl_apply_eq_sinceReset, transportKeys_foldl_apply (reset_notMem_sinceReset rs)]
  rfl

/-- Owners stand in the order in which they first announced. -/
theorem keys_electionKeys :
    m.electionKeys.keys = ((announced rs).map Announcement.owner).eraseDups := by
  rw [electionKeys_eq_insertAll hm, Ledger.keys_insertAll_empty, List.map_map]
  rfl

theorem mem_keys_electionKeys {o : String} :
    o ∈ m.electionKeys.keys ↔ ∃ a ∈ announced rs, a.owner = o := by
  rw [keys_electionKeys hm, List.mem_eraseDups, List.mem_map]

/-- The election key of an owner is the last one that names it. -/
theorem get?_electionKeys (o : String) :
    m.electionKeys.get? o =
      Ledger.last? ElectionKey.owner ((announced rs).map Announcement.election) o := by
  rw [electionKeys_eq_insertAll hm, Ledger.get?_insertAll_empty]

/-- The transport key of an owner is the last one that names it. -/
theorem get?_transportKeys (o : String) :
    m.transportKeys.get? o =
      Ledger.last? TransportKey.owner ((announced rs).map Announcement.transport) o := by
  rw [transportKeys_eq_insertAll hm, Ledger.get?_insertAll_empty]

end Run

end Guardianship.Mediator
