import Guardianship.Ceremony
import Guardianship.Proofs.Guardian.Dealing
import Mathlib

/-!
# The roster of a ceremony

A ceremony that is held by its settings has guardians with the names `guardian-1`, `guardian-2` and
so on, at the places that their names say.  The names differ (`nodup_names`), the places increase
(`pairwise_places`), and all guardians can be created (`exists_drawGuardians`).  Outcomes that have
the places of the roster are put in order by sorting, whatever their order was before
(`mergeSort_outcomes`).
-/

namespace Guardianship.Ceremony

variable {S : Suite} {ρ : Type} [RandomSource ρ]

/-! ### Names and places -/

theorem guardianName_injective : Function.Injective guardianName := by
  intro i j h
  simp only [guardianName, toString] at h
  exact Nat.repr_injective ((String.append_right_inj _).mp h)

theorem nodup_names (terms : Terms) : ((roster terms).map Prod.fst).Nodup := by
  rw [roster, List.map_map]
  refine List.nodup_range.map fun i j h => ?_
  exact Nat.succ_injective (guardianName_injective h)

/-- The places of different guardians are different numbers of 64 bits. -/
theorem toNat_place {terms : Terms} (hfew : terms.guardians.toNat ≤ 2 ^ 32) {i : ℕ}
    (hi : i < terms.guardians.toNat) : (i + 1).toUInt64.toNat = i + 1 :=
  UInt64.toNat_ofNat_of_lt' (by rw [UInt64.size]; omega)

theorem pairwise_places {terms : Terms} (hfew : terms.guardians.toNat ≤ 2 ^ 32) :
    (roster terms).Pairwise fun a b => a.2 < b.2 := by
  refine List.pairwise_map.mpr (List.pairwise_lt_range.imp_of_mem fun {i j} hi hj hlt => ?_)
  rw [UInt64.lt_iff_toNat_lt, toNat_place hfew (List.mem_range.mp hi),
    toNat_place hfew (List.mem_range.mp hj)]
  omega

theorem place_ne_zero {terms : Terms} (hfew : terms.guardians.toNat ≤ 2 ^ 32) :
    ∀ e ∈ roster terms, e.2 ≠ 0 := by
  intro e he h0
  obtain ⟨i, hi, rfl⟩ := List.mem_map.mp he
  have hnat := toNat_place hfew (List.mem_range.mp hi)
  rw [show (i + 1).toUInt64 = 0 from h0] at hnat
  cases hnat

/-! ### Creation -/

/-- Everyone on a list of names and places can be created. -/
theorem exists_drawGuardians {terms : Terms} (hq : terms.quorum ≠ 0) :
    ∀ (ids : List (String × UInt64)) (r : ρ), (∀ e ∈ ids, e.2 ≠ 0) →
      ∃ gs : List (Guardian S), (drawGuardians terms ids r).1 = .ok gs ∧
        gs.map (fun g => (g.id, g.order)) = ids ∧ ∀ g ∈ gs, g.CreatedFor terms
  | [], _, _ => ⟨[], rfl, rfl, nofun⟩
  | (id, order) :: ids, r, h => by
    have ho : order ≠ 0 := h (id, order) List.mem_cons_self
    obtain ⟨g, hg⟩ := Guardian.exists_create (S := S) id ho hq r
    obtain ⟨gs, hgs, hids, hcreated⟩ :=
      exists_drawGuardians hq ids (Guardian.create (S := S) id order terms r).2 fun e he =>
        h e (List.mem_cons_of_mem _ he)
    refine ⟨g :: gs, ?_, ?_, List.forall_mem_cons.mpr ⟨⟨ρ, _, r, id, order, hg⟩, hcreated⟩⟩
    · rw [drawGuardians, draw_bind, hg]
      dsimp only
      rw [draw_bind, hgs]
      rfl
    · obtain ⟨p, secret, rfl, -⟩ := Guardian.of_create hg
      rw [List.map_cons, hids]
      rfl

/-! ### Order -/

/-- Outcomes at increasing places are what sorting by place makes of them. -/
theorem mergeSort_outcomes {os sorted : List Outcome}
    (hsorted : sorted.Pairwise fun a b => a.order < b.order) (hperm : os.Perm sorted) :
    os.mergeSort (fun a b => a.order ≤ b.order) = sorted := by
  have hnodup : (sorted.map Outcome.order).Nodup :=
    List.pairwise_map.mpr (hsorted.imp fun hlt => UInt64.ne_of_lt hlt)
  have hmerged := (os.mergeSort_perm fun a b => a.order ≤ b.order).trans hperm
  have hpairwise : (os.mergeSort fun a b => a.order ≤ b.order).Pairwise
      fun a b => decide (a.order ≤ b.order) = true := by
    refine List.pairwise_mergeSort (fun a b c hab hbc => ?_) (fun a b => ?_) os
    · exact decide_eq_true (UInt64.le_trans (of_decide_eq_true hab) (of_decide_eq_true hbc))
    · rcases UInt64.le_total a.order b.order with h | h <;> simp [h]
  refine List.Perm.eq_of_pairwise (fun a b ha hb hab hba => ?_) hpairwise
    (hsorted.imp fun hlt => decide_eq_true (UInt64.le_of_lt hlt)) hmerged
  exact List.inj_on_of_nodup_map hnodup (hmerged.mem_iff.mp ha) hb
    (UInt64.le_antisymm (of_decide_eq_true hab) (of_decide_eq_true hba))

end Guardianship.Ceremony
