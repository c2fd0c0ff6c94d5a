import Guardianship.Proofs.Ledger
import Mathlib.Data.List.Perm.Basic

/-!
# The order of a ledger

Keys stand in the order in which they were first entered: entering many values leaves the keys that
are there where they are and appends the new ones, each at its first occurrence (`keys_insertAll`).

The keys in their order and the value of each are all that there is to a ledger (`ext_get?`), so
that values may be entered in two parts (`insertAll_append`) and once is as good as twice
(`insertAll_insertAll`).  If only the values of the keys are the same, the entries are the same in
another order (`entries_perm_of_get?`), as happens when values change places with values of other
keys (`SameByKey`).
-/

namespace Guardianship.Ledger

variable {κ ν : Type} [DecidableEq κ]

/-! ### The order of keys -/

/-- Keys stay where they are, and new ones are appended in the order of their first occurrence. -/
theorem keys_insertAll (key : ν → κ) :
    ∀ (vs : List ν) (l : Ledger κ ν),
      (l.insertAll key vs).keys =
        l.keys ++ ((vs.map key).filter fun k => k ∉ l.keys).eraseDups
  | [], l => by simp [insertAll]
  | v :: vs, l => by
    rw [insertAll_cons, keys_insertAll key vs, keys_insert, List.map_cons, List.filter_cons]
    by_cases hv : key v ∈ l.keys
    · rw [if_pos hv, if_neg (by simpa using hv)]
    · -- what is new beside the first new key is neither in the ledger nor that key
      have hnew : ((vs.map key).filter fun k => k ∉ l.keys ++ [key v]) =
          ((vs.map key).filter fun k => k ∉ l.keys).filter fun k => !k == key v := by
        rw [List.filter_filter]
        refine List.filter_congr fun k _ => ?_
        by_cases hk : k = key v <;> simp [hk]
      rw [if_neg hv, if_pos (by simpa using hv), List.eraseDups_cons, hnew, List.append_assoc,
        List.singleton_append]

/-- The keys of values that are entered into nothing. -/
theorem keys_insertAll_empty (key : ν → κ) (vs : List ν) :
    ((empty : Ledger κ ν).insertAll key vs).keys = (vs.map key).eraseDups := by
  rw [keys_insertAll]
  simp

/-- The last of some values with a key. -/
def last? (key : ν → κ) (vs : List ν) (k : κ) : Option ν := (vs.filter fun v => key v = k).getLast?

theorem get?_insertAll_empty (key : ν → κ) (vs : List ν) (k : κ) :
    ((empty : Ledger κ ν).insertAll key vs).get? k = last? key vs k := by
  rw [get?_insertAll_eq, get?_empty, Option.or_none, last?]

/-- The last thing of some kind has the last value with a key, if its value has the key and only
things of this kind have such values. -/
theorem last?_map {α : Type} {f : α → ν} {key : ν → κ} {P : α → Prop} [DecidablePred P]
    {as : List α} {b : α} {k : κ} (hlast : (as.filter fun a => P a).getLast? = some b)
    (hb : key (f b) = k) (hP : ∀ a, key (f a) = k → P a) :
    last? key (as.map f) k = some (f b) := by
  obtain ⟨front, hfront⟩ := List.getLast?_eq_some_iff.mp hlast
  have hfilter : (as.filter fun a => key (f a) = k) =
      (as.filter fun a => P a).filter fun a => key (f a) = k := by
    rw [List.filter_filter]
    refine List.filter_congr fun a _ => ?_
    by_cases ha : key (f a) = k <;> simp [ha, hP a]
  have hmap : ((as.map f).filter fun v => key v = k) =
      (as.filter fun a => key (f a) = k).map f := List.filter_map
  have hone : ([b].filter fun a => key (f a) = k) = [b] :=
    List.filter_cons_of_pos (decide_eq_true hb)
  rw [last?, hmap, hfilter, hfront, List.filter_append, hone, List.map_append, List.map_singleton,
    List.getLast?_concat]

/-- Of values under different keys none takes the place of another. -/
theorem get?_insertAll_of_mem {key : ν → κ} {vs : List ν} (h : (vs.map key).Nodup)
    (l : Ledger κ ν) {v : ν} (hv : v ∈ vs) : (l.insertAll key vs).get? (key v) = some v := by
  have hmem : v ∈ vs.filter fun w => key w = key v := List.mem_filter.mpr ⟨hv, by simp⟩
  obtain ⟨w, hw⟩ := Option.isSome_iff_exists.mp
    (List.getLast?_isSome.mpr (List.ne_nil_of_mem hmem))
  obtain ⟨hwmem, hkey⟩ := List.mem_filter.mp (List.mem_of_getLast? hw)
  obtain rfl : w = v := List.inj_on_of_nodup_map h hwmem hv (of_decide_eq_true hkey)
  rw [get?_insertAll_eq, hw, Option.some_or]

/-- Keys stay as they are when nothing new is entered. -/
theorem keys_insertAll_of_subset {key : ν → κ} {vs : List ν} {l : Ledger κ ν}
    (h : vs.map key ⊆ l.keys) : (l.insertAll key vs).keys = l.keys := by
  have hnone : ((vs.map key).filter fun k => k ∉ l.keys) = [] :=
    List.filter_eq_nil_iff.mpr fun k hk => by simpa using h hk
  rw [keys_insertAll, hnone, List.eraseDups_nil, List.append_nil]

theorem length_keys_filter_ne {l : Ledger κ ν} {k : κ} (h : k ∈ l.keys) :
    (l.keys.filter fun k' => k' ≠ k).length + 1 = l.size := by
  have herase : l.keys.erase k = l.keys.filter fun k' => k' ≠ k := by
    rw [l.nodup_keys.erase_eq_filter]
    exact List.filter_congr fun k' _ => by by_cases hk : k' = k <;> simp [hk]
  rw [← herase, List.length_erase_add_one h, length_keys]

/-! ### What a ledger is -/

omit [DecidableEq κ] in
theorem ext_entries {l l' : Ledger κ ν} (h : l.entries = l'.entries) : l = l' := by
  cases l
  cases l'
  cases h
  rfl

/-- The entries are the keys in their order, each with its value. -/
theorem entries_eq_filterMap_keys (l : Ledger κ ν) :
    l.entries = l.keys.filterMap fun k => (l.get? k).map (Prod.mk k) := by
  rw [keys, List.filterMap_map]
  refine (List.filterMap_some.symm.trans (List.filterMap_congr fun e he => ?_))
  rw [Function.comp_apply, get?_eq_some_iff.mpr he, Option.map_some]

/-- A ledger is its keys in their order and the value of each. -/
theorem ext_get? {l l' : Ledger κ ν} (hkeys : l.keys = l'.keys)
    (h : ∀ k, l.get? k = l'.get? k) : l = l' := by
  refine ext_entries ?_
  rw [entries_eq_filterMap_keys l, entries_eq_filterMap_keys l', hkeys]
  exact List.filterMap_congr fun k _ => by rw [h]

omit [DecidableEq κ] in
theorem nodup_entries (l : Ledger κ ν) : l.entries.Nodup := List.Nodup.of_map _ l.nodup

/-- Ledgers with the same values by key differ only in the order of their entries. -/
theorem entries_perm_of_get? {l l' : Ledger κ ν} (h : ∀ k, l.get? k = l'.get? k) :
    l.entries.Perm l'.entries := by
  refine (List.perm_ext_iff_of_nodup l.nodup_entries l'.nodup_entries).mpr ?_
  rintro ⟨k, v⟩
  rw [← get?_eq_some_iff, ← get?_eq_some_iff, h]

theorem size_eq_of_get? {l l' : Ledger κ ν} (h : ∀ k, l.get? k = l'.get? k) : l.size = l'.size :=
  (entries_perm_of_get? h).length_eq

/-! ### Values in parts, again, and in another order -/

theorem insertAll_append (key : ν → κ) (l : Ledger κ ν) (vs ws : List ν) :
    l.insertAll key (vs ++ ws) = (l.insertAll key vs).insertAll key ws := List.foldl_append

/-- Values that are entered again are there already. -/
theorem insertAll_insertAll (key : ν → κ) (l : Ledger κ ν) (vs : List ν) :
    (l.insertAll key vs).insertAll key vs = l.insertAll key vs := by
  refine ext_get? (keys_insertAll_of_subset fun k hk => ?_) fun k => ?_
  · exact (mem_keys_insertAll key).mpr (Or.inr hk)
  · rw [get?_insertAll_eq, get?_insertAll_eq, ← Option.or_assoc, Option.or_self]

/-- The same values under each key, in the same order. -/
def SameByKey (key : ν → κ) (vs ws : List ν) : Prop :=
  ∀ k, (vs.filter fun v => key v = k) = ws.filter fun v => key v = k

namespace SameByKey

variable {key : ν → κ} {vs ws : List ν}

/-- Two values of different keys may change places. -/
theorem swap {v w : ν} (h : key v ≠ key w) (vs : List ν) :
    SameByKey key (v :: w :: vs) (w :: v :: vs) := by
  intro k
  by_cases hv : key v = k
  · have hw : key w ≠ k := fun hw => h (hv.trans hw.symm)
    simp [hv, hw]
  · simp [List.filter_cons, hv]

variable (h : SameByKey key vs ws)
include h

theorem filter (P : ν → Bool) : SameByKey key (vs.filter P) (ws.filter P) := by
  intro k
  rw [List.filter_comm, h k, List.filter_comm]

theorem get?_insertAll (l : Ledger κ ν) (k : κ) :
    (l.insertAll key vs).get? k = (l.insertAll key ws).get? k := by
  rw [get?_insertAll_eq, get?_insertAll_eq, h k]

end SameByKey

end Guardianship.Ledger
