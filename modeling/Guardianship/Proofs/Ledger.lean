import Guardianship.Ledger
import Mathlib.Data.Finset.Card
import Mathlib.Data.List.Nodup

/-!
# What ledgers hold

A ledger read as a partial function: `get?` finds exactly the entries (`get?_eq_some_iff`), the keys
are those for which it finds a value (`mem_keys`), and entering a value adds at most one key
(`mem_keys_insert`).

When many values are entered one after the other, each under a key of its own, the last one under a
key stands (`get?_insertAll_eq`) and keys stay in their places (`keys_prefix_insertAll`), so without
new keys every value is replaced by the latest (`values_insertAll`).  Values whose keys are new are
appended (`entries_insertAll`).
-/

namespace Guardianship.Ledger

variable {κ ν : Type} [DecidableEq κ]

theorem lookup_eq_some_iff {k : κ} {v : ν} :
    ∀ {es : List (κ × ν)}, (es.map Prod.fst).Nodup → (lookup k es = some v ↔ (k, v) ∈ es)
  | [], _ => by simp [lookup]
  | (k', v') :: es, h => by
    rw [List.map_cons, List.nodup_cons] at h
    unfold lookup
    by_cases hk : k' = k
    · subst hk
      -- a second entry for the first key would be a repeated key
      have hnot : (k', v) ∉ es := fun hm => h.1 (List.mem_map.mpr ⟨(k', v), hm, rfl⟩)
      simp [hnot, eq_comm]
    · have hne : ¬ k = k' := fun e => hk e.symm
      rw [if_neg hk, lookup_eq_some_iff h.2]
      simp [hne]

theorem get?_eq_some_iff {l : Ledger κ ν} {k : κ} {v : ν} :
    l.get? k = some v ↔ (k, v) ∈ l.entries := lookup_eq_some_iff l.nodup

theorem mem_keys {l : Ledger κ ν} {k : κ} : k ∈ l.keys ↔ ∃ v, l.get? k = some v := by
  simp only [keys, List.mem_map, get?_eq_some_iff]
  constructor
  · rintro ⟨⟨k', v⟩, hm, rfl⟩
    exact ⟨v, hm⟩
  · rintro ⟨v, hm⟩
    exact ⟨(k, v), hm, rfl⟩

theorem mem_values {l : Ledger κ ν} {v : ν} : v ∈ l.values ↔ ∃ k, l.get? k = some v := by
  simp only [values, List.mem_map, get?_eq_some_iff]
  constructor
  · rintro ⟨⟨k, v'⟩, hm, rfl⟩
    exact ⟨k, hm⟩
  · rintro ⟨k, hm⟩
    exact ⟨(k, v), hm, rfl⟩

/-- What depends on a value in one way and on its key in another may be listed by either. -/
theorem map_values_eq_map_keys {α : Type} {l : Ledger κ ν} {f : ν → α} {g : κ → α}
    (h : ∀ k v, l.get? k = some v → f v = g k) : l.values.map f = l.keys.map g := by
  rw [values, keys, List.map_map, List.map_map]
  exact List.map_congr_left fun e he => h e.1 e.2 (get?_eq_some_iff.mpr he)

theorem mem_keys_of_get? {l : Ledger κ ν} {k : κ} {v : ν} (h : l.get? k = some v) :
    k ∈ l.keys := mem_keys.mpr ⟨v, h⟩

@[simp] theorem contains_iff {l : Ledger κ ν} {k : κ} : l.contains k = true ↔ k ∈ l.keys := by
  simp [contains]

omit [DecidableEq κ] in
@[simp] theorem keys_empty : (empty : Ledger κ ν).keys = [] := rfl

@[simp] theorem mem_keys_insert {l : Ledger κ ν} {k k' : κ} {v : ν} :
    k' ∈ (l.insert k v).keys ↔ k' = k ∨ k' ∈ l.keys := by
  rw [keys_insert]
  by_cases h : k ∈ l.keys
  · rw [if_pos h]
    constructor
    · exact Or.inr
    · rintro (rfl | hk')
      · exact h
      · exact hk'
  · rw [if_neg h, List.mem_append, List.mem_singleton, or_comm]

theorem get?_insert_self (l : Ledger κ ν) (k : κ) (v : ν) : (l.insert k v).get? k = some v := by
  rw [get?_insert, if_pos rfl]

theorem get?_insert_of_ne (l : Ledger κ ν) {k k' : κ} (v : ν) (h : k ≠ k') :
    (l.insert k v).get? k' = l.get? k' := by
  rw [get?_insert, if_neg h]

theorem mem_values_of_insert {l : Ledger κ ν} {k : κ} {v w : ν} (h : w ∈ (l.insert k v).values) :
    w = v ∨ w ∈ l.values := by
  obtain ⟨k', hw⟩ := mem_values.mp h
  rw [get?_insert] at hw
  split_ifs at hw
  · exact Or.inl (Option.some.inj hw).symm
  · exact Or.inr (mem_values.mpr ⟨k', hw⟩)

/-- The values around the value of a key have other keys. -/
theorem exists_values_eq {l : Ledger κ ν} {k : κ} {v : ν} (h : l.get? k = some v) :
    ∃ vs ws, l.values = vs ++ v :: ws ∧ ∀ w ∈ vs ++ ws, ∃ k', k' ≠ k ∧ l.get? k' = some w := by
  obtain ⟨es, fs, hentries⟩ := List.append_of_mem (get?_eq_some_iff.mp h)
  have hnodup := l.nodup
  rw [hentries, List.map_append, List.map_cons, List.nodup_middle, List.nodup_cons,
    ← List.map_append] at hnodup
  refine ⟨es.map Prod.snd, fs.map Prod.snd, ?_, fun w hw => ?_⟩
  · rw [values, hentries, List.map_append, List.map_cons]
  · rw [← List.map_append] at hw
    obtain ⟨e, he, rfl⟩ := List.mem_map.mp hw
    refine ⟨e.1, fun hk => hnodup.1 (List.mem_map.mpr ⟨e, he, hk⟩), ?_⟩
    rw [get?_eq_some_iff, hentries, List.mem_append, List.mem_cons]
    rcases List.mem_append.mp he with h | h
    · exact Or.inl h
    · exact Or.inr (Or.inr h)

/-- The number of entries is the number of different keys. -/
theorem card_keys (l : Ledger κ ν) : l.keys.toFinset.card = l.size := by
  rw [List.toFinset_card_of_nodup l.nodup_keys, length_keys]

omit [DecidableEq κ] in
theorem size_le_of_keys_subset {l l' : Ledger κ ν} (h : l.keys ⊆ l'.keys) : l.size ≤ l'.size := by
  rw [← length_keys, ← length_keys]
  exact (l.nodup_keys.subperm h).length_le

/-! ### Many entries -/

/-- Enters values one after the other, each under its own key. -/
def insertAll (key : ν → κ) (l : Ledger κ ν) (vs : List ν) : Ledger κ ν :=
  vs.foldl (fun l v => l.insert (key v) v) l

theorem insertAll_cons (key : ν → κ) (l : Ledger κ ν) (v : ν) (vs : List ν) :
    l.insertAll key (v :: vs) = (l.insert (key v) v).insertAll key vs := rfl

/-- The last value that is entered under a key stands; if there is none, the one before does. -/
theorem get?_insertAll_eq (key : ν → κ) (k : κ) :
    ∀ (vs : List ν) (l : Ledger κ ν),
      (l.insertAll key vs).get? k = ((vs.filter fun v => key v = k).getLast?).or (l.get? k)
  | [], _ => rfl
  | v :: vs, l => by
    rw [insertAll_cons, get?_insertAll_eq key k vs, get?_insert, List.filter_cons]
    by_cases hv : key v = k
    · rw [if_pos hv, if_pos (decide_eq_true hv), List.getLast?_cons]
      cases (vs.filter fun v => key v = k).getLast? <;> rfl
    · rw [if_neg hv, if_neg (by simpa using hv)]

/-- Keys that have been entered stay where they are, and new ones come after them. -/
theorem keys_prefix_insertAll (key : ν → κ) :
    ∀ (vs : List ν) (l : Ledger κ ν), l.keys <+: (l.insertAll key vs).keys
  | [], _ => List.prefix_rfl
  | v :: vs, l => by
    have hstep : l.keys <+: (l.insert (key v) v).keys := by
      rw [keys_insert]
      split_ifs
      · exact List.prefix_rfl
      · exact List.prefix_append _ _
    exact hstep.trans (keys_prefix_insertAll key vs (l.insert (key v) v))

theorem mem_keys_insertAll (key : ν → κ) {k : κ} :
    ∀ {vs : List ν} {l : Ledger κ ν},
      k ∈ (l.insertAll key vs).keys ↔ k ∈ l.keys ∨ k ∈ vs.map key
  | [], l => by simp [insertAll]
  | v :: vs, l => by
    rw [insertAll_cons, mem_keys_insertAll key, mem_keys_insert, List.map_cons, List.mem_cons,
      or_comm (a := k = key v), or_assoc]

/-- The last of some values that has the key of a given one, which stands if there is none. -/
def latest (key : ν → κ) (vs : List ν) (v : ν) : ν :=
  ((vs.filter fun w => key w = key v).getLast?).getD v

/-- Entering nothing under new keys replaces every value by the latest. -/
theorem values_insertAll {key : ν → κ} {vs : List ν} {l : Ledger κ ν}
    (hfiled : ∀ k v, l.get? k = some v → key v = k)
    (hkeys : (l.insertAll key vs).keys = l.keys) :
    (l.insertAll key vs).values = l.values.map (latest key vs) := by
  have hsome : ∀ l' : Ledger κ ν, l'.values.map some = l'.keys.map l'.get? :=
    fun l' => map_values_eq_map_keys fun _ _ h => h.symm
  refine List.map_injective_iff.mpr (Option.some_injective ν) ?_
  rw [hsome, hkeys, List.map_map]
  refine (map_values_eq_map_keys fun k v hv => ?_).symm
  rw [get?_insertAll_eq, hv, Function.comp_apply, latest, hfiled k v hv]
  cases (vs.filter fun w => key w = k).getLast? <;> rfl

theorem latest_mem (key : ν → κ) (vs : List ν) (v : ν) :
    latest key vs v = v ∨ latest key vs v ∈ vs ∧ key (latest key vs v) = key v := by
  unfold latest
  cases h : (vs.filter fun w => key w = key v).getLast? with
  | none => exact Or.inl rfl
  | some w =>
    obtain ⟨hw, hkey⟩ := List.mem_filter.mp (List.mem_of_getLast? h)
    exact Or.inr ⟨hw, of_decide_eq_true hkey⟩

theorem enter_of_notMem {k : κ} (v : ν) :
    ∀ {es : List (κ × ν)}, k ∉ es.map Prod.fst → enter k v es = es ++ [(k, v)]
  | [], _ => rfl
  | (k', v') :: es, h => by
    rw [List.map_cons, List.mem_cons, not_or] at h
    rw [enter, if_neg fun e => h.1 e.symm, enter_of_notMem v h.2, List.cons_append]

theorem entries_insertAll {key : ν → κ} :
    ∀ {vs : List ν} {l : Ledger κ ν}, (l.keys ++ vs.map key).Nodup →
      (l.insertAll key vs).entries = l.entries ++ vs.map fun v => (key v, v)
  | [], l, _ => (List.append_nil _).symm
  | v :: vs, l, h => by
    have hv : key v ∉ l.keys := fun hm =>
      (List.nodup_append.mp h).2.2 _ hm _ (List.mem_map_of_mem List.mem_cons_self) rfl
    have hkeys : (l.insert (key v) v).keys = l.keys ++ [key v] := by rw [keys_insert, if_neg hv]
    have hrest : ((l.insert (key v) v).keys ++ vs.map key).Nodup := by
      rwa [hkeys, List.append_assoc]
    have hentries : (l.insert (key v) v).entries = l.entries ++ [(key v, v)] :=
      enter_of_notMem v hv
    show ((l.insert (key v) v).insertAll key vs).entries = _
    rw [entries_insertAll hrest, hentries, List.append_assoc]
    rfl

section InsertAll

variable {key : ν → κ} {vs : List ν} {l : Ledger κ ν} (h : (l.keys ++ vs.map key).Nodup)
include h

theorem get?_insertAll {k : κ} {v : ν} :
    (l.insertAll key vs).get? k = some v ↔ l.get? k = some v ∨ v ∈ vs ∧ key v = k := by
  rw [get?_eq_some_iff, get?_eq_some_iff, entries_insertAll h, List.mem_append]
  refine or_congr_right ?_
  simp only [List.mem_map, Prod.mk.injEq]
  constructor
  · rintro ⟨w, hw, rfl, rfl⟩
    exact ⟨hw, rfl⟩
  · rintro ⟨hv, rfl⟩
    exact ⟨v, hv, rfl, rfl⟩

theorem size_insertAll : (l.insertAll key vs).size = l.size + vs.length := by
  rw [size, entries_insertAll h, List.length_append, List.length_map, size]

end InsertAll

end Guardianship.Ledger
