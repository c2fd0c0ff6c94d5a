/-!
# Ledgers

A ledger holds one value for each of its keys and keeps the keys in the order in which they were
first entered.  Entering a key again replaces its value and leaves the key where it is.

Main statements: what a ledger holds after an entry (`get?_insert`), and the order of its keys
(`keys_insert`).
-/

namespace Guardianship

/-- Values by key, in the order in which the keys were first entered. -/
structure Ledger (κ ν : Type) where
  entries : List (κ × ν)
  nodup : (entries.map Prod.fst).Nodup

namespace Ledger

variable {κ ν : Type}

def empty : Ledger κ ν := ⟨[], List.nodup_nil⟩

def keys (l : Ledger κ ν) : List κ := l.entries.map Prod.fst

def values (l : Ledger κ ν) : List ν := l.entries.map Prod.snd

def size (l : Ledger κ ν) : Nat := l.entries.length

@[simp] theorem length_keys (l : Ledger κ ν) : l.keys.length = l.size := by simp [keys, size]

@[simp] theorem length_values (l : Ledger κ ν) : l.values.length = l.size := by
  simp [values, size]

theorem nodup_keys (l : Ledger κ ν) : l.keys.Nodup := l.nodup

variable [DecidableEq κ]

def lookup (k : κ) : List (κ × ν) → Option ν
  | [] => none
  | (k', v) :: rest => if k' = k then some v else lookup k rest

/-- The value of a key. -/
def get? (l : Ledger κ ν) (k : κ) : Option ν := lookup k l.entries

/-- The key has been entered. -/
def contains (l : Ledger κ ν) (k : κ) : Bool := k ∈ l.keys

def enter (k : κ) (v : ν) : List (κ × ν) → List (κ × ν)
  | [] => [(k, v)]
  | (k', v') :: rest => if k' = k then (k, v) :: rest else (k', v') :: enter k v rest

theorem map_fst_enter (k : κ) (v : ν) (es : List (κ × ν)) :
    (enter k v es).map Prod.fst =
      if k ∈ es.map Prod.fst then es.map Prod.fst else es.map Prod.fst ++ [k] := by
  induction es with
  | nil => simp [enter]
  | cons e es ih =>
    obtain ⟨k', v'⟩ := e
    unfold enter
    by_cases h : k' = k
    · subst h; simp
    · have h' : ¬ k = k' := fun e => h e.symm
      rw [if_neg h, List.map_cons, ih]
      by_cases hm : k ∈ es.map Prod.fst
      · simp [hm]
      · simp only [List.map_cons, List.mem_cons, h', hm, or_self, if_false,
          List.cons_append]

theorem nodup_enter (k : κ) (v : ν) {es : List (κ × ν)} (h : (es.map Prod.fst).Nodup) :
    ((enter k v es).map Prod.fst).Nodup := by
  rw [map_fst_enter]
  split
  · exact h
  · rename_i hk
    rw [List.nodup_append]
    refine ⟨h, List.nodup_cons.mpr ⟨List.not_mem_nil, List.nodup_nil⟩, ?_⟩
    intro a ha b hb e
    simp only [List.mem_singleton] at hb
    subst hb
    subst e
    exact hk ha

theorem lookup_enter (k k' : κ) (v : ν) (es : List (κ × ν)) :
    lookup k' (enter k v es) = if k = k' then some v else lookup k' es := by
  induction es with
  | nil => simp [enter, lookup]
  | cons e es ih =>
    obtain ⟨a, b⟩ := e
    unfold enter
    by_cases h : a = k
    · subst h
      by_cases hk : a = k' <;> simp [lookup, hk]
    · rw [if_neg h]
      simp only [lookup, ih]
      by_cases ha : a = k'
      · subst ha
        have hk : ¬ k = a := fun e => h e.symm
        simp [hk]
      · simp [ha]

/-- Enters a value for a key. -/
def insert (l : Ledger κ ν) (k : κ) (v : ν) : Ledger κ ν :=
  ⟨enter k v l.entries, nodup_enter k v l.nodup⟩

theorem get?_empty (k : κ) : (empty : Ledger κ ν).get? k = none := rfl

theorem get?_insert (l : Ledger κ ν) (k k' : κ) (v : ν) :
    (l.insert k v).get? k' = if k = k' then some v else l.get? k' :=
  lookup_enter k k' v l.entries

theorem keys_insert (l : Ledger κ ν) (k : κ) (v : ν) :
    (l.insert k v).keys = if k ∈ l.keys then l.keys else l.keys ++ [k] :=
  map_fst_enter k v l.entries

end Ledger

end Guardianship
