import Guardianship.Json.Codec
import Guardianship.Proofs.Json.Text
import Mathlib.Data.List.Forall2
import Mathlib.Data.List.Nodup

/-!
# Messages survive JSON

A JSON value shows a message if the message is read from it, wherever the value comes from
(`Codec.Shows`).  An object shows a record if each field of its row stands in it exactly once and
shows the value of the field, in whatever order and among whatever other fields
(`Codec.Shows.record`).  What a lossless codec writes is read again from memory, in the order of the
names of fields, and from a text.
-/

namespace Guardianship

/-! ### Documents of values -/

namespace Document

mutual

/-- What is in memory can be passed over. -/
theorem skip_ofJson : ∀ j : Json, (ofJson j).skip = .ok ()
  | .null | .bool _ | .number _ | .string _ => rfl
  | .array js => by
    rw [ofJson, skip, skipItems_ofItems js]
    rfl
  | .object fs => by
    rw [ofJson, skip, skipFields_ofFields fs]
    rfl

theorem skipItems_ofItems : ∀ js : List Json, skipItems (ofItems js) = .ok ()
  | [] => rfl
  | j :: js => by
    rw [ofItems, skipItems, skip_ofJson j]
    exact skipItems_ofItems js

theorem skipFields_ofFields : ∀ fs : List (String × Json), skipFields (ofFields fs) = .ok ()
  | [] => rfl
  | (name, j) :: fs => by
    rw [ofFields, skipFields, skip_ofJson j]
    exact skipFields_ofFields fs

end

end Document

/-! ### Fields in another order -/

namespace Json

/-- Single values stay as they are and arrays keep their order; objects with different names keep
their fields, in whatever order. -/
structure Rearranges (g : Json → Json) : Prop where
  bool : ∀ b, g (.bool b) = .bool b
  number : ∀ n, g (.number n) = .number n
  string : ∀ s, g (.string s) = .string s
  array : ∀ js, g (.array js) = .array (js.map g)
  object : ∀ fs : List (String × Json), (fs.map Prod.fst).Nodup →
    ∃ gs, g (.object fs) = .object gs ∧ (fs.map (Prod.map id g)).Perm gs

theorem rearranges_id : Rearranges id where
  bool _ := rfl
  number _ := rfl
  string _ := rfl
  array js := congrArg Json.array (List.map_id js).symm
  object fs _ := ⟨fs, rfl, by rw [Prod.map_id, List.map_id]⟩

theorem sortedItems_eq_map : ∀ js : List Json, sortedItems js = js.map sorted
  | [] => rfl
  | j :: js => by rw [sortedItems, sortedItems_eq_map js, List.map_cons]

/-- A field with a new name takes no other's place. -/
theorem insertField_perm {name : String} (value : Json) :
    ∀ {fs : List (String × Json)}, name ∉ fs.map Prod.fst →
      (insertField name value fs).Perm ((name, value) :: fs)
  | [], _ => .refl _
  | (n, v) :: fs, h => by
    rw [List.map_cons, List.mem_cons, not_or] at h
    rw [insertField, if_neg h.1]
    split_ifs
    · exact .refl _
    · exact ((insertField_perm value h.2).cons _).trans (.swap _ _ _)

theorem sortedFields_perm :
    ∀ {fs done : List (String × Json)}, ((fs ++ done).map Prod.fst).Nodup →
      (fs.map (Prod.map id sorted) ++ done).Perm (sortedFields fs done)
  | [], _, _ => .refl _
  | (name, value) :: fs, done, h => by
    have hdone : name ∉ done.map Prod.fst := by
      rw [List.cons_append, List.map_cons, List.nodup_cons, List.map_append] at h
      exact fun hmem => h.1 (List.mem_append_right _ hmem)
    have hinsert := insertField_perm value.sorted hdone
    -- the names are those from before, the first of them among those that are done
    have hnames : ((fs ++ insertField name value.sorted done).map Prod.fst).Nodup := by
      refine (((hinsert.append_left fs).trans List.perm_middle).map Prod.fst).nodup_iff.mpr ?_
      exact h
    rw [sortedFields]
    refine .trans ?_ (sortedFields_perm hnames)
    exact (List.perm_middle.symm).trans (hinsert.symm.append_left _)

theorem rearranges_sorted : Rearranges sorted where
  bool _ := rfl
  number _ := rfl
  string _ := rfl
  array js := congrArg Json.array (sortedItems_eq_map js)
  object fs h := by
    refine ⟨sortedFields fs [], rfl, ?_⟩
    have hperm := sortedFields_perm (by rwa [List.append_nil])
    rwa [List.append_nil] at hperm

end Json

namespace Codec

variable {α β : Type}

/-- The message is read from the value, wherever the value comes from. -/
def Shows (c : Codec α) (j : Json) (a : α) : Prop :=
  ∀ origin, c.decode origin (.ofJson j) = .ok a

/-! ### Single values and lists -/

theorem shows_text (s : String) : text.Shows (.string s) s := fun _ => rfl

theorem shows_word (kind : String) (n : UInt64) : (word kind).Shows (.natural n) n := fun _ => rfl

theorem Shows.via {c : Codec α} {out : β → α} {from? : α → Except DecodeError β} {j : Json}
    {a : α} {b : β} (h : c.Shows j a) (hb : from? a = .ok b) : (c.via out from?).Shows j b := by
  intro origin
  show c.decode origin (.ofJson j) >>= from? = .ok b
  rw [h origin]
  exact hb

theorem decodeItems_of_shows {c : Codec α} {js : List Json} {as : List α}
    (h : List.Forall₂ c.Shows js as) (origin : Origin) :
    decodeItems (c.decode origin) (Document.ofItems js) = .ok as := by
  induction h with
  | nil => rfl
  | cons hj _ ih =>
    rw [Document.ofItems, decodeItems, hj origin, ih]
    rfl

theorem Shows.list {c : Codec α} {js : List Json} {as : List α}
    (h : List.Forall₂ c.Shows js as) : (list c).Shows (.array js) as := by
  intro origin
  rw [Document.ofJson, Codec.list]
  dsimp only
  rw [decodeItems_of_shows h origin]
  rfl

/-! ### Records -/

namespace Row

variable {αs : List Type}

def names : {αs : List Type} → Row αs → List String
  | _, nil => []
  | _, cons field rest => field.name :: rest.names

/-- Each field of the row stands among the fields exactly once and shows its value. -/
def Shows : {αs : List Type} → Row αs → List (String × Json) → Values αs → Prop
  | _, nil, _, _ => True
  | _, cons field rest, fs, (a, as) =>
    (∃ j, fs.filter (fun f => f.1 = field.name) = [(field.name, j)] ∧ field.codec.Shows j a) ∧
      rest.Shows fs as

/-- The order of the fields does not matter. -/
theorem Shows.perm {fs gs : List (String × Json)} (hperm : fs.Perm gs) :
    ∀ {αs : List Type} {row : Row αs} {as : Values αs}, row.Shows fs as → row.Shows gs as
  | _, nil, _, _ => trivial
  | _, cons _ _, (_, _), h => by
    obtain ⟨⟨j, hj, hshows⟩, hrest⟩ := h
    exact ⟨⟨j, List.perm_singleton.mp (hj ▸ (hperm.filter _).symm), hshows⟩, hrest.perm hperm⟩

/-- A field without a name in the row does not matter. -/
theorem shows_congr {fs gs : List (String × Json)} : ∀ {αs : List Type} {row : Row αs}
    {as : Values αs}, row.Shows fs as →
      (∀ name ∈ row.names, gs.filter (fun f => f.1 = name) = fs.filter fun f => f.1 = name) →
        row.Shows gs as
  | _, nil, _, _, _ => trivial
  | _, cons field rest, (_, _), h, heq => by
    obtain ⟨⟨j, hj, hshows⟩, hrest⟩ := h
    rw [names, List.forall_mem_cons] at heq
    exact ⟨⟨j, heq.1.trans hj, hshows⟩, shows_congr hrest heq.2⟩

/-- The slot of the first field, and those of the others. -/
def slotCons (slot : Option α) (slots : Slots αs) : Slots (α :: αs) := (slot, slots)

/-- The fields in memory are read one after the other. -/
theorem placeAll_ofFields_cons (row : Row αs) (origin : Origin) (name : String) (j : Json)
    (fs : List (String × Json)) (slots : Slots αs) :
    row.placeAll origin (Document.ofFields ((name, j) :: fs)) slots =
      row.place origin slots name (.ofJson j) >>= row.placeAll origin (Document.ofFields fs) := rfl

theorem place_cons (field : Field α) (rest : Row αs) (origin : Origin) (slot : Option α)
    (slots : Slots αs) (name : String) (d : Document) :
    (cons field rest).place origin (slotCons slot slots) name d =
      if field.name = name then
        match slot with
        | some _ => .error (.duplicateField name)
        | none => field.codec.decode origin d >>= fun a => .ok (slotCons (some a) slots)
      else rest.place origin slots name d >>= fun slots => .ok (slotCons slot slots) := rfl

/-- The first field is passed over by fields with other names. -/
theorem placeAll_of_notMem {field : Field α} {rest : Row αs} {origin : Origin}
    (slot : Option α) : ∀ {fs : List (String × Json)} (slots : Slots αs),
      field.name ∉ fs.map Prod.fst →
        (cons field rest).placeAll origin (Document.ofFields fs) (slotCons slot slots) =
          rest.placeAll origin (Document.ofFields fs) slots >>=
            fun slots => .ok (slotCons slot slots)
  | [], _, _ => rfl
  | (name, j) :: fs, slots, h => by
    rw [List.map_cons, List.mem_cons, not_or] at h
    rw [placeAll_ofFields_cons, placeAll_ofFields_cons, place_cons, if_neg h.1]
    cases rest.place origin slots name (.ofJson j) with
    | error e => rfl
    | ok slots => exact placeAll_of_notMem slot slots h.2

/-- The first field is found wherever it stands, and the others are left to the rest. -/
theorem placeAll_of_filter {field : Field α} {rest : Row αs} {origin : Origin} {j : Json} {a : α}
    (ha : field.codec.decode origin (.ofJson j) = .ok a) :
    ∀ {fs : List (String × Json)} (slots : Slots αs),
      fs.filter (fun f => f.1 = field.name) = [(field.name, j)] →
        (cons field rest).placeAll origin (Document.ofFields fs) (slotCons none slots) =
          rest.placeAll origin (Document.ofFields (fs.filter fun f => f.1 ≠ field.name)) slots >>=
            fun slots => .ok (slotCons (some a) slots)
  | [], _, h => by cases h
  | (name, i) :: fs, slots, h => by
    by_cases hname : name = field.name
    · -- none of the others has this name
      rw [List.filter_cons_of_pos (by simpa using hname), List.cons_eq_cons] at h
      obtain ⟨hi, hnone⟩ := h
      cases hi
      have hne : ∀ f ∈ fs, f.1 ≠ field.name := by simpa using hnone
      have hkeep : fs.filter (fun f => f.1 ≠ field.name) = fs :=
        List.filter_eq_self.mpr (by simpa using hne)
      have hnot : field.name ∉ fs.map Prod.fst := by simpa using fun j hj => hne (_, j) hj rfl
      rw [List.filter_cons_of_neg (by simp), hkeep, ← placeAll_of_notMem _ _ hnot,
        placeAll_ofFields_cons, place_cons, if_pos rfl, ha]
      rfl
    · rw [List.filter_cons_of_neg (by simpa using hname)] at h
      rw [List.filter_cons_of_pos (by simpa using hname), placeAll_ofFields_cons,
        placeAll_ofFields_cons, place_cons, if_neg (Ne.symm hname)]
      cases rest.place origin slots name (.ofJson i) with
      | error e => rfl
      | ok slots => exact placeAll_of_filter ha slots h

theorem placeAll_nil {origin : Origin} : ∀ fs : List (String × Json),
    nil.placeAll origin (Document.ofFields fs) nil.empty = .ok nil.empty
  | [] => rfl
  | (name, j) :: fs => by
    have hplace : nil.place origin nil.empty name (.ofJson j) = .ok nil.empty := by
      rw [place.eq_def]
      dsimp only
      rw [Document.skip_ofJson]
      rfl
    rw [placeAll_ofFields_cons, hplace]
    exact placeAll_nil fs

/-- The slots of a record all of whose fields have been read. -/
def filled : {αs : List Type} → Row αs → Values αs → Slots αs
  | _, nil, _ => ()
  | _, cons _ rest, (a, as) => slotCons (some a) (rest.filled as)

theorem complete_filled : ∀ {αs : List Type} (row : Row αs) (as : Values αs),
    row.complete (row.filled as) = .ok as
  | _, nil, _ => rfl
  | _, cons _ rest, (a, as) => by
    have hrest := complete_filled rest as
    exact congrArg (· >>= fun as => .ok (a, as)) hrest

/-- All fields of a row are found. -/
theorem placeAll_of_shows {origin : Origin} : ∀ {αs : List Type} {row : Row αs}
    {fs : List (String × Json)} {as : Values αs}, row.names.Nodup → row.Shows fs as →
      row.placeAll origin (Document.ofFields fs) row.empty = .ok (row.filled as)
  | _, nil, fs, _, _, _ => placeAll_nil fs
  | _, cons field rest, fs, (a, as), hnames, h => by
    obtain ⟨hname, hnames⟩ := List.nodup_cons.mp hnames
    obtain ⟨⟨j, hj, hshows⟩, hrest⟩ := h
    have hothers : rest.Shows (fs.filter fun f => f.1 ≠ field.name) as := by
      refine shows_congr hrest fun name hmem => ?_
      rw [List.filter_filter]
      refine List.filter_congr fun f _ => ?_
      by_cases hf : f.1 = name
      · simp [hf, ne_of_mem_of_not_mem hmem hname]
      · simp [hf]
    show (cons field rest).placeAll origin (Document.ofFields fs) (slotCons none rest.empty) = _
    rw [placeAll_of_filter (hshows origin) _ hj, placeAll_of_shows hnames hothers]
    rfl

theorem decode_of_shows {origin : Origin} {row : Row αs} {fs : List (String × Json)}
    {as : Values αs} (record : String) (hnames : row.names.Nodup) (h : row.Shows fs as) :
    row.decode origin record (.ofJson (.object fs)) = .ok as := by
  rw [Document.ofJson, decode, placeAll_of_shows hnames h]
  exact complete_filled row as

end Row

/-- **Records are read from objects** with their fields in any order, among any others. -/
theorem Shows.record {αs : List Type} {name : String} {row : Row αs} {out : α → Values αs}
    {of : Values αs → α} {fs : List (String × Json)} {a : α} (hnames : row.names.Nodup)
    (h : row.Shows fs (out a)) (hof : of (out a) = a) :
    (record name row out of).Shows (.object fs) a := by
  intro origin
  rw [Codec.record]
  dsimp only
  rw [Row.decode_of_shows name hnames h]
  exact congrArg Except.ok hof

theorem Row.map_fst_encode : ∀ {αs : List Type} (row : Row αs) (as : Values αs),
    (row.encode as).map Prod.fst = row.names
  | _, nil, _ => rfl
  | _, cons _ rest, (_, as) => by rw [encode, List.map_cons, map_fst_encode rest as, names]

/-- What shows a message shows it as a text too. -/
theorem Shows.ofText_compact {c : Codec α} {j : Json} {a : α} (h : c.Shows j a) (hj : j.Plain) :
    c.ofText j.compact = .ok a := by
  rw [Codec.ofText, Document.ofText_compact hj]
  show (c.decode .text (.ofJson j) >>= fun a => .ok a) = .ok a
  rw [h .text]
  rfl

/-! ### Lossless codecs -/

/-- Whatever is written is read again, also with its fields in another order; all numbers that are
written are counts. -/
structure Lossless (c : Codec α) : Prop where
  plain : ∀ a, (c.encode a).Plain
  shows : ∀ g : Json → Json, Json.Rearranges g → ∀ a, c.Shows (g (c.encode a)) a

namespace Lossless

variable {c : Codec α} (h : c.Lossless) (a : α)
include h

theorem ofJson_encode : c.ofJson (c.encode a) = .ok a := h.shows id Json.rearranges_id a .memory

theorem ofJson_sorted : c.ofJson (c.encode a).sorted = .ok a :=
  h.shows Json.sorted Json.rearranges_sorted a .memory

theorem ofText_compact : c.ofText (c.encode a).compact = .ok a :=
  (h.shows id Json.rearranges_id a).ofText_compact (h.plain a)

end Lossless

end Codec

end Guardianship
