import Guardianship.Proofs.Json.Codec
import Guardianship.Proofs.Octets.Hex

/-!
# Messages in other spellings

What is written of a message can be spelled otherwise: hexadecimal digits in capital letters, the
fields of a record in another order and among fields that it does not know, and a record as the
array of its values (`Json.Respells`).  A codec follows a shape if it writes in this shape and reads
the message from all other spellings (`Codec.Follows`).  Codecs of lists and records follow the
shape that is made up of those of their parts (`Codec.Follows.list`, `Codec.follows_record`), and
all codecs that follow a shape are lossless (`Codec.Follows.lossless`).
-/

namespace Guardianship

/-! ### Spellings -/

namespace Json

/-- What can be spelled otherwise in a value. -/
inductive Shape
  /-- Nothing. -/
  | single
  /-- The case of letters. -/
  | hex
  | list (item : Shape)
  /-- The order of fields, and that they have names. -/
  | record (fields : List (String × Shape))

mutual

/-- The second value is another spelling of the first, which is written in the shape. -/
inductive Respells : Shape → Json → Json → Prop
  | single (j : Json) : Respells .single j j
  | hex {s t : String} : t.toLower = s → Respells .hex (.string s) (.string t)
  | list {σ : Shape} {js ks : List Json} :
    RespellsItems σ js ks → Respells (.list σ) (.array js) (.array ks)
  | object {fields : List (String × Shape)} {fs gs others hs : List (String × Json)} :
    RespellsFields fields fs gs → (∀ f ∈ others, f.1 ∉ fields.map Prod.fst) →
      hs.Perm (gs ++ others) → Respells (.record fields) (.object fs) (.object hs)
  | array {fields : List (String × Shape)} {fs gs : List (String × Json)} :
    RespellsFields fields fs gs →
      Respells (.record fields) (.object fs) (.array (gs.map Prod.snd))

/-- The items of lists are spelled otherwise, one by one. -/
inductive RespellsItems : Shape → List Json → List Json → Prop
  | nil {σ : Shape} : RespellsItems σ [] []
  | cons {σ : Shape} {j k : Json} {js ks : List Json} : Respells σ j k → RespellsItems σ js ks →
    RespellsItems σ (j :: js) (k :: ks)

/-- The values of fields are spelled otherwise, one by one. -/
inductive RespellsFields :
    List (String × Shape) → List (String × Json) → List (String × Json) → Prop
  | nil : RespellsFields [] [] []
  | cons {name : String} {σ : Shape} {j k : Json} {fields : List (String × Shape)}
      {fs gs : List (String × Json)} : Respells σ j k → RespellsFields fields fs gs →
    RespellsFields ((name, σ) :: fields) ((name, j) :: fs) ((name, k) :: gs)

end

theorem RespellsFields.map_fst : ∀ {fields : List (String × Shape)} {fs gs : List (String × Json)},
    RespellsFields fields fs gs → gs.map Prod.fst = fields.map Prod.fst
  | _, _, _, .nil => rfl
  | _, _, _, .cons _ h => congrArg _ h.map_fst

end Json

namespace Codec

open Json

variable {α β : Type}

/-- The codec writes in a shape, with fields in whatever order, and it reads whatever is spelled
otherwise in this shape. -/
structure Follows (c : Codec α) (σ : Shape) : Prop where
  plain : ∀ a, (c.encode a).Plain
  writes : ∀ g : Json → Json, Rearranges g → ∀ a, Respells σ (c.encode a) (g (c.encode a))
  shows : ∀ {a : α} {j : Json}, Respells σ (c.encode a) j → c.Shows j a

theorem Follows.lossless {c : Codec α} {σ : Shape} (h : c.Follows σ) : c.Lossless :=
  ⟨h.plain, fun g hg a => h.shows (h.writes g hg a)⟩

/-! ### Single values and lists -/

theorem follows_text : text.Follows .single where
  plain _ := trivial
  writes g hg s := (hg.string s).symm ▸ .single _
  shows h := by
    cases h with
    | single => exact shows_text _

theorem follows_word (kind : String) : (word kind).Follows .single where
  plain n := ⟨n, rfl⟩
  writes g hg n := (hg.number (.natural n)).symm ▸ .single _
  shows h := by
    cases h with
    | single => exact shows_word kind _

theorem follows_flag : flag.Follows .single where
  plain _ := trivial
  writes g hg b := (hg.bool b).symm ▸ .single _
  shows h := by
    cases h with
    | single => exact fun _ => rfl

theorem Follows.via {c : Codec α} {σ : Shape} (h : c.Follows σ) {out : β → α}
    {from? : α → Except DecodeError β} (hfrom : ∀ b, from? (out b) = .ok b) :
    (c.via out from?).Follows σ where
  plain b := h.plain (out b)
  writes g hg b := h.writes g hg (out b)
  shows hj := (h.shows hj).via (hfrom _)

theorem follows_octets : octets.Follows .hex where
  plain _ := trivial
  writes g hg xs := by
    show Respells .hex (.string (Hex.encode xs)) (g (.string (Hex.encode xs)))
    rw [hg.string]
    exact .hex (Hex.toLower_encode xs)
  shows h := by
    cases h with
    | hex ht =>
      refine (shows_text _).via ?_
      rw [Hex.decode_eq_ok_iff.mpr ht]
      rfl

theorem forall₂_shows {c : Codec α} {σ : Shape} (h : c.Follows σ) :
    ∀ {as : List α} {ks : List Json}, RespellsItems σ (as.map c.encode) ks →
      List.Forall₂ c.Shows ks as
  | [], _, .nil => .nil
  | _ :: _, _, .cons hk hks => .cons (h.shows hk) (forall₂_shows h hks)

theorem respellsItems_map {c : Codec α} {σ : Shape} (h : c.Follows σ) {g : Json → Json}
    (hg : Rearranges g) :
    ∀ as : List α, RespellsItems σ (as.map c.encode) ((as.map c.encode).map g)
  | [] => .nil
  | a :: as => .cons (h.writes g hg a) (respellsItems_map h hg as)

theorem plainItems_map {c : Codec α} {σ : Shape} (h : c.Follows σ) :
    ∀ as : List α, Json.PlainItems (as.map c.encode)
  | [] => trivial
  | a :: as => ⟨h.plain a, plainItems_map h as⟩

theorem Follows.list {c : Codec α} {σ : Shape} (h : c.Follows σ) :
    (list c).Follows (.list σ) where
  plain as := plainItems_map h as
  writes g hg as := by
    show Respells (.list σ) (.array (as.map c.encode)) (g (.array (as.map c.encode)))
    rw [hg.array]
    exact .list (respellsItems_map h hg as)
  shows hj := by
    cases hj with
    | list hks => exact .list (forall₂_shows h hks)

theorem follows_variants {vs : List (String × α)} {name : α → String}
    (hfind : ∀ a, (vs.find? fun v => v.1 = name a) = some (name a, a)) :
    (variants vs name).Follows .single where
  plain _ := trivial
  writes g hg a := (hg.string (name a)).symm ▸ .single _
  shows {a _} h := by
    have hvariant : decodeVariant vs (name a) = .ok a := by rw [decodeVariant, hfind]
    cases h with
    | single =>
      intro origin
      cases origin <;> exact hvariant

/-! ### Records -/

namespace Row

/-- The fields of a row have the names and follow the shapes of those of a record. -/
inductive Follows : {αs : List Type} → Row αs → List (String × Shape) → Prop
  | nil : Follows nil []
  | cons {α : Type} {αs : List Type} {field : Field α} {rest : Row αs} {σ : Shape}
      {fields : List (String × Shape)} : field.codec.Follows σ → rest.Follows fields →
    Follows (cons field rest) ((field.name, σ) :: fields)

variable {αs : List Type} {row : Row αs} {fields : List (String × Shape)}

theorem filter_of_notMem {name : String} {fs : List (String × Json)}
    (h : name ∉ fs.map Prod.fst) : fs.filter (fun f => f.1 = name) = [] := by
  refine List.filter_eq_nil_iff.mpr fun f hf => ?_
  simpa using ne_of_mem_of_not_mem (List.mem_map_of_mem hf) h

/-- Fields that have no names in the row may be added. -/
theorem Shows.append {fs others : List (String × Json)} {as : Values αs} (h : row.Shows fs as)
    (hothers : ∀ f ∈ others, f.1 ∉ row.names) : row.Shows (fs ++ others) as := by
  refine shows_congr h fun name hmem => ?_
  have hnot : name ∉ others.map Prod.fst := by
    intro h
    obtain ⟨f, hf, rfl⟩ := List.mem_map.mp h
    exact hothers f hf hmem
  rw [List.filter_append, filter_of_notMem hnot, List.append_nil]

namespace Follows

theorem names_eq (h : row.Follows fields) : row.names = fields.map Prod.fst := by
  induction h with
  | nil => rfl
  | cons _ _ ih => exact congrArg _ ih

theorem plain (h : row.Follows fields) (as : Values αs) : Json.PlainFields (row.encode as) := by
  induction h with
  | nil => trivial
  | cons hfield _ ih => exact ⟨hfield.plain as.1, ih as.2⟩

theorem writes (h : row.Follows fields) {g : Json → Json} (hg : Rearranges g) (as : Values αs) :
    RespellsFields fields (row.encode as) ((row.encode as).map (Prod.map id g)) := by
  induction h with
  | nil => exact .nil
  | cons hfield _ ih => exact .cons (hfield.writes g hg as.1) (ih as.2)

/-- Fields under their names are found. -/
theorem shows (h : row.Follows fields) : ∀ {as : Values αs} {gs : List (String × Json)},
    (fields.map Prod.fst).Nodup → RespellsFields fields (row.encode as) gs → row.Shows gs as := by
  induction h with
  | nil => exact fun _ _ => trivial
  | @cons _ _ field rest σ fields hfield hrest ih =>
    rintro ⟨a, as⟩ _ hnames h
    cases h with
    | cons hk hgs =>
      obtain ⟨hname, hnames⟩ := List.nodup_cons.mp hnames
      refine ⟨⟨_, ?_, hfield.shows hk⟩, shows_congr (ih hnames hgs) fun name hmem => ?_⟩
      · rw [List.filter_cons_of_pos (by simp), filter_of_notMem (hgs.map_fst ▸ hname)]
      · rw [hrest.names_eq] at hmem
        exact List.filter_cons_of_neg (by simpa using (ne_of_mem_of_not_mem hmem hname).symm)

/-- Values without their names are found in the order of the row. -/
theorem fill_eq (h : row.Follows fields) {origin : Origin} {record : String} {total size : ℕ} :
    ∀ {as : Values αs} {gs : List (String × Json)}, RespellsFields fields (row.encode as) gs →
      row.fill origin record total size .closed (Document.ofItems (gs.map Prod.snd)) = .ok as := by
  induction h with
  | nil =>
    intro _ _ h
    cases h
    cases origin <;> rfl
  | cons hfield _ ih =>
    rintro ⟨a, as⟩ _ h
    cases h with
    | cons hk hgs =>
      rw [List.map_cons, Document.ofItems, fill, hfield.shows hk origin]
      exact congrArg (· >>= fun as => .ok (a, as)) (ih hgs)

end Follows

end Row

/-- **Codecs of records follow a shape** if those of their fields do. -/
theorem follows_record {αs : List Type} {name : String} {row : Row αs}
    {fields : List (String × Shape)} {out : α → Values αs} {of : Values αs → α}
    (hrow : row.Follows fields) (hnames : (fields.map Prod.fst).Nodup)
    (hof : ∀ a, of (out a) = a) : (record name row out of).Follows (.record fields) where
  plain a := hrow.plain (out a)
  writes g hg a := by
    have hkeys : ((row.encode (out a)).map Prod.fst).Nodup := by
      rwa [Row.map_fst_encode, hrow.names_eq]
    obtain ⟨gs, hgs, hperm⟩ := hg.object _ hkeys
    show Respells _ _ (g (.object (row.encode (out a))))
    have hnone : gs.Perm ((row.encode (out a)).map (Prod.map id g) ++ []) := by
      rw [List.append_nil]
      exact hperm.symm
    rw [hgs]
    exact .object (hrow.writes hg (out a)) (List.forall_mem_nil _) hnone
  shows {a _} h := by
    have hrownames := hrow.names_eq
    cases h with
    | object hgs hothers hperm =>
      refine .record (hrownames ▸ hnames) (Row.Shows.perm hperm.symm ?_) (hof a)
      exact (hrow.shows hnames hgs).append (hrownames ▸ hothers)
    | @array _ _ gs hgs =>
      intro origin
      show (row.fill origin name _ row.size .closed (Document.ofItems (gs.map Prod.snd)) >>=
        fun as => .ok (of as)) = .ok a
      rw [hrow.fill_eq hgs]
      exact congrArg Except.ok (hof a)

end Codec

end Guardianship
