import Guardianship.Json.Reader
import Mathlib.Data.List.Basic

/-!
# Texts of JSON values are read back

Main statement: the document of a value's text on one line is the document of the value, and nothing
is left over (`Document.ofText_compact`), for values all of whose numbers are counts (`Json.Plain`).

A value is read up to what follows it, which has to be a comma, a bracket or the end of the text
(`Reader.Ends`), since the digits of a number would go on otherwise.  The readers of items and
fields need fewer steps than the text has characters.
-/

namespace Guardianship

open Json (escape)

namespace Document.Reader

/-! ### Strings -/

theorem charValue?_digitChar : ∀ d < 16, Hex.charValue? (Nat.digitChar d) = some d := by decide

theorem hexUnit_of_lt {n : Nat} (h : n < 256) (rest : List Char) :
    hexUnit ('0' :: '0' :: Nat.digitChar (n / 16) :: Nat.digitChar (n % 16) :: rest) =
      .ok (n, rest) := by
  have h0 : Hex.charValue? '0' = some 0 := by decide
  unfold hexUnit
  simp only [List.take_succ_cons, List.take_zero, List.mapM_cons, List.mapM_nil, h0,
    charValue?_digitChar (n / 16) (by omega), charValue?_digitChar (n % 16) (by omega)]
  show Except.ok (((0 * 16 + 0) * 16 + n / 16) * 16 + n % 16, rest) = _
  congr 2
  omega

theorem unicode_of_lt {n : Nat} (h : n < 256) (rest : List Char) :
    unicode ('0' :: '0' :: Nat.digitChar (n / 16) :: Nat.digitChar (n % 16) :: rest) =
      .ok (Char.ofNat n, rest) := by
  have hlow : isLow n = false := by simp [isLow]; omega
  have hhigh : isHigh n = false := by simp [isHigh]; omega
  unfold unicode
  rw [hexUnit_of_lt h]
  show (if isLow n = true then _ else _) = _
  rw [hlow, hhigh]
  rfl

/-- Every character is read as it was escaped. -/
theorem element_escape (c : Char) (rest : List Char) :
    element (escape c ++ rest) = .ok (some c, rest) := by
  unfold escape
  split_ifs with h1 h2 h3 h4 h5 h6 h7 h8
  · subst h1; rfl
  · subst h2; rfl
  · subst h3; rfl
  · subst h4; rfl
  · subst h5; rfl
  · rw [← Char.ofNat_toNat c, h6]; rfl
  · rw [← Char.ofNat_toNat c, h7]; rfl
  · have hunicode := unicode_of_lt (show c.toNat < 256 by omega) rest
    rw [Char.ofNat_toNat] at hunicode
    exact congrArg (· >>= fun x => Except.ok (some x.1, x.2)) hunicode
  · unfold element
    simp [h2, h8]

theorem escape_ne_nil (c : Char) : escape c ≠ [] := by
  unfold escape
  split_ifs <;> simp

/-- The characters of a string are read up to its closing quote. -/
theorem characters_flatMap_escape (rest : List Char) :
    ∀ (cs done : List Char) (fuel : Nat), cs.length < fuel →
      characters fuel (cs.flatMap escape ++ '"' :: rest) done =
        .ok (String.ofList (done.reverse ++ cs), rest)
  | [], done, fuel + 1, _ => by
    rw [List.append_nil]
    rfl
  | c :: cs, done, fuel + 1, h => by
    rw [List.flatMap_cons, List.append_assoc, characters, element_escape]
    dsimp only
    rw [characters_flatMap_escape rest cs (c :: done) fuel (by simpa using h), List.reverse_cons,
      List.append_assoc]
    rfl

theorem length_le_length_flatMap_escape : ∀ cs : List Char,
    cs.length ≤ (cs.flatMap escape).length
  | [] => Nat.le_refl _
  | c :: cs => by
    have hpos := List.length_pos_iff.mpr (escape_ne_nil c)
    have ih := length_le_length_flatMap_escape cs
    rw [List.flatMap_cons, List.length_append, List.length_cons]
    omega

/-- A string between its quotes is read. -/
theorem string_escaped (s : String) (rest : List Char) :
    string (s.toList.flatMap escape ++ '"' :: rest) = (.string s, some rest) := by
  have hlen := length_le_length_flatMap_escape s.toList
  have hread := characters_flatMap_escape rest s.toList []
    ((s.toList.flatMap escape ++ '"' :: rest).length + 1)
    (by rw [List.length_append]; omega)
  unfold string
  dsimp only
  rw [hread, List.reverse_nil, List.nil_append, String.ofList_toList]
  rfl

/-! ### Numbers -/

/-- What follows a value in a text: nothing, a comma or a bracket. -/
def Ends (cs : List Char) : Prop := ∀ c ∈ cs.head?, c = ',' ∨ c = ']' ∨ c = '\x7d'

theorem ends_nil : Ends [] := fun c hc => by cases hc

theorem Ends.not_isDigit {c : Char} {cs : List Char} (h : Ends (c :: cs)) : ¬ c.isDigit = true := by
  obtain rfl | rfl | rfl := h c rfl <;> decide

theorem isDigit_of_mem_toDigits {n : Nat} {c : Char} (h : c ∈ Nat.toDigits 10 n) :
    c.isDigit = true :=
  Nat.isDigit_of_mem_toDigits (by decide) (by decide) h

theorem exists_cons_toDigits (n : Nat) :
    ∃ c cs, Nat.toDigits 10 n = c :: cs ∧ c.isDigit = true := by
  obtain ⟨c, cs, hcs⟩ := List.exists_cons_of_ne_nil (Nat.toDigits_ne_nil (n := n) (b := 10))
  exact ⟨c, cs, hcs, isDigit_of_mem_toDigits (hcs ▸ List.mem_cons_self)⟩

/-- The digits of a number are taken, and no more. -/
theorem digits_toDigits (fault : List Char → Fault) (n : Nat) {rest : List Char}
    (h : Ends rest) :
    digits fault (Nat.toDigits 10 n ++ rest) =
      .ok ((Nat.toDigits 10 n).map digitValue, rest) := by
  have hdigit : ∀ c ∈ Nat.toDigits 10 n, c.isDigit = true := fun _ => isDigit_of_mem_toDigits
  have hrest : rest.takeWhile Char.isDigit = [] ∧ rest.dropWhile Char.isDigit = rest := by
    cases rest with
    | nil => exact ⟨rfl, rfl⟩
    | cons c cs =>
      exact ⟨List.takeWhile_cons_of_neg h.not_isDigit, List.dropWhile_cons_of_neg h.not_isDigit⟩
  unfold digits
  dsimp only
  rw [List.takeWhile_append_of_pos hdigit, List.dropWhile_append_of_pos hdigit, hrest.1, hrest.2,
    List.append_nil, if_neg (by simp)]

/-- Only the number zero begins with the digit zero. -/
theorem head?_toDigits_ne {n : Nat} :
    0 < n → ((Nat.toDigits 10 n).map digitValue).head? ≠ some 0 := by
  induction n using Nat.strongRecOn with
  | _ n ih =>
    intro hpos
    rcases Nat.lt_or_ge n 10 with hlt | hge
    · rw [Nat.toDigits_of_lt_base hlt, List.map_singleton, List.head?_cons, digitValue,
        Nat.toNat_digitChar_sub_48_of_lt_ten hlt, ne_eq, Option.some_inj]
      omega
    · rw [Nat.toDigits_of_base_le (by decide) hge, List.map_append,
        List.head?_append_of_ne_nil _ (by simp [Nat.toDigits_ne_nil])]
      exact ih (n / 10) (by omega) (by omega)

/-- Digits that do not begin with a superfluous zero are a numeral if nothing goes on with them. -/
theorem numeral_of_digits {fault : List Char → Fault} {c : Char} {cs rest : List Char}
    {ds : List Nat} (hc : c ≠ '-') (hdigits : digits fault (c :: cs) = .ok (ds, rest))
    (hzero : ¬ (ds.head? = some 0 ∧ 1 < ds.length)) (h : Ends rest) :
    numeral fault (c :: cs) = .ok (⟨false, ds, none, none⟩, rest) := by
  unfold numeral
  split
  rename_i negative text hsign
  obtain ⟨rfl, rfl⟩ : false = negative ∧ c :: cs = text := by simpa [hc] using hsign
  rw [hdigits]
  show (if ds.head? = some 0 ∧ 1 < ds.length then _ else _) = _
  rw [if_neg hzero]
  cases rest with
  | nil => rfl
  | cons d rest => obtain rfl | rfl | rfl := h d rfl <;> rfl

theorem numeral_toDigits (fault : List Char → Fault) (n : Nat) {rest : List Char}
    (h : Ends rest) :
    numeral fault (Nat.toDigits 10 n ++ rest) =
      .ok (⟨false, (Nat.toDigits 10 n).map digitValue, none, none⟩, rest) := by
  have hdigits := digits_toDigits fault n h
  have hzero : ¬ (((Nat.toDigits 10 n).map digitValue).head? = some 0 ∧
      1 < ((Nat.toDigits 10 n).map digitValue).length) := by
    rintro ⟨hhead, hlen⟩
    rcases Nat.eq_zero_or_pos n with rfl | hpos
    · exact absurd hlen (by decide)
    · exact head?_toDigits_ne hpos hhead
  obtain ⟨c, cs, hcs, hc⟩ := exists_cons_toDigits n
  rw [hcs] at hdigits hzero ⊢
  refine numeral_of_digits ?_ hdigits hzero h
  rintro rfl
  exact absurd hc (by decide)

theorem digitsValue_toDigits (n : Nat) :
    Json.Numeral.digitsValue ((Nat.toDigits 10 n).map digitValue) = n := by
  have hfold := Nat.ofDigitChars_ten_toDigits (n := n)
  rw [Nat.ofDigitChars_eq_foldl] at hfold
  rw [Json.Numeral.digitsValue, List.foldl_map]
  exact hfold

/-- The digits of a count are read. -/
theorem number_toDigits (n : UInt64) {rest : List Char} (h : Ends rest) :
    number (Nat.toDigits 10 n.toNat ++ rest) = (.number (.natural n), some rest) := by
  have hvalue : Json.Numeral.value? ⟨false, (Nat.toDigits 10 n.toNat).map digitValue, none, none⟩ =
      some (.natural n) := by
    unfold Json.Numeral.value?
    dsimp only
    have hmax : n.toNat ≤ Json.Numeral.wordMax := by
      have hlt := n.toNat_lt
      simp only [Json.Numeral.wordMax, UInt64.size]
      omega
    rw [digitsValue_toDigits, if_pos ⟨rfl, rfl, hmax⟩, if_pos rfl]
    simp
  unfold number
  rw [numeral_toDigits _ _ h]
  dsimp only [bind, Except.bind]
  rw [hvalue]
  rfl

end Document.Reader

/-! ### The text of a value -/

namespace Json

mutual

/-- All numbers in a value are counts. -/
def Plain : Json → Prop
  | .number n => ∃ k, n = .natural k
  | .array js => PlainItems js
  | .object fs => PlainFields fs
  | _ => True

def PlainItems : List Json → Prop
  | [] => True
  | j :: js => j.Plain ∧ PlainItems js

def PlainFields : List (String × Json) → Prop
  | [] => True
  | (_, j) :: fs => j.Plain ∧ PlainFields fs

end

/-- What is written after the first item of a list. -/
def moreItems : List Json → List Char
  | [] => []
  | j :: js => ',' :: (j.compact.toList ++ moreItems js)

theorem toList_compactItems_cons : ∀ (j : Json) (js : List Json),
    (compactItems (j :: js)).toList = j.compact.toList ++ moreItems js
  | j, [] => by rw [compactItems, moreItems, List.append_nil]
  | j, i :: js => by
    rw [compactItems, String.toList_append, String.toList_append, toList_compactItems_cons i js,
      moreItems]
    · simp
    · simp

theorem toList_quote (s : String) :
    (quote s).toList = '"' :: (s.toList.flatMap escape ++ ['"']) := by
  rw [quote, String.toList_ofList]
  rfl

/-- What is written of a field. -/
def fieldText (name : String) (j : Json) : List Char :=
  (quote name).toList ++ ':' :: j.compact.toList

theorem length_compact_lt_length_fieldText (name : String) (j : Json) :
    j.compact.toList.length < (fieldText name j).length := by
  rw [fieldText, List.length_append, List.length_cons]
  omega

/-- What is written after the first field of an object. -/
def moreFields : List (String × Json) → List Char
  | [] => []
  | (name, j) :: fs => ',' :: (fieldText name j ++ moreFields fs)

theorem toList_compactFields_cons : ∀ (name : String) (j : Json) (fs : List (String × Json)),
    (compactFields ((name, j) :: fs)).toList = fieldText name j ++ moreFields fs
  | name, j, [] => by
    rw [compactFields, moreFields, List.append_nil, fieldText]
    simp
  | name, j, (n, i) :: fs => by
    rw [compactFields, String.toList_append, toList_compactFields_cons n i fs, moreFields]
    · simp [fieldText]
    · simp

theorem toList_compact_array (js : List Json) :
    (array js).compact.toList = '[' :: ((compactItems js).toList ++ [']']) := by
  rw [compact]
  simp

theorem toList_compact_object (fs : List (String × Json)) :
    (object fs).compact.toList = '\x7b' :: ((compactFields fs).toList ++ ['\x7d']) := by
  rw [compact]
  simp

theorem toList_compact_natural (n : UInt64) :
    (natural n).compact.toList = Nat.toDigits 10 n.toNat := by
  rw [natural, compact, Number.text, Nat.toString_eq_ofList_toDigits, String.toList_ofList]

end Json

/-! ### Values -/

namespace Document.Reader

open Json

theorem ends_moreItems (js : List Json) (rest : List Char) :
    Ends (moreItems js ++ ']' :: rest) := by
  cases js with
  | nil => exact fun c hc => .inr (.inl (Option.some_inj.mp hc).symm)
  | cons j js => exact fun c hc => .inl (Option.some_inj.mp hc).symm

theorem ends_moreFields (fs : List (String × Json)) (rest : List Char) :
    Ends (moreFields fs ++ '\x7d' :: rest) := by
  cases fs with
  | nil => exact fun c hc => .inr (.inr (Option.some_inj.mp hc).symm)
  | cons f fs => exact fun c hc => .inl (Option.some_inj.mp hc).symm

/-- A character with which a value can begin: neither a blank nor a closing bracket. -/
def Begins (c : Char) : Prop := isBlank c = false ∧ c ≠ ']' ∧ c ≠ '\x7d'

instance : DecidablePred Begins := fun c =>
  inferInstanceAs (Decidable (isBlank c = false ∧ c ≠ ']' ∧ c ≠ '\x7d'))

theorem begins_of_isDigit {c : Char} (h : c.isDigit = true) : Begins c := by
  refine ⟨?_, ?_, ?_⟩
  · rw [Bool.eq_false_iff]
    intro hblank
    have hcases : ((c = ' ' ∨ c = '\n') ∨ c = '\t') ∨ c = '\r' := by simpa [isBlank] using hblank
    obtain ((rfl | rfl) | rfl) | rfl := hcases <;> exact absurd h (by decide)
  · rintro rfl
    exact absurd h (by decide)
  · rintro rfl
    exact absurd h (by decide)

theorem exists_head_compact {j : Json} (h : j.Plain) :
    ∃ c cs, j.compact.toList = c :: cs ∧ Begins c := by
  cases j with
  | null => exact ⟨'n', ['u', 'l', 'l'], by decide, by decide⟩
  | bool b =>
    cases b
    · exact ⟨'f', ['a', 'l', 's', 'e'], by decide, by decide⟩
    · exact ⟨'t', ['r', 'u', 'e'], by decide, by decide⟩
  | number n =>
    obtain ⟨k, rfl⟩ := h
    obtain ⟨c, cs, hcs, hc⟩ := exists_cons_toDigits k.toNat
    exact ⟨c, cs, (toList_compact_natural k).trans hcs, begins_of_isDigit hc⟩
  | string s => exact ⟨'"', _, toList_quote s, by decide⟩
  | array js => exact ⟨'[', _, toList_compact_array js, by decide⟩
  | object fs => exact ⟨'\x7b', _, toList_compact_object fs, by decide⟩

theorem dropBlanks_cons {c : Char} (h : isBlank c = false) (cs : List Char) :
    dropBlanks (c :: cs) = c :: cs :=
  List.dropWhile_cons_of_neg (by simp [h])

/-- An item after which the array goes on. -/
theorem items_item {fuel : Nat} {j : Json} {rest : List Char} {d : Document} (hj : j.Plain)
    (h : value fuel (j.compact.toList ++ rest) = (d, some rest)) (done : List Document) :
    items (fuel + 1) (j.compact.toList ++ rest) done true = items fuel rest (d :: done) false ∧
      items (fuel + 1) (',' :: (j.compact.toList ++ rest)) done false =
        items fuel rest (d :: done) false := by
  obtain ⟨c, cs, hcs, hc⟩ := exists_head_compact hj
  rw [hcs, List.cons_append] at h ⊢
  constructor
  · rw [items]
    simp [dropBlanks_cons hc.1, hc.2.1, h]
  · rw [items]
    simp [dropBlanks_cons (c := ',') rfl, dropBlanks_cons hc.1, hc.2.1, h]

/-- A field after which the object goes on. -/
theorem fields_field {fuel : Nat} {name : String} {j : Json} {rest : List Char} {d : Document}
    (h : value fuel (j.compact.toList ++ rest) = (d, some rest))
    (done : List (Document × Document)) :
    fields (fuel + 1) (fieldText name j ++ rest) done true =
        fields fuel rest ((.string name, d) :: done) false ∧
      fields (fuel + 1) (',' :: (fieldText name j ++ rest)) done false =
        fields fuel rest ((.string name, d) :: done) false := by
  have hkey : ∀ cs, string (name.toList.flatMap escape ++ '"' :: cs) = (.string name, some cs) :=
    string_escaped name
  simp only [fieldText, toList_quote, List.cons_append, List.append_assoc, List.nil_append]
  constructor
  · rw [fields]
    simp [dropBlanks_cons (c := '"') rfl, dropBlanks_cons (c := ':') rfl, hkey, h]
  · rw [fields]
    simp [dropBlanks_cons (c := ',') rfl, dropBlanks_cons (c := '"') rfl,
      dropBlanks_cons (c := ':') rfl, hkey, h]

theorem value_of_isDigit {c : Char} (h : c.isDigit = true) (fuel : Nat) (cs : List Char) :
    value (fuel + 1) (c :: cs) = number (c :: cs) := by
  have hne : ∀ d : Char, d.isDigit = false → c ≠ d := by
    rintro d hd rfl
    rw [h] at hd
    cases hd
  rw [value, dropBlanks_cons (begins_of_isDigit h).1]
  simp [hne '"' (by decide), hne '[' (by decide), hne '\x7b' (by decide), hne 't' (by decide),
    hne 'f' (by decide), hne 'n' (by decide), h]

mutual

/-- **A written value is read**, and nothing of what follows it. -/
theorem value_compact {rest : List Char} (hends : Ends rest) : ∀ {j : Json} {fuel : Nat}, j.Plain →
    j.compact.toList.length < fuel →
      value fuel (j.compact.toList ++ rest) = (ofJson j, some rest)
  | .null, fuel + 1, _, _ => by
    rw [value]
    rfl
  | .bool b, fuel + 1, _, _ => by
    rw [value]
    cases b <;> rfl
  | .number n, fuel + 1, h, _ => by
    obtain ⟨k, rfl⟩ := h
    obtain ⟨c, cs, hcs, hc⟩ := exists_cons_toDigits k.toNat
    have hread := number_toDigits k hends
    show value (fuel + 1) ((natural k).compact.toList ++ rest) = _
    rw [hcs] at hread
    rw [toList_compact_natural, hcs, List.cons_append, value_of_isDigit hc]
    exact hread
  | .string s, fuel + 1, _, _ => by
    show value (fuel + 1) ((quote s).toList ++ rest) = _
    rw [toList_quote, List.cons_append, List.append_assoc, value, dropBlanks_cons (by decide)]
    exact string_escaped s rest
  | .array js, fuel + 1, h, hfuel => by
    rw [toList_compact_array, List.length_cons, List.length_append, List.length_singleton] at hfuel
    rw [toList_compact_array, List.cons_append, List.append_assoc, value,
      dropBlanks_cons (by decide)]
    exact items_compactItems h (by omega)
  | .object fs, fuel + 1, h, hfuel => by
    rw [toList_compact_object, List.length_cons, List.length_append,
      List.length_singleton] at hfuel
    rw [toList_compact_object, List.cons_append, List.append_assoc, value,
      dropBlanks_cons (by decide)]
    exact fields_compactFields h (by omega)

theorem items_compactItems {rest : List Char} : ∀ {js : List Json} {fuel : Nat}, PlainItems js →
    (compactItems js).toList.length + 1 < fuel →
      items fuel ((compactItems js).toList ++ ']' :: rest) [] true =
        (.array (ofItems js) .closed, some rest)
  | [], fuel + 1, _, _ => by
    rw [items]
    rfl
  | j :: js, fuel + 1, h, hfuel => by
    obtain ⟨hj, hjs⟩ := h
    rw [toList_compactItems_cons, List.length_append] at hfuel
    have hvalue := value_compact (ends_moreItems js rest) hj (show _ < fuel by omega)
    rw [toList_compactItems_cons, List.append_assoc, (items_item hj hvalue []).1]
    exact items_moreItems [ofJson j] hjs (by omega)

theorem items_moreItems {rest : List Char} : ∀ {js : List Json} {fuel : Nat}
    (done : List Document), PlainItems js → (moreItems js).length < fuel →
      items fuel (moreItems js ++ ']' :: rest) done false =
        (.array (done.reverse ++ ofItems js) .closed, some rest)
  | [], fuel + 1, done, _, _ => by
    rw [items, ofItems, List.append_nil]
    rfl
  | j :: js, fuel + 1, done, h, hfuel => by
    obtain ⟨hj, hjs⟩ := h
    rw [moreItems, List.length_cons, List.length_append] at hfuel
    have hvalue := value_compact (ends_moreItems js rest) hj (show _ < fuel by omega)
    rw [moreItems, List.cons_append, List.append_assoc, (items_item hj hvalue done).2,
      items_moreItems _ hjs (by omega), List.reverse_cons, List.append_assoc]
    rfl

theorem fields_compactFields {rest : List Char} : ∀ {fs : List (String × Json)} {fuel : Nat},
    PlainFields fs → (compactFields fs).toList.length + 1 < fuel →
      fields fuel ((compactFields fs).toList ++ '\x7d' :: rest) [] true =
        (.object (ofFields fs) .closed, some rest)
  | [], fuel + 1, _, _ => by
    rw [fields]
    rfl
  | (name, j) :: fs, fuel + 1, h, hfuel => by
    obtain ⟨hj, hfs⟩ := h
    rw [toList_compactFields_cons, List.length_append] at hfuel
    have hlen := length_compact_lt_length_fieldText name j
    have hvalue := value_compact (ends_moreFields fs rest) hj (show _ < fuel by omega)
    rw [toList_compactFields_cons, List.append_assoc, (fields_field hvalue []).1]
    exact fields_moreFields [(.string name, ofJson j)] hfs (by omega)

theorem fields_moreFields {rest : List Char} : ∀ {fs : List (String × Json)} {fuel : Nat}
    (done : List (Document × Document)), PlainFields fs → (moreFields fs).length < fuel →
      fields fuel (moreFields fs ++ '\x7d' :: rest) done false =
        (.object (done.reverse ++ ofFields fs) .closed, some rest)
  | [], fuel + 1, done, _, _ => by
    rw [fields, ofFields, List.append_nil]
    rfl
  | (name, j) :: fs, fuel + 1, done, h, hfuel => by
    obtain ⟨hj, hfs⟩ := h
    rw [moreFields, List.length_cons, List.length_append] at hfuel
    have hlen := length_compact_lt_length_fieldText name j
    have hvalue := value_compact (ends_moreFields fs rest) hj (show _ < fuel by omega)
    rw [moreFields, List.cons_append, List.append_assoc, (fields_field hvalue done).2,
      fields_moreFields _ hfs (by omega), List.reverse_cons, List.append_assoc]
    rfl

end

end Document.Reader

/-- **Texts of values are read back**, and nothing is left over. -/
theorem Document.ofText_compact {j : Json} (h : j.Plain) :
    Document.ofText j.compact = (Document.ofJson j, false) := by
  have hread := Reader.value_compact Reader.ends_nil h
    (show _ < 2 * j.compact.toList.length + 2 by omega)
  rw [List.append_nil] at hread
  unfold Document.ofText
  dsimp only
  rw [hread]
  rfl

end Guardianship
