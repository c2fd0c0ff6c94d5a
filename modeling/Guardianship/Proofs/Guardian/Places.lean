import Guardianship.Proofs.Guardian.Filing
import Guardianship.Suite.Standard

/-!
# At which places a guardian evaluates its polynomial

A guardian cannot be created at the place zero, where its polynomial would have the secret for a
value.  But the place of a share is the one that its recipient announced with the transport key, and
nobody checks that one (`of_deal`).  So a guardian keeps its secret to itself exactly if the last
announcement of everyone else is for another place than zero (`shares_avoid_zero_iff`); who
announces zero is dealt the secret, and has it disclosed upon a complaint
(`secret_dealt_to_place_zero`).

`Learns` says what can happen to a guardian while it learns some announcements, and
`Learns.disclosures_avoid_zero` what is disclosed at any time then.
-/

namespace Guardianship.Guardian

variable {S : Suite}

/-! ### What is dealt -/

section Dealing

variable {ρ : Type} [RandomSource ρ]

/-- Dealing succeeds only if nobody else carries a foreign transport key. -/
theorem owner_of_deal {g g' : Guardian S} {r : ρ} (h : (g.deal r).1 = .ok g') {id : String}
    {a : Announcement S} (ha : g.known.get? id = some a) (hne : id ≠ g.id) :
    a.transport.owner = id := by
  cases hforeign : g.foreign? g.known.entries with
  | none => exact foreign?_eq_none_iff.mp hforeign (id, a) (Ledger.get?_eq_some_iff.mp ha) hne
  | some e =>
    rw [deal_eq_error_iff.mpr (g.dealShares_of_foreign r hforeign)] at h
    cases h

/-- What there is after dealing: one share for everyone else who is known, made from the
announcement. -/
theorem of_deal {g g' : Guardian S} {r : ρ} (h : (g.deal r).1 = .ok g') :
    (∀ id a, id ≠ g.id → g.known.get? id = some a →
      ∃ s, g'.dealt.get? id = some s ∧ g.Deals a s) ∧
    ∀ id s, g'.dealt.get? id = some s →
      ∃ a, id ≠ g.id ∧ g.known.get? id = some a ∧ g.Deals a s := by
  obtain ⟨dealt, hd, hkeys, hget⟩ := g.exists_deal r fun id a => owner_of_deal h
  rw [h] at hd
  cases hd
  constructor
  · intro id a hne ha
    obtain ⟨s, hs⟩ := Ledger.mem_keys.mp ((hkeys id).mpr ⟨hne, Ledger.mem_keys_of_get? ha⟩)
    obtain ⟨b, hb, hdeals⟩ := hget id s hs
    obtain rfl := Option.some.inj (ha.symm.trans hb)
    exact ⟨s, hs, hdeals⟩
  · intro id s hs
    obtain ⟨a, ha, hdeals⟩ := hget id s hs
    exact ⟨a, ((hkeys id).mp (Ledger.mem_keys_of_get? hs)).1, ha, hdeals⟩

end Dealing

/-- A share is for the place that its recipient announced. -/
theorem Deals.order_eq {g : Guardian S} {a : Announcement S} {s : SealedShare S}
    (h : g.Deals a s) : s.order = a.transport.order := by
  obtain ⟨secret, hs⟩ := h
  exact (SealedShare.fields_of_sealWith hs).2.2.1

/-- The recipient finds the value of the polynomial at the announced place. -/
theorem Deals.reveal_eq {g : Guardian S} {a : Announcement S} {s : SealedShare S}
    (h : g.Deals a s) (hA : S.Agrees) {sk : Block 32} (hkey : a.transport.key = S.publicKey sk) :
    s.reveal sk = .ok (g.polynomial.evaluate a.transport.order) := by
  obtain ⟨secret, hs⟩ := h
  exact SealedShare.reveal_of_sealWith hA hkey hs

theorem disclose_eq_some_iff {g : Guardian S} {id : String} {d : Disclosure S} :
    g.disclose id = some d ↔ ∃ s, g.dealt.get? id = some s ∧ s.disclose g.polynomial = d :=
  Option.map_eq_some_iff

/-- What is disclosed is the value at the place of the share. -/
theorem disclosures_avoid_zero_iff {g : Guardian S} :
    (∀ id d, g.disclose id = some d → d.order ≠ 0) ↔
      ∀ id s, g.dealt.get? id = some s → s.order ≠ 0 := by
  simp only [disclose_eq_some_iff]
  constructor
  · exact fun h id s hs => h id _ ⟨s, hs, rfl⟩
  · rintro h id d ⟨s, hs, rfl⟩
    exact h id s hs

/-! ### What is learned -/

/-- From one guardian to another, in any steps in which it learns these announcements. -/
inductive Learns (g : Guardian S) : List (Announcement S) → Guardian S → Prop
  | refl : Learns g [] g
  | learn {as : List (Announcement S)} {g' : Guardian S} (a : Announcement S) :
      Learns g as g' → Learns g (as ++ [a]) (g'.learn a)
  | deal {ρ : Type} [RandomSource ρ] {as : List (Announcement S)} {g' g'' : Guardian S} {r : ρ}
      (dealt : (g'.deal r).1 = .ok g'') : Learns g as g' → Learns g as g''
  | accept {as : List (Announcement S)} {g' : Guardian S} (s : SealedShare S) :
      Learns g as g' → Learns g as (g'.accept s)

/-- Whatever a guardian is, it has become by learning. -/
theorem Reachable.exists_learns {g : Guardian S} (h : Reachable g) :
    ∃ terms g₀ as, CreatedFor terms g₀ ∧ g₀.Learns as g := by
  induction h with
  | create created => exact ⟨_, _, [], ⟨_, _, _, _, _, created⟩, .refl⟩
  | learn a _ ih =>
    obtain ⟨terms, g₀, as, hcreated, has⟩ := ih
    exact ⟨terms, g₀, _, hcreated, has.learn a⟩
  | deal dealt _ ih =>
    obtain ⟨terms, g₀, as, hcreated, has⟩ := ih
    exact ⟨terms, g₀, as, hcreated, has.deal dealt⟩
  | accept s _ ih =>
    obtain ⟨terms, g₀, as, hcreated, has⟩ := ih
    exact ⟨terms, g₀, as, hcreated, has.accept s⟩

namespace Learns

variable {g g' : Guardian S} {as : List (Announcement S)}

theorem core_eq (h : g.Learns as g') : g'.core = g.core := by
  induction h with
  | refl => rfl
  | learn a _ ih => exact ih
  | deal dealt _ ih =>
    rw [eq_of_deal dealt]
    exact ih
  | accept s _ ih => rw [core_accept, ih]

theorem known_eq (h : g.Learns as g') :
    g'.known = g.known.insertAll Announcement.owner as := by
  induction h with
  | refl => rfl
  | learn a _ ih =>
    rw [Guardian.learn, ih, Ledger.insertAll, Ledger.insertAll, List.foldl_append]
    rfl
  | deal dealt _ ih =>
    rw [eq_of_deal dealt]
    exact ih
  | accept s _ ih => rw [known_accept, ih]

end Learns

/-- The last announcement of a guardian among some. -/
def lastOf (as : List (Announcement S)) (id : String) : Option (Announcement S) :=
  (as.filter fun a => a.owner = id).getLast?

theorem mem_of_lastOf {as : List (Announcement S)} {id : String} {a : Announcement S}
    (h : lastOf as id = some a) : a ∈ as ∧ a.owner = id := by
  obtain ⟨ha, hid⟩ := List.mem_filter.mp (List.mem_of_getLast? h)
  exact ⟨ha, of_decide_eq_true hid⟩

theorem exists_lastOf {as : List (Announcement S)} {a : Announcement S} (h : a ∈ as) :
    ∃ b, lastOf as a.owner = some b := by
  cases hlast : lastOf as a.owner with
  | none =>
    have hnone := List.filter_eq_nil_iff.mp (List.getLast?_eq_none_iff.mp hlast) a h
    simp at hnone
  | some b => exact ⟨b, rfl⟩

section Created

variable {terms : Terms} {g g' : Guardian S} {as : List (Announcement S)}
  (hg : g.CreatedFor terms) (has : g.Learns as g')
include hg has

/-- A guardian knows of everyone else what was announced last. -/
theorem get?_known_eq_lastOf {id : String} (hid : id ≠ g.id) :
    g'.known.get? id = lastOf as id := by
  have hnone : g.known.get? id = none := by
    obtain ⟨id', order, p, secret, rfl⟩ := hg.exists_ofSecrets
    exact Ledger.get?_insert_of_ne _ _ hid.symm
  rw [has.known_eq, Ledger.get?_insertAll_eq, hnone, Option.or_none, lastOf]

/-- The shares that are dealt are those for everyone else, made from what was announced last. -/
theorem get?_dealt_of_learns {ρ : Type} [RandomSource ρ] {g'' : Guardian S} {r : ρ}
    (hd : (g'.deal r).1 = .ok g'') :
    (∀ id a, id ≠ g.id → lastOf as id = some a →
      ∃ s, g''.dealt.get? id = some s ∧ g'.Deals a s) ∧
    ∀ id s, g''.dealt.get? id = some s →
      ∃ a, id ≠ g.id ∧ lastOf as id = some a ∧ g'.Deals a s := by
  obtain ⟨hall, honly⟩ := of_deal hd
  rw [(fields_of_core has.core_eq).1] at hall honly
  constructor
  · exact fun id a hne ha => hall id a hne ((get?_known_eq_lastOf hg has hne).trans ha)
  · intro id s hs
    obtain ⟨a, hne, ha, hdeals⟩ := honly id s hs
    exact ⟨a, hne, (get?_known_eq_lastOf hg has hne).symm.trans ha, hdeals⟩

end Created

/-- If everyone else announces places other than zero, nothing that is ever disclosed is the value
at zero. -/
theorem Learns.disclosures_avoid_zero {terms : Terms} {g g' : Guardian S}
    {as : List (Announcement S)} (h : g.Learns as g') (hg : g.CreatedFor terms)
    (has : ∀ a ∈ as, a.owner ≠ g.id → a.transport.order ≠ 0) :
    ∀ id d, g'.disclose id = some d → d.order ≠ 0 := by
  rw [disclosures_avoid_zero_iff]
  induction h with
  | refl =>
    obtain ⟨id, order, p, secret, rfl⟩ := hg.exists_ofSecrets
    intro id' s hs
    cases hs
  | learn a _ ih => exact ih fun b hb => has b (List.mem_append_left _ hb)
  | deal dealt h _ =>
    intro id s hs
    obtain ⟨a, hne, ha, hdeals⟩ := (get?_dealt_of_learns hg h dealt).2 id s hs
    obtain ⟨hmem, rfl⟩ := mem_of_lastOf ha
    exact hdeals.order_eq ▸ has a hmem hne
  | @accept _ g' s _ ih =>
    have hdealt : (g'.accept s).dealt = g'.dealt := by
      unfold Guardian.accept
      split_ifs <;> rfl
    rw [hdealt]
    exact ih has

/-! ### Where the secret goes -/

/-- The last announcement of everyone else is for another place than zero. -/
def PeersPlaced (id : String) (as : List (Announcement S)) : Prop :=
  ∀ o a, o ≠ id → lastOf as o = some a → a.transport.order ≠ 0

section Dealt

variable {ρ : Type} [RandomSource ρ] {terms : Terms} {g g₁ g₂ : Guardian S}
  {as : List (Announcement S)} {r : ρ} (hg : g.CreatedFor terms) (has : g.Learns as g₁)
  (hd : (g₁.deal r).1 = .ok g₂)
include hg has hd

theorem dealt_avoid_zero_iff :
    (∀ id s, g₂.dealt.get? id = some s → s.order ≠ 0) ↔ PeersPlaced g.id as := by
  obtain ⟨hall, honly⟩ := get?_dealt_of_learns hg has hd
  constructor
  · intro h o a hne ha
    obtain ⟨s, hs, hdeals⟩ := hall o a hne ha
    exact hdeals.order_eq ▸ h o s hs
  · intro h id s hs
    obtain ⟨a, hne, ha, hdeals⟩ := honly id s hs
    exact hdeals.order_eq ▸ h id a hne ha

/-- **When the secret is kept.**  No share and no disclosure is the value at zero exactly if the
last announcement of everyone else is for another place.  Whoever announces zero opens its share to
the secret, and the secret is what is disclosed to it. -/
theorem shares_avoid_zero_iff :
    ((∀ id s, g₂.dealt.get? id = some s → s.order ≠ 0) ↔ PeersPlaced g.id as) ∧
    ((∀ id d, g₂.disclose id = some d → d.order ≠ 0) ↔ PeersPlaced g.id as) ∧
    ∀ o a, o ≠ g.id → lastOf as o = some a → a.transport.order = 0 →
      ∃ s d, g₂.dealt.get? o = some s ∧ g₂.disclose o = some d ∧
        d.value = g.polynomial.secret ∧
        ∀ sk, S.Agrees → a.transport.key = S.publicKey sk →
          s.reveal sk = .ok g.polynomial.secret := by
  have hiff := dealt_avoid_zero_iff hg has hd
  refine ⟨hiff, disclosures_avoid_zero_iff.trans hiff, fun o a hne ha hzero => ?_⟩
  obtain ⟨s, hs, hdeals⟩ := (get?_dealt_of_learns hg has hd).1 o a hne ha
  obtain ⟨-, -, hp₁, -⟩ := fields_of_core has.core_eq
  obtain ⟨-, -, hp₂, -⟩ := fields_of_core (has.deal hd).core_eq
  refine ⟨s, s.disclose g₂.polynomial, hs, disclose_eq_some_iff.mpr ⟨s, hs, rfl⟩, ?_,
    fun sk hA hkey => ?_⟩
  · rw [SealedShare.disclose, hdeals.order_eq, hzero, hp₂, Polynomial.evaluate_zero]
  · rw [hdeals.reveal_eq hA hkey, hzero, hp₁, Polynomial.evaluate_zero]

end Dealt

/-! ### Two guardians -/

/-- What a second guardian announces whose shares are to be for a given place. -/
def announcementAt (place : UInt64) : Announcement Suite.standard :=
  ⟨⟨"b", 2, Suite.standard.generator, [Suite.standard.generator]⟩, ⟨"b", place, .ofNatLE 9⟩⟩

/-- A first guardian can be created, and can deal to the second whatever place that announces. -/
theorem exists_deal_announcementAt (place : UInt64) :
    ∃ g g' : Guardian Suite.standard,
      (create "a" 1 ⟨"ceremony", 2, 2⟩ (⟨0⟩ : SplitMix)).1 = .ok g ∧ g.id = "a" ∧
      ((g.learn (announcementAt place)).deal (⟨1⟩ : SplitMix)).1 = .ok g' := by
  have ho : (1 : UInt64) ≠ 0 := by decide
  have hq : (⟨"ceremony", 2, 2⟩ : Terms).quorum ≠ 0 := by decide
  obtain ⟨g, hg⟩ := exists_create (S := Suite.standard) "a" ho hq (⟨0⟩ : SplitMix)
  obtain ⟨p, secret, hsecrets, -⟩ := of_create hg
  have howners : ∀ id a, (g.learn (announcementAt place)).known.get? id = some a → id ≠ g.id →
      a.transport.owner = id := by
    intro id a ha hne
    rw [get?_known_learn] at ha
    split_ifs at ha with hid
    · cases ha
      exact hid
    · rw [get?_known_eq_lastOf ⟨_, _, _, _, _, hg⟩ .refl hne] at ha
      cases ha
  obtain ⟨dealt, hd, -⟩ := (g.learn (announcementAt place)).exists_deal (⟨1⟩ : SplitMix) howners
  exact ⟨g, _, hg, by rw [hsecrets]; rfl, hd⟩

theorem secret_dealt_to_place_zero :
    ∃ g g' : Guardian Suite.standard,
      (create "a" 1 ⟨"ceremony", 2, 2⟩ (⟨0⟩ : SplitMix)).1 = .ok g ∧
      ((g.learn (announcementAt 0)).deal (⟨1⟩ : SplitMix)).1 = .ok g' ∧
      ∃ s d, g'.dealt.get? "b" = some s ∧ s.order = 0 ∧
        g'.disclose "b" = some d ∧ d.order = 0 ∧ d.value = g.polynomial.secret := by
  obtain ⟨g, g', hg, hid, hd⟩ := exists_deal_announcementAt 0
  have hne : "b" ≠ g.id := by
    rw [hid]
    decide
  have has : g.Learns _ (g.learn (announcementAt 0)) := Learns.refl.learn _
  obtain ⟨s, hs, hdeals⟩ := (get?_dealt_of_learns ⟨_, _, _, _, _, hg⟩ has hd).1 "b" _ hne rfl
  obtain ⟨-, -, hp, -⟩ := fields_of_core (has.deal hd).core_eq
  have hzero : s.order = 0 := hdeals.order_eq
  refine ⟨g, g', hg, hd, s, _, hs, hzero, disclose_eq_some_iff.mpr ⟨s, hs, rfl⟩, hzero, ?_⟩
  rw [SealedShare.disclose, hzero, hp, Polynomial.evaluate_zero]

theorem shares_avoid_zero_of_place_two :
    ∃ g g' : Guardian Suite.standard,
      g.CreatedFor ⟨"ceremony", 2, 2⟩ ∧
      g.Learns ([] ++ [announcementAt 2]) (g.learn (announcementAt 2)) ∧
      ((g.learn (announcementAt 2)).deal (⟨1⟩ : SplitMix)).1 = .ok g' ∧
      (∀ id s, g'.dealt.get? id = some s → s.order ≠ 0) ∧
      ∀ id d, g'.disclose id = some d → d.order ≠ 0 := by
  obtain ⟨g, g', hcreated, -, hd⟩ := exists_deal_announcementAt 2
  have hg : g.CreatedFor ⟨"ceremony", 2, 2⟩ := ⟨_, _, _, _, _, hcreated⟩
  have has : g.Learns ([] ++ [announcementAt 2]) (g.learn (announcementAt 2)) :=
    Learns.refl.learn _
  have hplaced : PeersPlaced g.id ([] ++ [announcementAt 2]) := by
    intro o a _ ha
    obtain ⟨hmem, -⟩ := mem_of_lastOf ha
    obtain rfl : a = announcementAt 2 := List.mem_singleton.mp hmem
    decide
  obtain ⟨hdealt, hdisclosed, -⟩ := shares_avoid_zero_iff hg has hd
  exact ⟨g, g', hg, has, hd, hdealt.mpr hplaced, hdisclosed.mpr hplaced⟩

end Guardianship.Guardian
