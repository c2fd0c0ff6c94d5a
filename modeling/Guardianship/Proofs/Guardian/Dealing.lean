import Guardianship.Guardian
import Guardianship.Proofs.Ledger
import Guardianship.Proofs.Randomness
import Guardianship.Proofs.SealedShare

/-!
# Creating guardians and dealing shares

A guardian can be created at every place in the order but zero, for every quorum but zero
(`exists_create`).  The coefficients of its polynomial are the scalars that were drawn
(`drawPolynomial_eq_ok_iff`), as many as the quorum.

Dealing succeeds if everyone else who is known carries a transport key of its own, and then there is
one share for each of them (`exists_deal`), in the order in which they are known
(`exists_dealShares`).  Otherwise it names the first one who does not (`dealShares_of_foreign`).
Whenever it fails, the guardian is as it was before (`dealShares_cases`).
-/

namespace Guardianship

variable {S : Suite} {ρ : Type} [RandomSource ρ]

/-! ### Lists side by side -/

section Forall₂

variable {α β : Type} {R : α → β → Prop} {as : List α} {bs : List β} (h : List.Forall₂ R as bs)
include h

theorem map_eq_map_of_forall₂ {γ : Type} {f : α → γ} {g : β → γ}
    (hR : ∀ a b, R a b → f a = g b) : as.map f = bs.map g := by
  induction h with
  | nil => rfl
  | cons hab _ ih => rw [List.map_cons, List.map_cons, hR _ _ hab, ih]

theorem exists_of_mem_forall₂ {b : β} (hb : b ∈ bs) : ∃ a ∈ as, R a b := by
  induction h with
  | nil => cases hb
  | cons hab _ ih =>
    rcases List.mem_cons.mp hb with rfl | hrest
    · exact ⟨_, List.mem_cons_self, hab⟩
    · obtain ⟨a, ha, hR⟩ := ih hrest
      exact ⟨a, List.mem_cons_of_mem _ ha, hR⟩

end Forall₂

namespace Guardian

/-! ### Creation -/

/-- What is drawn at any place but zero is the polynomial with the drawn scalars for coefficients, in
their order. -/
theorem drawPolynomial_eq_ok_iff {order quorum : UInt64} {r : ρ} {p : Polynomial S} :
    (drawPolynomial order quorum r).1 = .ok p ↔
      order ≠ 0 ∧ p.coefficients = (S.drawScalars quorum.toNat r).1 := by
  unfold drawPolynomial
  split_ifs with h0
  · exact ⟨fun h => (by cases h), fun h => absurd h0 h.1⟩
  · rw [draw_bind, Polynomial.draw, draw_bind, draw_pure]
    constructor
    · intro h
      refine ⟨h0, ?_⟩
      cases hp : Polynomial.ofCoefficients (S.drawScalars quorum.toNat r).1 with
      | error e =>
        rw [hp] at h
        cases h
      | ok q =>
        rw [hp] at h
        cases h
        exact Polynomial.coefficients_of_ofCoefficients hp
    · rintro ⟨-, hp⟩
      rw [← hp, p.ofCoefficients_coefficients]
      rfl

theorem of_drawPolynomial {order quorum : UInt64} {r : ρ} {p : Polynomial S}
    (h : (drawPolynomial order quorum r).1 = .ok p) :
    order ≠ 0 ∧ p.coefficients.length = quorum.toNat := by
  obtain ⟨h0, hp⟩ := drawPolynomial_eq_ok_iff.mp h
  exact ⟨h0, by rw [hp, Suite.length_drawScalars]⟩

theorem exists_drawPolynomial {order quorum : UInt64} (ho : order ≠ 0) (hq : quorum ≠ 0)
    (r : ρ) : ∃ p : Polynomial S, (drawPolynomial order quorum r).1 = .ok p := by
  have hne : (S.drawScalars quorum.toNat r).1 ≠ [] := by
    intro h
    have hlen := congrArg List.length h
    rw [Suite.length_drawScalars] at hlen
    exact hq (UInt64.toNat_inj.mp hlen)
  obtain ⟨p, hp⟩ := Polynomial.exists_ofCoefficients hne
  exact ⟨p, drawPolynomial_eq_ok_iff.mpr ⟨ho, Polynomial.coefficients_of_ofCoefficients hp⟩⟩

/-- A created guardian has the secrets that were drawn for it. -/
theorem of_create {id : String} {order : UInt64} {terms : Terms} {r : ρ} {g : Guardian S}
    (h : (create id order terms r).1 = .ok g) :
    ∃ p secret, g = ofSecrets id order terms p secret ∧ order ≠ 0 ∧
      p.coefficients.length = terms.quorum.toNat := by
  rw [create, draw_bind] at h
  cases hp : (drawPolynomial (S := S) order terms.quorum r).1 with
  | error e =>
    rw [hp] at h
    cases h
  | ok p =>
    rw [hp] at h
    cases h
    exact ⟨p, _, rfl, of_drawPolynomial hp⟩

theorem exists_create (id : String) {order : UInt64} {terms : Terms} (ho : order ≠ 0)
    (hq : terms.quorum ≠ 0) (r : ρ) : ∃ g : Guardian S, (create id order terms r).1 = .ok g := by
  obtain ⟨p, hp⟩ := exists_drawPolynomial (S := S) ho hq r
  rw [create, draw_bind, hp]
  exact ⟨_, rfl⟩

/-- The guardian has been created for a ceremony on these terms, whatever was drawn. -/
def CreatedFor (terms : Terms) (g : Guardian S) : Prop :=
  ∃ (ρ : Type) (_ : RandomSource ρ) (r : ρ) (id : String) (order : UInt64),
    (create id order terms r).1 = .ok g

theorem CreatedFor.exists_ofSecrets {terms : Terms} {g : Guardian S} (h : g.CreatedFor terms) :
    ∃ id order p secret, g = ofSecrets id order terms p secret := by
  obtain ⟨ρ, _, r, id, order, hg⟩ := h
  obtain ⟨p, secret, hsecrets, -⟩ := of_create hg
  exact ⟨id, order, p, secret, hsecrets⟩

/-! ### Dealing -/

theorem dealTo_cons (g : Guardian S) (owner : String) (a : Announcement S)
    (rest : List (String × Announcement S)) (dealt : Ledger String (SealedShare S)) (r : ρ) :
    g.dealTo ((owner, a) :: rest) dealt r =
      if owner = g.id then g.dealTo rest dealt r
      else if a.transport.owner ≠ owner then (.error (.foreignTransportKey owner), r)
      else match SealedShare.sealWith (drawBlock r).1 g.id g.polynomial a.transport with
        | .error e => (.error (.envelope e), (drawBlock r).2)
        | .ok s => g.dealTo rest (dealt.insert owner s) (drawBlock r).2 := by
  rw [dealTo]
  split_ifs
  · rfl
  · rfl
  · rw [draw_bind, SealedShare.deal, draw_bind, draw_pure]
    cases SealedShare.sealWith (drawBlock r).1 g.id g.polynomial a.transport <;> rfl

/-- A share for someone, made from an announcement. -/
def Deals (g : Guardian S) (a : Announcement S) (s : SealedShare S) : Prop :=
  ∃ secret, SealedShare.sealWith secret g.id g.polynomial a.transport = .ok s

theorem Deals.recipient_eq {g : Guardian S} {a : Announcement S} {s : SealedShare S}
    (h : g.Deals a s) : s.recipient = a.transport.owner := by
  obtain ⟨secret, hs⟩ := h
  exact (SealedShare.fields_of_sealWith hs).2.1

/-- The first of some others who carries a foreign transport key. -/
def foreign? (g : Guardian S) (es : List (String × Announcement S)) :
    Option (String × Announcement S) :=
  es.find? fun e => e.1 ≠ g.id ∧ e.2.transport.owner ≠ e.1

theorem foreign?_eq_none_iff {g : Guardian S} {es : List (String × Announcement S)} :
    g.foreign? es = none ↔ ∀ e ∈ es, e.1 ≠ g.id → e.2.transport.owner = e.1 := by
  simp [foreign?]

section DealTo

variable (g : Guardian S)

/-- A share is dealt to someone else with an own transport key. -/
theorem exists_dealTo_cons {owner : String} (hself : owner ≠ g.id) {a : Announcement S}
    (howner : a.transport.owner = owner) (rest : List (String × Announcement S))
    (dealt : Ledger String (SealedShare S)) (r : ρ) :
    ∃ s, g.Deals a s ∧
      g.dealTo ((owner, a) :: rest) dealt r =
        g.dealTo rest (dealt.insert s.recipient s) (drawBlock r).2 := by
  obtain ⟨e, -, -, hs⟩ :=
    SealedShare.exists_sealWith (drawBlock r).1 g.id g.polynomial a.transport
  refine ⟨_, ⟨_, hs⟩, ?_⟩
  rw [dealTo_cons, if_neg hself, if_neg (not_not.mpr howner), hs, howner]

/-- Who carries a foreign transport key is named, however many have been dealt to before. -/
theorem dealTo_of_foreign {e : String × Announcement S} :
    ∀ {es : List (String × Announcement S)} (dealt : Ledger String (SealedShare S)) (r : ρ),
      g.foreign? es = some e → (g.dealTo es dealt r).1 = .error (.foreignTransportKey e.1)
  | [], _, _, he => by cases he
  | (owner, a) :: rest, dealt, r, he => by
    unfold foreign? at he
    by_cases hself : owner = g.id
    · rw [List.find?_cons_of_neg (by simp [hself])] at he
      rw [dealTo_cons, if_pos hself]
      exact dealTo_of_foreign _ _ he
    · by_cases howner : a.transport.owner = owner
      · obtain ⟨s, -, hstep⟩ := g.exists_dealTo_cons hself howner rest dealt r
        rw [List.find?_cons_of_neg (by simp [howner])] at he
        rw [hstep]
        exact dealTo_of_foreign _ _ he
      · rw [List.find?_cons_of_pos (by simp [hself, howner])] at he
        cases he
        rw [dealTo_cons, if_neg hself, if_pos howner]

/-- If there is no such one, everyone else is dealt one share, in their order. -/
theorem exists_dealTo :
    ∀ {es : List (String × Announcement S)} (dealt : Ledger String (SealedShare S)) (r : ρ),
      (∀ e ∈ es, e.1 ≠ g.id → e.2.transport.owner = e.1) →
      ∃ ss, (g.dealTo es dealt r).1 = .ok (dealt.insertAll SealedShare.recipient ss) ∧
        List.Forall₂ (fun e s => s.recipient = e.1 ∧ g.Deals e.2 s)
          (es.filter fun e => e.1 ≠ g.id) ss
  | [], _, _, _ => ⟨[], rfl, .nil⟩
  | (owner, a) :: rest, dealt, r, h => by
    have hrest : ∀ e ∈ rest, e.1 ≠ g.id → e.2.transport.owner = e.1 :=
      fun e he => h e (List.mem_cons_of_mem _ he)
    by_cases hself : owner = g.id
    · rw [dealTo_cons, if_pos hself, List.filter_cons_of_neg (by simpa using hself)]
      exact exists_dealTo dealt r hrest
    · have howner : a.transport.owner = owner := h (owner, a) List.mem_cons_self hself
      obtain ⟨s, hs, hstep⟩ := g.exists_dealTo_cons hself howner rest dealt r
      obtain ⟨ss, hss, hall⟩ :=
        exists_dealTo (dealt.insert s.recipient s) (drawBlock r).2 hrest
      rw [hstep, List.filter_cons_of_pos (by simpa using hself)]
      exact ⟨s :: ss, hss, .cons ⟨hs.recipient_eq.trans howner, hs⟩ hall⟩

end DealTo

/-! ### Dealing to everyone else -/

section Deal

variable (g : Guardian S) (r : ρ)

/-- All that dealing can come to: the shares that were dealt are replaced, or there is an error and
the guardian is as it was. -/
theorem dealShares_cases :
    (∃ dealt, (g.dealShares r).1 = (.ok (), { g with dealt })) ∨
      ∃ e, (g.dealShares r).1 = (.error e, g) := by
  rw [dealShares, draw_bind]
  cases (g.dealTo g.known.entries .empty r).1 with
  | ok dealt => exact .inl ⟨dealt, rfl⟩
  | error e => exact .inr ⟨e, rfl⟩

theorem dealShares_of_foreign {e : String × Announcement S}
    (h : g.foreign? g.known.entries = some e) :
    (g.dealShares r).1 = (.error (.foreignTransportKey e.1), g) := by
  rw [dealShares, draw_bind, g.dealTo_of_foreign _ _ h]
  rfl

/-- If there is no such one, everyone else who is known has one share, in their order. -/
theorem exists_dealShares (h : g.foreign? g.known.entries = none) :
    ∃ dealt, (g.dealShares r).1 = (.ok (), { g with dealt }) ∧
      List.Forall₂ (fun e f => f.1 = e.1 ∧ f.2.recipient = e.1 ∧ g.Deals e.2 f.2)
        (g.known.entries.filter fun e => e.1 ≠ g.id) dealt.entries := by
  obtain ⟨ss, hd, hall⟩ := g.exists_dealTo .empty r (foreign?_eq_none_iff.mp h)
  have hrecipients : (g.known.entries.filter fun e => e.1 ≠ g.id).map Prod.fst =
      ss.map SealedShare.recipient := map_eq_map_of_forall₂ hall fun _ _ hs => hs.1.symm
  have hentries : ((Ledger.empty : Ledger String (SealedShare S)).insertAll
      SealedShare.recipient ss).entries = ss.map fun s => (s.recipient, s) := by
    refine Ledger.entries_insertAll ?_
    rw [Ledger.keys_empty, List.nil_append, ← hrecipients]
    exact g.known.nodup.sublist (List.filter_sublist.map _)
  refine ⟨_, by rw [dealShares, draw_bind, hd]; rfl, ?_⟩
  rw [hentries, List.forall₂_map_right_iff]
  exact hall.imp fun _ _ hs => ⟨hs.1, hs⟩

section Told

variable {g r}

theorem deal_eq_ok_iff {g' : Guardian S} :
    (g.deal r).1 = .ok g' ↔ (g.dealShares r).1 = (.ok (), g') := by
  rw [deal, draw_bind, draw_pure]
  rcases dealShares_cases g r with ⟨dealt, hd⟩ | ⟨e, hd⟩ <;> simp [hd, Except.map]

/-- Whoever is told of an error has a guardian that is as it was. -/
theorem deal_eq_error_iff {e : Error} :
    (g.deal r).1 = .error e ↔ (g.dealShares r).1 = (.error e, g) := by
  rw [deal, draw_bind, draw_pure]
  rcases dealShares_cases g r with ⟨dealt, hd⟩ | ⟨e', hd⟩ <;> simp [hd, Except.map]

end Told

theorem exists_deal
    (h : ∀ id a, g.known.get? id = some a → id ≠ g.id → a.transport.owner = id) :
    ∃ dealt, (g.deal r).1 = .ok { g with dealt } ∧
      (∀ id, id ∈ dealt.keys ↔ id ≠ g.id ∧ id ∈ g.known.keys) ∧
      ∀ id s, dealt.get? id = some s → ∃ a, g.known.get? id = some a ∧ g.Deals a s := by
  obtain ⟨dealt, hd, hall⟩ := g.exists_dealShares r
    (foreign?_eq_none_iff.mpr fun e he => h e.1 e.2 (Ledger.get?_eq_some_iff.mpr he))
  refine ⟨dealt, deal_eq_ok_iff.mpr hd, fun id => ?_, fun id s hs => ?_⟩
  · have hkeys : (g.known.entries.filter fun e => e.1 ≠ g.id).map Prod.fst = dealt.keys :=
      map_eq_map_of_forall₂ hall fun _ _ hs => hs.1.symm
    rw [← hkeys]
    simp [Ledger.keys, and_comm]
  · obtain ⟨e, he, hid, -, hdeals⟩ := exists_of_mem_forall₂ hall (Ledger.get?_eq_some_iff.mp hs)
    obtain rfl : id = e.1 := hid
    exact ⟨e.2, Ledger.get?_eq_some_iff.mpr (List.mem_of_mem_filter he), hdeals⟩

end Deal

end Guardian

end Guardianship
