import Guardianship.Proofs.Guardian.Filing
import Guardianship.Proofs.Suite.Exponents

/-!
# Shares that were found good are consistent

An owner may announce any list of elements as commitments and send any octets as shares.  If
guardians at different places in the order find its shares good all the same, then what they opened
are values of one polynomial, the only one with these commitments, each at the guardian's own place
(`good_shares_on_one_polynomial`).  As many of them as there are commitments leave no other
polynomial, so they have the owner's secret in common.
-/

namespace Guardianship.Guardian

variable {S : Suite}

/-- The share is filed under its owner and holds the encoding of a scalar. -/
def Holds (g : Guardian S) (owner : String) (y : S.Scalar) : Prop :=
  ∃ s e, g.received.get? owner = some s ∧ Envelope.decode s.sealed = .ok e ∧
    Envelope.openWith S g.secret e (SealedShare.boundData owner g.id) = .ok (S.encodeScalar y)

/-- A good verdict says that the guardian holds a scalar which the commitments that it knows accept
at its own place in the order. -/
theorem exists_of_good_verdict {g : Guardian S} (hg : g.Filed) {owner : String}
    {a : Announcement S} (hknown : g.known.get? owner = some a)
    (hgood : ∃ v ∈ g.verdicts, v.owner = owner ∧ v.good = true) :
    ∃ y, g.Holds owner y ∧ Commitments.accepts a.election.commitments g.order y = true := by
  obtain ⟨v, hv, rfl, hvgood⟩ := hgood
  obtain ⟨s, hs, howner, hrecipient, rfl⟩ := get?_of_mem_verdicts hg hv
  obtain ⟨hopens, ⟨b, hb, hcommitments⟩, horder⟩ := judge_good_iff.mp hvgood
  obtain ⟨y, hreveal, haccepts⟩ := SealedShare.isGood_iff.mp hopens
  obtain ⟨e, he, htext⟩ := SealedShare.reveal_eq_ok_iff.mp hreveal
  -- the share's own commitments and order are those that the guardian goes by
  have hab : b = a := Option.some.inj (hb.symm.trans (howner ▸ hknown))
  subst hab
  rw [← hcommitments, horder] at haccepts
  exact ⟨y, ⟨s, e, hs, he, by rw [← hrecipient]; exact htext⟩, haccepts⟩

/-- A guardian whom a share of an announced polynomial is dealt to finds it good. -/
theorem exists_of_dealt (hS : S.Lawful) (hA : S.Agrees) (id owner : String) {order : UInt64}
    (ho : order ≠ 0) {terms : Terms} (hq : terms.quorum ≠ 0) (p : Polynomial S) :
    ∃ g : Guardian S, g.Reachable ∧ g.order = order ∧
      (∃ a, g.known.get? owner = some a ∧ a.election.commitments = p.commitments) ∧
      ∃ v ∈ g.verdicts, v.owner = owner ∧ v.good = true := by
  obtain ⟨g, hg⟩ := exists_create (S := S) id ho hq (⟨0⟩ : SplitMix)
  obtain ⟨q, sk, rfl, -⟩ := of_create hg
  obtain ⟨e, -, -, hs⟩ := SealedShare.exists_sealWith sk owner p
    (TransportKey.ofSecret S id order sk)
  let a : Announcement S := ⟨.ofPolynomial owner order p, .ofSecret S owner order sk⟩
  let s : SealedShare S := ⟨owner, id, order, e.encode, p.commitments⟩
  let g : Guardian S := ((ofSecrets id order terms q sk).learn a).accept s
  have hknown : g.known.get? owner = some a := by
    rw [known_accept, get?_known_learn]
    exact if_pos rfl
  have hreceived : g.received.get? owner = some s := by
    rw [get?_received_accept rfl]
    exact if_pos rfl
  obtain ⟨-, horder, -, hsecret⟩ := fields_of_core
    (show g.core = (ofSecrets id order terms q sk).core by rw [core_accept, core_learn])
  have hgood : (g.judge s).good = true := by
    refine judge_good_iff.mpr ⟨?_, ⟨a, hknown, rfl⟩, horder.symm⟩
    rw [hsecret]
    exact SealedShare.isGood_of_sealWith hS hA rfl hs
  exact ⟨g, ((Reachable.create hg).learn a).accept s, horder, ⟨a, hknown, rfl⟩, g.judge s,
    List.mem_map_of_mem (Ledger.mem_values.mpr ⟨owner, hreceived⟩), rfl, hgood⟩

/-- **A dealer cannot give honest guardians inconsistent shares.** -/
theorem good_shares_on_one_polynomial (hS : S.Lawful) (hq : 2 ^ 64 < S.order) {ι : Type}
    [Fintype ι] [Nonempty ι] {g : ι → Guardian S} (hg : ∀ i, (g i).Reachable)
    (horder : Function.Injective fun i => (g i).order) {owner : String} {C : List S.Element}
    (hknown : ∀ i, ∃ a, (g i).known.get? owner = some a ∧ a.election.commitments = C)
    (hgood : ∀ i, ∃ v ∈ (g i).verdicts, v.owner = owner ∧ v.good = true) :
    C ≠ [] ∧ ∃ y : ι → S.Scalar, (∀ i, (g i).Holds owner (y i)) ∧
      ∃ p : Polynomial S, p.coefficients.map S.commit = C ∧
        (∀ as : List S.Scalar, as.map S.commit = C → as = p.coefficients) ∧
        (∀ i, y i = p.evaluate (g i).order) ∧
        (C.length ≤ Fintype.card ι →
          ∀ p' : Polynomial S, p'.coefficients.length = C.length →
            (∀ i, p'.evaluate (g i).order = y i) → p' = p) ∧
        C.head? = some (S.commit p.secret) := by
  have hshare : ∀ i, ∃ y, (g i).Holds owner y ∧ Commitments.accepts C (g i).order y = true := by
    intro i
    obtain ⟨a, ha, rfl⟩ := hknown i
    exact exists_of_good_verdict (hg i).filed ha (hgood i)
  choose y hholds haccepts using hshare
  obtain ⟨i₀⟩ := ‹Nonempty ι›
  have hne : C ≠ [] := Commitments.ne_nil_of_accepts (haccepts i₀)
  obtain ⟨p, rfl⟩ := Polynomial.exists_of_commitments hS hne
  have hvalue : ∀ i, y i = p.evaluate (g i).order :=
    fun i => (Commitments.accepts_iff hS p _ _).mp (haccepts i)
  refine ⟨hne, y, hholds, p, p.commitments_eq.symm, fun as has => ?_, hvalue, ?_, ?_⟩
  · rw [p.commitments_eq] at has
    exact hS.commit_injective.list_map has
  · intro hcard p' hlen hp'
    rw [p.length_commitments] at hlen hcard
    have hpoints : Function.Injective fun i => S.scalar (g i).order.toNat :=
      (Suite.scalar_uint64_injective hq.le).comp horder
    refine Polynomial.eq_of_coefficients_eq
      (Suite.eq_of_horner_eq hS.prime_order hlen hpoints (hlen ▸ hcard) fun i => ?_)
    rw [← p'.evaluate_eq_horner, ← p.evaluate_eq_horner, hp' i, hvalue i]
  · rw [← p.head_commitments, List.head?_eq_some_head]

/-- The polynomial `3 + 5 x`. -/
def line : Polynomial Suite.exponents :=
  ⟨[(3 : Fin Bls12.order), (5 : Fin Bls12.order)], _, List.cons_ne_nil _ _, rfl⟩

theorem good_shares_of_two :
    ∃ g : Fin 2 → Guardian Suite.exponents, (∀ i, (g i).Reachable) ∧
      (Function.Injective fun i => (g i).order) ∧
      (∀ i, ∃ v ∈ (g i).verdicts, v.owner = "dealer" ∧ v.good = true) ∧
      (g 0).Holds "dealer" (8 : Fin Bls12.order) ∧
      (g 1).Holds "dealer" (13 : Fin Bls12.order) := by
  have ho : ∀ i : Fin 2, (if i = 0 then 1 else 2 : UInt64) ≠ 0 := by decide
  have hq : (⟨"ceremony", 2, 2⟩ : Terms).quorum ≠ 0 := by decide
  have hdealt := fun i : Fin 2 => exists_of_dealt Suite.lawful_exponents Suite.agrees_exponents
    (if i = 0 then "a" else "b") "dealer" (ho i) hq line
  choose g hg horder hknown hgood using hdealt
  have hinj : Function.Injective fun i => (g i).order := by
    simp only [horder]
    decide
  obtain ⟨-, y, hholds, p, hp, -, hvalue, -⟩ :=
    good_shares_on_one_polynomial Suite.lawful_exponents (by decide) hg hinj hknown hgood
  -- the commitments leave no other polynomial than the line
  have hline : p = line :=
    Polynomial.eq_of_commitments_eq Suite.lawful_exponents (p.commitments_eq.trans hp)
  subst hline
  have h0 : y 0 = (8 : Fin Bls12.order) := by
    rw [hvalue, horder]
    rfl
  have h1 : y 1 = (13 : Fin Bls12.order) := by
    rw [hvalue, horder]
    rfl
  exact ⟨g, hg, hinj, hgood, h0 ▸ hholds 0, h1 ▸ hholds 1⟩

end Guardianship.Guardian
