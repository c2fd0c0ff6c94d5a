import Guardianship.Proofs.Guardian.Consistency
import Guardianship.Proofs.Message.Wire

/-!
# Shares are delivered, judged and disclosed as one value

Main statement: whatever is drawn, dealing succeeds, and the recipient finds in the share the value
of the owner's polynomial at its place, finds it good, and has the same value disclosed to everyone
if the owner is asked for it; on the way, the share may be written as JSON and read again
(`SealedShare.deal_delivers`).
-/

namespace Guardianship

variable {S : Suite}

namespace SealedShare

/-- The share is that of an owner with a polynomial for the holder of a secret: it can be opened, is
found good, and discloses what was sealed. -/
structure Delivers (s : SealedShare S) (owner : String) (p : Polynomial S) (key : TransportKey)
    (sk : Block 32) : Prop where
  length_sealed : s.sealed.length = 80
  fields : s.owner = owner ∧ s.recipient = key.owner ∧ s.order = key.order ∧
    s.commitments = p.commitments
  reveal_eq : s.reveal sk = .ok (p.evaluate key.order)
  judge_eq : ∀ judge, s.judge judge sk = ⟨owner, key.owner, judge, true⟩
  disclose_eq : s.disclose p =
    ⟨owner, key.owner, key.order, p.evaluate key.order, p.commitments⟩
  judge_disclose_eq : ∀ judge, (s.disclose p).judge judge = ⟨owner, key.owner, judge, true⟩

theorem delivers_of_sealWith (hS : S.Lawful) (hA : S.Agrees) {secret sk : Block 32}
    {owner : String} {p : Polynomial S} {key : TransportKey} {s : SealedShare S}
    (hkey : key.key = S.publicKey sk) (h : sealWith secret owner p key = .ok s) :
    s.Delivers owner p key sk := by
  obtain ⟨howner, hrecipient, horder, hcommitments⟩ := fields_of_sealWith h
  have hdisclose : s.disclose p =
      ⟨owner, key.owner, key.order, p.evaluate key.order, p.commitments⟩ := by
    rw [disclose, howner, hrecipient, horder]
  refine ⟨length_sealed_of_sealWith h, ⟨howner, hrecipient, horder, hcommitments⟩,
    reveal_of_sealWith hA hkey h, fun judge => ?_, hdisclose, fun judge => ?_⟩
  · rw [SealedShare.judge, isGood_of_sealWith hS hA hkey h, howner, hrecipient]
  · have haccepts := (Commitments.accepts_iff hS p key.order (p.evaluate key.order)).mpr rfl
    rw [hdisclose, Disclosure.judge, Disclosure.isGood, haccepts]

/-- **A dealt share delivers one value.**  Whatever is drawn, dealing succeeds; the recipient opens
the share and finds the value of the polynomial at its own place, and judges it good; the owner
discloses this value, and everyone judges the disclosure good.  The share that is read from what
was written of it is the same, be it read from memory, with its fields in the order of their names,
or from a text. -/
theorem deal_delivers (hS : S.Lawful) (hA : S.Agrees) {ρ : Type} [RandomSource ρ] (r : ρ)
    (owner : String) (p : Polynomial S) (key : TransportKey) (sk : Block 32)
    (hkey : key.key = S.publicKey sk) :
    ∃ s : SealedShare S, (deal owner p key r).1 = .ok s ∧ s.Delivers owner p key sk ∧
      (S.Readable →
        (Wire.sealedShare S).ofJson ((Wire.sealedShare S).encode s) = .ok s ∧
        (Wire.sealedShare S).ofJson ((Wire.sealedShare S).encode s).sorted = .ok s ∧
        (Wire.sealedShare S).ofText ((Wire.sealedShare S).encode s).compact = .ok s) := by
  obtain ⟨e, -, -, hs⟩ := exists_sealWith (S := S) (drawBlock r).1 owner p key
  refine ⟨_, ?_, delivers_of_sealWith hS hA hkey hs, fun hR => ?_⟩
  · rw [deal, draw_bind, draw_pure]
    exact hs
  · have hlossless := Wire.lossless_sealedShare hR
    exact ⟨hlossless.ofJson_encode _, hlossless.ofJson_sorted _, hlossless.ofText_compact _⟩

/-- The value of `3 + 5 x` at two is 13, and who holds the secret of the key finds it in the share
that was read from a text. -/
theorem thirteen_delivered :
    ∃ s : SealedShare Suite.exponents,
      (deal "a" Guardian.line (.ofSecret Suite.exponents "b" 2 (Suite.exponent 7))
        (SplitMix.mk 0)).1 = .ok s ∧
      s.reveal (Suite.exponent 7) = .ok (13 : Fin Bls12.order) ∧
      s.disclose Guardian.line = ⟨"a", "b", 2, (13 : Fin Bls12.order), Guardian.line.commitments⟩ ∧
      (Wire.sealedShare Suite.exponents).ofText
        ((Wire.sealedShare Suite.exponents).encode s).compact = .ok s := by
  obtain ⟨s, hs, hdelivers, hjson⟩ := deal_delivers Suite.lawful_exponents Suite.agrees_exponents
    (SplitMix.mk 0) "a" Guardian.line (.ofSecret Suite.exponents "b" 2 (Suite.exponent 7))
    (Suite.exponent 7) rfl
  have h13 : (Guardian.line.evaluate 2 : Fin Bls12.order) = 13 := by decide +kernel
  refine ⟨s, hs, ?_, ?_, (hjson Suite.readable_exponents).2.2⟩
  · exact hdelivers.reveal_eq.trans (congrArg Except.ok h13)
  · exact hdelivers.disclose_eq.trans
      (congrArg (Disclosure.mk "a" "b" 2 · Guardian.line.commitments) h13)

end SealedShare

end Guardianship
