import Guardianship.Proofs.Mediator.Growth
import Guardianship.Proofs.Mediator.JointKey

/-!
# Verdicts before their round

Verdicts that guardians send are dropped until every share is in.  A disclosure is judged at any
time, and if it is found good the verdict on it is kept, so that there may be a verdict on a share
that has not come (`verdict_before_shares`).  There is no other way (`enteredVerdicts_eq_nil`).

On the way to the last stage a ceremony waits for verdicts, at first without any, exactly if no
disclosure was upheld too early.  Otherwise the last share may bring it to the last stage at once.

Main statement: `verdicts_wait_for_shares_iff`.
-/

namespace Guardianship.Mediator

variable {S : Suite} {m : Mediator S}

/-- A disclosure is found good and its verdict is kept, although some share is missing. -/
def UpholdsEarly (m : Mediator S) (r : Request S) : Prop :=
  m.allSharesIn = false ∧
    ∃ d, r = .disclosure d ∧ m.admits d.pair = true ∧ (m.judge d).good = true

/-- One of some requests, which come one after the other, upholds a disclosure too early. -/
def UpholdsEarlyIn (m : Mediator S) (rs : List (Request S)) : Prop :=
  ∃ pre r post, rs = pre ++ r :: post ∧ (pre.foldl apply m).UpholdsEarly r

/-! ### One request -/

/-- While a share is missing, nothing but a disclosure that is upheld enters a verdict. -/
theorem enteredVerdicts_eq_nil {r : Request S} (hmissing : m.allSharesIn = false)
    (hr : ¬ m.UpholdsEarly r) : m.enteredVerdicts r = [] := by
  cases r with
  | verdicts vs => simp [enteredVerdicts, hmissing]
  | disclosure d =>
    have hnot : ¬ (m.admits d.pair = true ∧ (m.judge d).good = true) := by
      intro h
      exact hr ⟨hmissing, d, rfl, h⟩
    rw [enteredVerdicts, if_neg (by rwa [Bool.and_eq_true])]
  | _ => rfl

theorem UpholdsEarly.enteredVerdicts_eq {d : Disclosure S} (h : m.UpholdsEarly (.disclosure d)) :
    m.enteredVerdicts (.disclosure d) = [m.upheld d.pair] := by
  obtain ⟨-, d', heq, ha, hgood⟩ := h
  cases heq
  rw [enteredVerdicts, ha, hgood]
  rfl

theorem verdicts_apply_of_not_upholdsEarly {r : Request S} (hr : ∀ terms, r ≠ .reset terms)
    (hmissing : m.allSharesIn = false) (hr' : ¬ m.UpholdsEarly r) :
    (m.apply r).verdicts = m.verdicts := by
  rw [verdicts_apply m hr, enteredVerdicts_eq_nil hmissing hr']
  rfl

theorem UpholdsEarly.keys_ne_nil {r : Request S} (h : m.UpholdsEarly r) :
    (m.apply r).verdicts.keys ≠ [] := by
  obtain ⟨d, rfl, -⟩ := h.2
  have hmem : d.pair ∈ (m.apply (.disclosure d)).verdicts.keys := by
    rw [verdicts_apply m (by simp), h.enteredVerdicts_eq]
    exact Ledger.mem_keys_insert.mpr (Or.inl rfl)
  exact List.ne_nil_of_mem hmem

/-! ### Runs -/

theorem upholdsEarlyIn_cons {r : Request S} {rs : List (Request S)} :
    m.UpholdsEarlyIn (r :: rs) ↔ m.UpholdsEarly r ∨ (m.apply r).UpholdsEarlyIn rs := by
  constructor
  · rintro ⟨pre, r', post, heq, hr'⟩
    cases pre with
    | nil =>
      cases heq
      exact Or.inl hr'
    | cons _ pre =>
      cases heq
      exact Or.inr ⟨pre, r', post, rfl, hr'⟩
  · rintro (hr | ⟨pre, r', post, rfl, hr'⟩)
    · exact ⟨[], r, rs, rfl, hr⟩
    · exact ⟨r :: pre, r', post, rfl, hr'⟩

theorem upholdsEarlyIn_append {pre post : List (Request S)} :
    m.UpholdsEarlyIn (pre ++ post) ↔
      m.UpholdsEarlyIn pre ∨ (pre.foldl apply m).UpholdsEarlyIn post := by
  induction pre generalizing m with
  | nil =>
    have hnil : ¬ m.UpholdsEarlyIn [] := by
      rintro ⟨pre, r, post, heq, -⟩
      simp at heq
    simp [hnil]
  | cons r pre ih =>
    rw [List.cons_append, upholdsEarlyIn_cons, upholdsEarlyIn_cons, ih, or_assoc]
    rfl

section Ongoing

variable {rs : List (Request S)} (hrs : ∀ terms, Request.reset terms ∉ rs)
include hrs

/-- A verdict that was upheld too early is there at the end. -/
theorem UpholdsEarlyIn.verdicts_ne_empty (h : m.UpholdsEarlyIn rs) :
    (rs.foldl apply m).verdicts ≠ .empty := by
  obtain ⟨pre, r, post, rfl, hr⟩ := h
  have hpost := (reset_notMem_cons.mp (reset_notMem_append.mp hrs).2).2
  have hgrows : ((pre.foldl apply m).apply r).GrowsTo ((pre ++ r :: post).foldl apply m) := by
    rw [List.foldl_append, List.foldl_cons]
    exact GrowsTo.foldl_apply hpost _
  intro hempty
  have hkeys := hgrows.verdicts
  rw [hempty] at hkeys
  exact hr.keys_ne_nil (List.subset_nil.mp hkeys)

/-- If every share is in before and after, no request in between is too early. -/
theorem not_upholdsEarlyIn (hs : m.allSharesIn = true)
    (hs' : (rs.foldl apply m).allSharesIn = true) : ¬ m.UpholdsEarlyIn rs := by
  rintro ⟨pre, r, post, rfl, hmissing, -⟩
  obtain ⟨hpre, hpost⟩ := reset_notMem_append.mp hrs
  rw [List.foldl_append] at hs'
  have hin : (pre.foldl apply m).allSharesIn = true :=
    allSharesIn_of_growsTo hs hs' (GrowsTo.foldl_apply hpre m) (GrowsTo.foldl_apply hpost _)
  rw [hin] at hmissing
  cases hmissing

end Ongoing

/-- When the last share comes, there are no verdicts yet if none was upheld before. -/
theorem exists_allSharesIn :
    ∀ {rs : List (Request S)} {m : Mediator S}, (∀ terms, Request.reset terms ∉ rs) →
      m.verdicts = .empty → (rs.foldl apply m).allSharesIn = true → ¬ m.UpholdsEarlyIn rs →
      ∃ pre post, rs = pre ++ post ∧ (pre.foldl apply m).allSharesIn = true ∧
        (pre.foldl apply m).verdicts = .empty
  | [], m, _, hempty, hs, _ => ⟨[], [], rfl, hs, hempty⟩
  | r :: rs, m, hrs, hempty, hs, hearly => by
    by_cases hnow : m.allSharesIn = true
    · exact ⟨[], r :: rs, rfl, hnow, hempty⟩
    · rw [upholdsEarlyIn_cons, not_or] at hearly
      obtain ⟨hr, hrest⟩ := reset_notMem_cons.mp hrs
      have hstep : (m.apply r).verdicts = .empty := by
        rw [verdicts_apply_of_not_upholdsEarly hr (Bool.eq_false_iff.mpr hnow) hearly.1, hempty]
      obtain ⟨pre, post, rfl, hpre⟩ := exists_allSharesIn hrest hstep hs hearly.2
      exact ⟨r :: pre, post, rfl, hpre⟩

/-- Two or more guardians have verdicts to wait for. -/
theorem stage_of_verdicts_eq_empty (hn : 1 < m.terms.guardians) (hs : m.allSharesIn = true)
    (hempty : m.verdicts = .empty) : m.stage = .verificationsPending := by
  have hpairs : 0 < m.terms.pairCount := by
    have htwo : 1 < m.terms.guardians.toNat := UInt64.lt_iff_toNat_lt.mp hn
    have hpos : 0 < m.terms.guardians.toNat * (m.terms.guardians.toNat - 1) :=
      Nat.mul_pos (by omega) (by omega)
    exact lt_min hpos (by decide)
  have hsize : m.verdicts.size = 0 := by rw [hempty]; rfl
  refine stage_eq_verificationsPending_iff.mpr ⟨hs, fun hv => ?_⟩
  rw [allVerdictsIn, Bool.and_eq_true, beq_iff_eq, hsize] at hv
  omega

/-- **Verdicts wait for shares, except those of disclosures.**  While a share is missing a request
enters a verdict exactly if it is a disclosure that is upheld.  A run that ends at the last stage
has passed a moment at which every share was in and there were no verdicts, which with two or more
guardians is the stage that waits for them, exactly if no disclosure was upheld while a share was
missing. -/
theorem verdicts_wait_for_shares_iff :
    (∀ (m : Mediator S) (r : Request S), (∀ terms, r ≠ .reset terms) →
      (m.apply r).verdicts = m.verdicts.insertAll Verdict.pair (m.enteredVerdicts r) ∧
      (m.allSharesIn = false → ¬ m.UpholdsEarly r → m.enteredVerdicts r = []) ∧
      ∀ d, r = .disclosure d → m.UpholdsEarly r → m.enteredVerdicts r = [m.upheld d.pair]) ∧
    ∀ (id : String) (terms : Terms) (rs : List (Request S)),
      (∀ terms', Request.reset terms' ∉ rs) →
      (rs.foldl apply (start id terms)).stage = .verified →
      ((∃ pre post, rs = pre ++ post ∧ (pre.foldl apply (start id terms)).allSharesIn = true ∧
          (pre.foldl apply (start id terms)).verdicts = .empty ∧
          (1 < terms.guardians →
            (pre.foldl apply (start id terms)).stage = .verificationsPending)) ↔
        ¬ (start id terms).UpholdsEarlyIn rs) := by
  refine ⟨fun m r hr => ⟨verdicts_apply m hr, enteredVerdicts_eq_nil, ?_⟩, ?_⟩
  · rintro d rfl h
    exact h.enteredVerdicts_eq
  intro id terms rs hrs hstage
  have hs' := allSharesIn_of_allVerdictsIn
    (allVerdictsIn_of_allGood (stage_eq_verified_iff.mp hstage))
  constructor
  · rintro ⟨pre, post, rfl, hs, hempty, -⟩
    obtain ⟨hpre, hpost⟩ := reset_notMem_append.mp hrs
    rw [List.foldl_append] at hs'
    rw [upholdsEarlyIn_append, not_or]
    exact ⟨fun hearly => hearly.verdicts_ne_empty hpre hempty, not_upholdsEarlyIn hpost hs hs'⟩
  · intro hearly
    obtain ⟨pre, post, rfl, hs, hempty⟩ := exists_allSharesIn hrs rfl hs' hearly
    refine ⟨pre, post, rfl, hs, hempty, fun hn => stage_of_verdicts_eq_empty ?_ hs hempty⟩
    have hsetting := setting_foldl_apply (reset_notMem_append.mp hrs).1 (start id terms)
    rwa [show (pre.foldl apply (start id terms)).terms = terms from congrArg Prod.snd hsetting]

/-- Two guardians whose shares come before their verdicts are waited for. -/
theorem verdicts_wait_in_settledPair :
    settledPair.stage = .verified ∧
    ∃ pre post, pairRequests (announcementOf Suite.standard "a" 1 2 [2])
        (announcementOf _ "b" 2 3 [3]) = pre ++ post ∧
      (pre.foldl apply (start "mediator" ⟨"ceremony", 2, 1⟩)).stage = .verificationsPending ∧
      (pre.foldl apply (start "mediator" ⟨"ceremony", 2, 1⟩)).verdicts = .empty := by
  have hstage : settledPair.stage = .verified := stage_eq_verified_iff.mpr allGood_settledPair
  have hearly : ¬ (start "mediator" ⟨"ceremony", 2, 1⟩ : Mediator Suite.standard).UpholdsEarlyIn
      (pairRequests (announcementOf _ "a" 1 2 [2]) (announcementOf _ "b" 2 3 [3])) := by
    rintro ⟨pre, r, post, heq, -, d, rfl, -⟩
    have hmem : Request.disclosure d ∈ pairRequests (announcementOf Suite.standard "a" 1 2 [2])
        (announcementOf _ "b" 2 3 [3]) := by
      rw [heq]
      exact List.mem_append_right pre List.mem_cons_self
    simp [pairRequests] at hmem
  obtain ⟨pre, post, heq, -, hempty, hwait⟩ :=
    (verdicts_wait_for_shares_iff.2 "mediator" ⟨"ceremony", 2, 1⟩ _ (by simp [pairRequests])
      hstage).mpr hearly
  exact ⟨hstage, pre, post, heq, hwait (by decide), hempty⟩

/-! ### Two disclosures before the shares -/

/-- Two guardians with the secret one have announced, and nothing else has come. -/
def announcedPair : Mediator Suite.standard :=
  [Request.announce (announcementOf _ "a" 1 1 [1]), .announce (announcementOf _ "b" 2 1 [1])].foldl
    apply (start "mediator" ⟨"ceremony", 2, 1⟩)

/-- What one of them discloses to the other. -/
def unitDisclosure (o r : String) (order : UInt64) : Disclosure Suite.standard :=
  ⟨o, r, order, Suite.standard.scalar 1, [Suite.standard.commit (Suite.standard.scalar 1)]⟩

/-- Both guardians disclose before any share has come.  The verdicts are kept, and with the last
share the ceremony is at its last stage. -/
theorem verdict_before_shares :
    Reachable announcedPair ∧ announcedPair.stage = .backupsPending ∧
    announcedPair.verdicts.get? ⟨"a", "b"⟩ = none ∧
    (announcedPair.apply (.disclosure (unitDisclosure "a" "b" 2))).verdicts.get? ⟨"a", "b"⟩ =
      some ⟨"a", "b", "mediator", true⟩ ∧
    ∃ m, m = [Request.disclosure (unitDisclosure "a" "b" 2),
        .disclosure (unitDisclosure "b" "a" 1),
        .shares [blankShare _ "a" "b"]].foldl apply announcedPair ∧
      m.stage = .backupsPending ∧
      (m.apply (.shares [blankShare _ "b" "a"])).stage = .verified := by
  have hm : Reachable announcedPair := Reachable.foldl _ (.start _ _)
  refine ⟨hm, ?_, rfl, ?_, _, rfl, ?_, ?_⟩ <;> decide +kernel

end Guardianship.Mediator
