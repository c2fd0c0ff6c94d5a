import Guardianship.Proofs.Mediator.Batches

/-!
# What a disclosure settles

A mediator finds a disclosure good exactly if it is of the share that its owner committed to, at the
place of its recipient (`judge_good_iff_disclosesShare`).  In a lawful suite this leaves one value
for each recipient (`judge_good_iff_eq_evaluate`).

A disclosure that is found good replaces the verdict on its pair by a good one, and one that is not
is kept without any consequence (`receiveDisclosure_eq_ite`, `looksLike_of_refused`).  So no good
verdict is lost to a disclosure, and of the failed pairs those are cleared of which a disclosure is
good, one after the other (`failed_receiveDisclosure`, `failed_foldl_receiveDisclosure`).

Main statement: `disclosures_clear_failures`.
-/

namespace Guardianship.Mediator

open scoped Fin.CommRing

variable {S : Suite} {m : Mediator S}

/-! ### The verdict -/

/-- What is disclosed is the share that its owner committed to, at the place of its recipient. -/
structure DisclosesShare (m : Mediator S) (d : Disclosure S) : Prop where
  owner : ∃ k, m.electionKeys.get? d.owner = some k ∧ k.commitments = d.commitments
  recipient : ∃ k, m.electionKeys.get? d.recipient = some k ∧ k.order = d.order
  committed : d.commitments ≠ []
  value : S.commit d.value =
    S.sum (d.commitments.mapIdx fun j c => S.multiply (S.scalar d.order.toNat ^ j) c)

theorem judge_good_iff_disclosesShare {d : Disclosure S} :
    (m.judge d).good = true ↔ m.DisclosesShare d := by
  rw [judge_good_iff, Commitments.accepts_iff_commit_eq]
  constructor
  · rintro ⟨⟨hne, hvalue⟩, howner, hrecipient⟩
    exact ⟨howner, hrecipient, hne, hvalue⟩
  · rintro ⟨howner, hrecipient, hne, hvalue⟩
    exact ⟨⟨hne, hvalue⟩, howner, hrecipient⟩

/-- Of all that may be disclosed to a guardian a single value is found good. -/
theorem judge_good_iff_eq_evaluate (hS : S.Lawful) {d : Disclosure S} {p : Polynomial S}
    {k k' : ElectionKey S} (hk : m.electionKeys.get? d.owner = some k)
    (hp : k.commitments = p.commitments) (hk' : m.electionKeys.get? d.recipient = some k') :
    (m.judge d).good = true ↔
      d.commitments = p.commitments ∧ d.order = k'.order ∧ d.value = p.evaluate k'.order := by
  simp only [judge_good_iff, hk, hk', Option.some.injEq, exists_eq_left', hp]
  constructor
  · rintro ⟨haccepts, hcommitments, horder⟩
    rw [← hcommitments, ← horder, Commitments.accepts_iff hS] at haccepts
    exact ⟨hcommitments.symm, horder.symm, haccepts⟩
  · rintro ⟨hcommitments, horder, hvalue⟩
    rw [hcommitments, horder, Commitments.accepts_iff hS]
    exact ⟨hvalue, rfl, rfl⟩

/-- Verdicts on disclosures depend on announcements only. -/
theorem judge_of_foundation {m' : Mediator S} (h : m'.foundation = m.foundation)
    (d : Disclosure S) : m'.judge d = m.judge d := congrArg (fun f => f.judge d) h

theorem judge_receiveDisclosure (d d' : Disclosure S) :
    (m.receiveDisclosure d).judge d' = m.judge d' :=
  judge_of_foundation (m.foundation_receiveDisclosure d) d'

/-! ### What a disclosure changes -/

theorem receiveDisclosure_eq_ite (m : Mediator S) (d : Disclosure S) :
    m.receiveDisclosure d = { m with
      disclosures :=
        if m.admits d.pair then m.disclosures.insert d.pair d else m.disclosures
      verdicts :=
        if m.admits d.pair && (m.judge d).good then m.verdicts.insert d.pair (m.judge d)
        else m.verdicts } := by
  by_cases ha : m.admits d.pair = true
  · have hkeep : m.keepDisclosure d =
        { m with disclosures := m.disclosures.insert d.pair d } := if_pos ha
    rw [receiveDisclosure, hkeep, ha]
    by_cases hgood : (m.judge d).good = true
    · rw [if_pos hgood, hgood]
      exact if_pos ha
    · rw [if_neg hgood, Bool.eq_false_iff.mpr hgood]
      rfl
  · have hkeep : m.keepDisclosure d = m := if_neg ha
    have hverdict : m.receiveVerdict (m.judge d) = m := if_neg ha
    rw [receiveDisclosure, hkeep, hverdict, ite_self, Bool.eq_false_iff.mpr ha]
    rfl

/-- Nobody who asks for the stage, the verdicts, the joint key, announcements or shares can tell the
two mediators apart. -/
structure LooksLike (m m' : Mediator S) : Prop where
  stage : m'.stage = m.stage
  summary : m'.summary = m.summary
  jointKey : m'.jointKey? = m.jointKey?
  roster : ∀ requester, m'.roster requester = m.roster requester
  sharesFor : ∀ requester, m'.sharesFor requester = m.sharesFor requester

theorem looksLike_of_refused {d : Disclosure S} (h : (m.judge d).good = false) :
    m.LooksLike (m.receiveDisclosure d) := by
  rw [receiveDisclosure_eq_ite, h, Bool.and_false]
  -- disclosures are stored, but no answer is made of them
  exact ⟨rfl, rfl, rfl, fun _ => rfl, fun _ => rfl⟩

theorem verdicts_receiveDisclosure_eq_ite (m : Mediator S) (d : Disclosure S) :
    (m.receiveDisclosure d).verdicts =
      if m.admits d.pair && (m.judge d).good then m.verdicts.insert d.pair (m.judge d)
      else m.verdicts := by rw [receiveDisclosure_eq_ite]

theorem get?_verdicts_receiveDisclosure (d : Disclosure S) (p : Pair) :
    (m.receiveDisclosure d).verdicts.get? p =
      if d.pair = p ∧ m.admits p = true ∧ (m.judge d).good = true then some (m.judge d)
      else m.verdicts.get? p := by
  rw [verdicts_receiveDisclosure_eq_ite]
  by_cases hp : d.pair = p
  · subst hp
    simp only [Bool.and_eq_true, true_and]
    split_ifs
    · exact Ledger.get?_insert_self _ _ _
    · rfl
  · rw [if_neg fun h : d.pair = p ∧ _ => hp h.1]
    split_ifs
    · exact Ledger.get?_insert_of_ne _ _ hp
    · rfl

/-- A good verdict is never lost to a disclosure. -/
theorem good_receiveDisclosure {d : Disclosure S} {p : Pair} {v : Verdict}
    (hv : m.verdicts.get? p = some v) (hgood : v.good = true) :
    ∃ v', (m.receiveDisclosure d).verdicts.get? p = some v' ∧ v'.good = true := by
  rw [get?_verdicts_receiveDisclosure]
  split_ifs with h
  · exact ⟨_, rfl, h.2.2⟩
  · exact ⟨v, hv, hgood⟩

/-! ### Which failures are cleared -/

/-- The disclosure is of the share of a pair, and it is found good. -/
def settles (m : Mediator S) (d : Disclosure S) (p : Pair) : Bool :=
  d.pair = p && (m.judge d).good

theorem isFailed_receiveDisclosure (hf : m.Filed) (d : Disclosure S) (p : Pair) :
    (m.receiveDisclosure d).isFailed p = (m.isFailed p && !m.settles d p) := by
  rw [isFailed, isFailed, settles, get?_verdicts_receiveDisclosure]
  split_ifs with h
  · obtain ⟨hp, -, hgood⟩ := h
    simp [hp, hgood]
  · cases hget : m.verdicts.get? p with
    | none => rfl
    | some v =>
      -- a pair on which there is a verdict is admitted
      have hnot : ¬ (d.pair = p ∧ (m.judge d).good = true) := fun h' =>
        h ⟨h'.1, (hf.verdicts p v hget).2, h'.2⟩
      have hsettles : (decide (d.pair = p) && (m.judge d).good) = false := by
        rwa [Bool.eq_false_iff, Ne, Bool.and_eq_true, decide_eq_true_iff]
      rw [hsettles, Bool.not_false, Bool.and_true]

theorem failed_receiveDisclosure (hf : m.Filed) (d : Disclosure S) :
    (m.receiveDisclosure d).failed = m.failed.filter fun p => !m.settles d p := by
  have hfailed : (m.receiveDisclosure d).isFailed = fun p => m.isFailed p && !m.settles d p :=
    funext (isFailed_receiveDisclosure hf d)
  rw [failed_eq_filter, failed_eq_filter, hfailed, List.filter_filter,
    verdicts_receiveDisclosure_eq_ite]
  simp only [Bool.and_comm (m.isFailed _)]
  split_ifs with h
  · rw [Ledger.keys_insert]
    split_ifs
    · rfl
    · -- the pair is new, but its verdict is good
      have hsettles : m.settles d d.pair = true := by
        rw [settles, (Bool.and_eq_true_iff.mp h).2]
        simp
      simp [List.filter_append, hsettles]
  · rfl

theorem failed_foldl_receiveDisclosure :
    ∀ (ds : List (Disclosure S)) {m : Mediator S}, m.Filed →
      (ds.foldl receiveDisclosure m).failed =
        m.failed.filter fun p => !ds.any fun d => m.settles d p
  | [], m, _ => by simp
  | d :: ds, m, hf => by
    have hsettles : (m.receiveDisclosure d).settles = m.settles := by
      funext d' p
      rw [settles, settles, judge_receiveDisclosure]
    rw [List.foldl_cons, failed_foldl_receiveDisclosure ds (hf.receiveDisclosure d),
      failed_receiveDisclosure hf, List.filter_filter, hsettles]
    refine List.filter_congr fun p _ => ?_
    rw [List.any_cons, Bool.not_or, Bool.and_comm]

/-- **A disclosure clears a failure exactly if it is of the committed share.**  The verdict on it is
the mediator's own, and it is good exactly if the disclosure fits what its owner and its recipient
announced and its value the commitments; if these are to a polynomial, nothing but the value of that
polynomial does.  The disclosure is kept if it is between two different announcers, and then a good
verdict on it as well; nothing else changes, and nothing that anyone sees if the verdict is bad.  No
good verdict is lost, and of the failed pairs those remain of which no disclosure is good. -/
theorem disclosures_clear_failures (hm : Reachable m) (d : Disclosure S) :
    m.judge d = ⟨d.owner, d.recipient, m.id, (m.judge d).good⟩ ∧
    ((m.judge d).good = true ↔ m.DisclosesShare d) ∧
    (S.Lawful → ∀ (p : Polynomial S) (k k' : ElectionKey S),
      m.electionKeys.get? d.owner = some k → k.commitments = p.commitments →
      m.electionKeys.get? d.recipient = some k' →
      ((m.judge d).good = true ↔
        d.commitments = p.commitments ∧ d.order = k'.order ∧ d.value = p.evaluate k'.order)) ∧
    (m.admits d.pair = true ↔
      d.owner ≠ d.recipient ∧ d.owner ∈ m.announcers ∧ d.recipient ∈ m.announcers) ∧
    m.receiveDisclosure d = { m with
      disclosures :=
        if m.admits d.pair then m.disclosures.insert d.pair d else m.disclosures
      verdicts :=
        if m.admits d.pair && (m.judge d).good then m.verdicts.insert d.pair (m.judge d)
        else m.verdicts } ∧
    ((m.judge d).good = false → m.LooksLike (m.receiveDisclosure d)) ∧
    (∀ p v, m.verdicts.get? p = some v → v.good = true →
      ∃ v', (m.receiveDisclosure d).verdicts.get? p = some v' ∧ v'.good = true) ∧
    ∀ ds : List (Disclosure S), (ds.foldl receiveDisclosure m).failed =
      m.failed.filter fun p => !ds.any fun d => m.settles d p := by
  refine ⟨rfl, judge_good_iff_disclosesShare, fun hS p k k' hk hp hk' =>
    judge_good_iff_eq_evaluate hS hk hp hk', ?_, m.receiveDisclosure_eq_ite d,
    looksLike_of_refused, fun p v => good_receiveDisclosure, fun ds =>
    failed_foldl_receiveDisclosure ds hm.filed⟩
  rw [admits_iff, mem_announcers, mem_announcers]
  rfl

/-- Two guardians of whom the second has complained of the share of the first, whose polynomial is
`2 + 5 x`. -/
def accusedPair : Mediator Suite.exponents :=
  [Request.announce (announcementOf _ "a" 1 2 [2, 5]), .announce (announcementOf _ "b" 2 3 [3, 7]),
    .shares [blankShare _ "a" "b", blankShare _ "b" "a"],
    .verdicts [⟨"a", "b", "b", false⟩, ⟨"b", "a", "a", true⟩]].foldl apply
      (start "mediator" ⟨"ceremony", 2, 2⟩)

/-- What the first discloses to the second for its share. -/
def answerOf (value : ℕ) : Disclosure Suite.exponents :=
  ⟨"a", "b", 2, Suite.exponents.scalar value,
    [2, 5].map fun a => Suite.exponents.commit (Suite.exponents.scalar a)⟩

/-- The value at the second place is twelve.  Thirteen is refused, and twelve clears the failure. -/
theorem accusation_cleared_by_twelve :
    Reachable accusedPair ∧ accusedPair.stage = .challengesPending ∧
    accusedPair.LooksLike (accusedPair.receiveDisclosure (answerOf 13)) ∧
    accusedPair.DisclosesShare (answerOf 12) ∧
    ([answerOf 13, answerOf 12].foldl receiveDisclosure accusedPair).failed = [] ∧
    ([answerOf 13, answerOf 12].foldl receiveDisclosure accusedPair).stage = .verified := by
  have hm : Reachable accusedPair := Reachable.foldl _ (.start _ _)
  obtain ⟨-, -, -, -, -, hrefused, -⟩ := disclosures_clear_failures hm (answerOf 13)
  obtain ⟨-, hgood, -, -, -, -, -, hfailed⟩ := disclosures_clear_failures hm (answerOf 12)
  refine ⟨hm, by decide +kernel, hrefused (by decide +kernel), hgood.mp (by decide +kernel), ?_,
    by decide +kernel⟩
  rw [hfailed]
  decide +kernel

end Guardianship.Mediator
