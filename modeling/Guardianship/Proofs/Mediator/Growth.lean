import Guardianship.Proofs.Mediator.Announcements

/-!
# What a mediator holds only grows

Apart from a reset a request enters messages and takes none away: which shares and which verdicts
it enters depends on the gate of their round (`shares_apply`, `verdicts_apply`).  So from one
request to the next nobody who has announced is forgotten, and no pair loses its message
(`GrowsTo`).

The number of guardians who are expected stays, so once everyone has announced, everyone will have
announced until somebody new does (`EveryoneAnnounced.of_growsTo`), and a round that was complete is
complete as long as that is so (`GrowsTo.allSharesIn`, `GrowsTo.allVerdictsIn`).
-/

namespace Guardianship.Mediator

variable {S : Suite}

/-! ### What a request enters -/

/-- The shares that a request enters. -/
def enteredShares (m : Mediator S) : Request S → List (SealedShare S)
  | .shares ss => if m.allAnnounced then ss.filter fun s => m.admits s.pair else []
  | .announce _ | .verdicts _ | .disclosure _ | .reset _ => []

/-- The verdicts that a request enters.  For a disclosure no round has to be complete. -/
def enteredVerdicts (m : Mediator S) : Request S → List Verdict
  | .verdicts vs => if m.allSharesIn then vs.filter fun v => m.admits v.pair else []
  | .disclosure d => if m.admits d.pair && (m.judge d).good then [m.upheld d.pair] else []
  | .announce _ | .shares _ | .reset _ => []

theorem shares_receiveVerdict (m : Mediator S) (v : Verdict) :
    (m.receiveVerdict v).shares = m.shares := by
  unfold receiveVerdict
  split_ifs <;> rfl

theorem shares_receiveDisclosure (m : Mediator S) (d : Disclosure S) :
    (m.receiveDisclosure d).shares = m.shares := by
  have hkeep : (m.keepDisclosure d).shares = m.shares := by
    unfold keepDisclosure
    split_ifs <;> rfl
  unfold receiveDisclosure
  dsimp only
  split_ifs
  · rw [shares_receiveVerdict, hkeep]
  · exact hkeep

theorem verdicts_keepDisclosure (m : Mediator S) (d : Disclosure S) :
    (m.keepDisclosure d).verdicts = m.verdicts := by
  unfold keepDisclosure
  split_ifs <;> rfl

theorem verdicts_receiveDisclosure (m : Mediator S) (d : Disclosure S) :
    (m.receiveDisclosure d).verdicts =
      m.verdicts.insertAll Verdict.pair (m.enteredVerdicts (.disclosure d)) := by
  rw [enteredVerdicts]
  by_cases ha : m.admits d.pair = true
  · by_cases hgood : (m.judge d).good = true
    · rw [receiveDisclosure_eq hgood ha, ha, hgood]
      rfl
    · rw [receiveDisclosure, if_neg hgood, verdicts_keepDisclosure]
      simp [hgood, Ledger.insertAll]
  · have hkeep : m.keepDisclosure d = m := if_neg ha
    have hverdict : m.receiveVerdict (m.judge d) = m := if_neg ha
    rw [receiveDisclosure, hkeep, hverdict, ite_self]
    simp [ha, Ledger.insertAll]

section Step

variable (m : Mediator S) {r : Request S} (hr : ∀ terms, r ≠ .reset terms)
include hr

theorem shares_apply :
    (m.apply r).shares = m.shares.insertAll SealedShare.pair (m.enteredShares r) := by
  cases r with
  | announce a => rfl
  | shares ss =>
    show (m.receiveShares ss).shares = _
    rw [receiveShares, enteredShares]
    by_cases h : m.allAnnounced = true
    · rw [if_pos h, if_pos h, foldl_receiveShare]
    · rw [if_neg h, if_neg h]
      rfl
  | verdicts vs =>
    show (m.receiveVerdicts vs).shares = _
    rw [receiveVerdicts, foldl_receiveVerdict]
    split_ifs <;> rfl
  | disclosure d => exact m.shares_receiveDisclosure d
  | reset terms => exact absurd rfl (hr terms)

theorem verdicts_apply :
    (m.apply r).verdicts = m.verdicts.insertAll Verdict.pair (m.enteredVerdicts r) := by
  cases r with
  | announce a => rfl
  | shares ss =>
    show (m.receiveShares ss).verdicts = _
    rw [receiveShares, foldl_receiveShare]
    split_ifs <;> rfl
  | verdicts vs =>
    show (m.receiveVerdicts vs).verdicts = _
    rw [receiveVerdicts, enteredVerdicts]
    by_cases h : m.allSharesIn = true
    · rw [if_pos h, if_pos h, foldl_receiveVerdict]
    · rw [if_neg h, if_neg h]
      rfl
  | disclosure d => exact m.verdicts_receiveDisclosure d
  | reset terms => exact absurd rfl (hr terms)

end Step

/-! ### Growth -/

/-- On the same terms, everyone who has announced to the one mediator has announced to the other,
and there is a message for every pair for which there was one. -/
structure GrowsTo (m m' : Mediator S) : Prop where
  setting : m'.setting = m.setting
  electionKeys : m.electionKeys.keys ⊆ m'.electionKeys.keys
  transportKeys : m.transportKeys.keys ⊆ m'.transportKeys.keys
  shares : m.shares.keys ⊆ m'.shares.keys
  verdicts : m.verdicts.keys ⊆ m'.verdicts.keys

namespace GrowsTo

variable {m m' m'' : Mediator S}

theorem refl (m : Mediator S) : m.GrowsTo m :=
  ⟨rfl, List.Subset.refl _, List.Subset.refl _, List.Subset.refl _, List.Subset.refl _⟩

theorem trans (h : m.GrowsTo m') (h' : m'.GrowsTo m'') : m.GrowsTo m'' where
  setting := h'.setting.trans h.setting
  electionKeys := List.Subset.trans h.electionKeys h'.electionKeys
  transportKeys := List.Subset.trans h.transportKeys h'.transportKeys
  shares := List.Subset.trans h.shares h'.shares
  verdicts := List.Subset.trans h.verdicts h'.verdicts

theorem apply (m : Mediator S) {r : Request S} (hr : ∀ terms, r ≠ .reset terms) :
    m.GrowsTo (m.apply r) := by
  have hrs := reset_notMem_cons.mpr ⟨hr, fun _ => List.not_mem_nil⟩
  refine ⟨setting_foldl_apply hrs m, ?_, ?_, ?_, ?_⟩
  · rw [show (m.apply r).electionKeys = _ from electionKeys_foldl_apply hrs m]
    exact (Ledger.keys_prefix_insertAll _ _ _).subset
  · rw [show (m.apply r).transportKeys = _ from transportKeys_foldl_apply hrs m]
    exact (Ledger.keys_prefix_insertAll _ _ _).subset
  · rw [shares_apply m hr]
    exact (Ledger.keys_prefix_insertAll _ _ _).subset
  · rw [verdicts_apply m hr]
    exact (Ledger.keys_prefix_insertAll _ _ _).subset

theorem foldl_apply :
    ∀ {rs : List (Request S)}, (∀ terms, Request.reset terms ∉ rs) → ∀ m : Mediator S,
      m.GrowsTo (rs.foldl Mediator.apply m)
  | [], _, m => refl m
  | r :: rs, hrs, m => by
    obtain ⟨hr, hrest⟩ := reset_notMem_cons.mp hrs
    exact (apply m hr).trans (foldl_apply hrest _)

variable (h : m.GrowsTo m')
include h

theorem expected_eq : m'.expected = m.expected :=
  congrArg (fun s : String × Terms => s.2.guardians.toNat) h.setting

theorem announcers_subset : m.announcers ⊆ m'.announcers := by
  intro id hid
  exact mem_announcers.mpr (h.electionKeys (mem_announcers.mp hid))

theorem carriers_subset : m.carriers ⊆ m'.carriers := by
  intro id hid
  exact mem_carriers.mpr (h.transportKeys (mem_carriers.mp hid))

section Announced

variable (ha : m.EveryoneAnnounced) (ha' : m'.EveryoneAnnounced)
include ha ha'

/-- If everyone has announced before and after, nobody new has in between. -/
theorem announcers_eq : m'.announcers = m.announcers := by
  have hcard : m'.announcers.card ≤ m.announcers.card := by
    rw [ha.card_announcers, ha'.card_announcers, h.expected_eq]
  exact (Finset.eq_of_subset_of_card_le h.announcers_subset hcard).symm

theorem carriers_eq : m'.carriers = m.carriers := by
  rw [← ha.announcers_eq, ← ha'.announcers_eq, h.announcers_eq ha ha']

theorem pairs_eq : m'.pairs = m.pairs := by
  rw [pairs, pairs, h.announcers_eq ha ha']

end Announced

end GrowsTo

/-! ### Rounds that stay complete -/

/-- If as many have announced before and after, then just as many have in between. -/
theorem EveryoneAnnounced.of_growsTo {m m' m'' : Mediator S} (ha : m.EveryoneAnnounced)
    (ha'' : m''.EveryoneAnnounced) (h : m.GrowsTo m') (h' : m'.GrowsTo m'') :
    m'.EveryoneAnnounced := by
  have hle := Finset.card_le_card h.announcers_subset
  have hle' := Finset.card_le_card h'.announcers_subset
  have hlec := Finset.card_le_card h.carriers_subset
  have hlec' := Finset.card_le_card h'.carriers_subset
  have hexpected := h.expected_eq
  have hexpected' := h'.expected_eq
  have hcard := ha.card_announcers
  have hcard'' := ha''.card_announcers
  have hcardc := ha.card_carriers
  have hcardc'' := ha''.card_carriers
  have hannouncers := Finset.eq_of_subset_of_card_le h.announcers_subset (by omega)
  have hcarriers := Finset.eq_of_subset_of_card_le h.carriers_subset (by omega)
  exact ⟨by omega, by omega, by rw [← hannouncers, ← hcarriers, ha.announcers_eq]⟩

/-- If every share is in before and after, then every share is in in between. -/
theorem allSharesIn_of_growsTo {m m' m'' : Mediator S} (hs : m.allSharesIn = true)
    (hs'' : m''.allSharesIn = true) (h : m.GrowsTo m') (h' : m'.GrowsTo m'') :
    m'.allSharesIn = true := by
  have hle := Ledger.size_le_of_keys_subset h.shares
  have hle' := Ledger.size_le_of_keys_subset h'.shares
  have hterms : m'.terms = m.terms := congrArg Prod.snd h.setting
  have hterms' : m''.terms = m'.terms := congrArg Prod.snd h'.setting
  simp only [allSharesIn, Bool.and_eq_true, beq_iff_eq, allAnnounced_iff] at hs hs'' ⊢
  rw [hterms', hterms] at hs''
  rw [hterms]
  exact ⟨hs.1.of_growsTo hs''.1 h h', by omega⟩

section Complete

variable {m m' : Mediator S} (h : m.GrowsTo m') (hf : m.Filed) (hf' : m'.Filed)
  (hn : m.expected ≤ 2 ^ 32) (ha' : m'.EveryoneAnnounced)
include h hf hf' hn ha'

theorem GrowsTo.allSharesIn (hs : m.allSharesIn = true) : m'.allSharesIn = true := by
  have hn' : m'.expected ≤ 2 ^ 32 := by rwa [h.expected_eq]
  rw [allSharesIn_iff hf hn, sharesCover_iff hf] at hs
  rw [allSharesIn_iff hf' hn', sharesCover_iff hf', h.pairs_eq hs.1 ha']
  exact ⟨ha', fun p hp => h.shares (hs.2 p hp)⟩

theorem GrowsTo.allVerdictsIn (hv : m.allVerdictsIn = true) : m'.allVerdictsIn = true := by
  have hn' : m'.expected ≤ 2 ^ 32 := by rwa [h.expected_eq]
  have hs' := h.allSharesIn hf hf' hn ha' (allSharesIn_of_allVerdictsIn hv)
  obtain ⟨ha, -, hcover⟩ := (allVerdictsIn_iff hf hn).mp hv
  refine (allVerdictsIn_iff hf' hn').mpr ⟨ha', ((allSharesIn_iff hf' hn').mp hs').2, ?_⟩
  rw [verdictsCover_iff hf] at hcover
  rw [verdictsCover_iff hf', h.pairs_eq ha ha']
  intro p hp
  obtain ⟨v, hget, -⟩ := hcover p hp
  obtain ⟨w, hw⟩ := Ledger.mem_keys.mp (h.verdicts (Ledger.mem_keys_of_get? hget))
  exact ⟨w, hw, trivial⟩

end Complete

end Guardianship.Mediator
