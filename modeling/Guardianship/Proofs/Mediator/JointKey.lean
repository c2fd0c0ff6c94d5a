import Guardianship.Proofs.Mediator.Announcements
import Guardianship.Proofs.Polynomial.Commitments
import Guardianship.Proofs.Suite.Exponents

/-!
# What a joint key stands for

A joint key is computed anew whenever it is asked for, from the election keys that are held at the
time, and an announcement is entered at every stage.  So a guardian who announces another key after
the last verdict changes what is published (`reannouncement_changes_jointKey`).  Nothing else
does: nobody new can announce between two publications, and the later key combines the latest
election keys of the same guardians in the same order (`jointKey_changes_only_by_reannouncement`).

What is combined are the keys of the announcements, while shares are checked against their
commitments, and the mediator does not compare the two.  The joint key belongs to the secrets of
which guardians hold shares (`KeyOfShares`) if every announced key is the first of its commitments;
a single one that is not makes it another key (`keyOfShares_of_announced_keys`,
`jointKey_of_foreign_key`).
-/

namespace Guardianship

variable {S : Suite}

/-! ### Combining -/

namespace JointKey

/-- Of an election key nothing matters but the key, the owner and the commitments. -/
theorem combine_map {f : ElectionKey S → ElectionKey S} {ks : List (ElectionKey S)}
    (h : ∀ k ∈ ks, (f k).key = k.key ∧ contribution (f k) = contribution k) :
    combine (ks.map f) = combine ks := by
  have hkeys : (ks.map f).map ElectionKey.key = ks.map ElectionKey.key := by
    rw [List.map_map]
    exact List.map_congr_left fun k hk => (h k hk).1
  have hcontributions : (ks.map f).flatMap contribution = ks.flatMap contribution := by
    rw [List.flatMap_map]
    exact List.flatMap_congr fun k hk => (h k hk).2
  rw [combine, combine, transcriptOf, transcriptOf, hkeys, hcontributions]

end JointKey

namespace ElectionKey

/-- The key is the first of the commitments. -/
def Consistent (e : ElectionKey S) : Prop := e.commitments.head? = some e.key

instance (e : ElectionKey S) : Decidable e.Consistent :=
  inferInstanceAs (Decidable (e.commitments.head? = some e.key))

theorem consistent_ofPolynomial (owner : String) (order : UInt64) (p : Polynomial S) :
    (ofPolynomial owner order p).Consistent :=
  List.head?_eq_some_head p.commitments_ne_nil

theorem Consistent.commitments_ne_nil {e : ElectionKey S} (h : e.Consistent) :
    e.commitments ≠ [] := by
  intro hnil
  rw [Consistent, hnil] at h
  cases h

theorem filterMap_head?_commitments {es : List (ElectionKey S)} (h : ∀ e ∈ es, e.Consistent) :
    (es.filterMap fun e => e.commitments.head?) = es.map key :=
  List.filterMap_eq_map_iff_forall_eq_some.mpr h

end ElectionKey

namespace Mediator

variable {m : Mediator S}

theorem jointKey?_eq_some_iff {k : JointKey S} :
    m.jointKey? = some k ↔ m.allGood = true ∧ JointKey.combine m.electionKeys.values = k := by
  unfold jointKey?
  split_ifs with h <;> simp [h]

theorem size_electionKeys_of_jointKey? {k : JointKey S} (hk : m.jointKey? = some k) :
    m.electionKeys.size = m.expected := by
  have hgood := (jointKey?_eq_some_iff.mp hk).1
  have hannounced := allAnnounced_of_allSharesIn
    (allSharesIn_of_allVerdictsIn (allVerdictsIn_of_allGood hgood))
  rw [← Ledger.card_keys]
  exact (allAnnounced_iff.mp hannounced).card_announcers

/-! ### Two publications in one ceremony -/

section Later

variable {rs : List (Request S)} (hrs : ∀ terms, Request.reset terms ∉ rs) {k k' : JointKey S}
  (hk : m.jointKey? = some k) (hk' : (rs.foldl apply m).jointKey? = some k')
include hrs hk hk'

/-- Nobody has announced between two publications who had not announced before the first. -/
theorem keys_electionKeys_of_jointKey? :
    (rs.foldl apply m).electionKeys.keys = m.electionKeys.keys := by
  have hsize := size_electionKeys_of_jointKey? hk'
  rw [expected_foldl_apply hrs, ← size_electionKeys_of_jointKey? hk, ← Ledger.length_keys,
    ← Ledger.length_keys, electionKeys_foldl_apply hrs] at hsize
  rw [electionKeys_foldl_apply hrs]
  exact ((Ledger.keys_prefix_insertAll _ _ _).eq_of_length hsize.symm).symm

theorem owner_mem_of_jointKey? {a : Announcement S} (ha : a ∈ announcements rs) :
    a.owner ∈ m.electionKeys.keys := by
  rw [← keys_electionKeys_of_jointKey? hrs hk hk', electionKeys_foldl_apply hrs,
    Ledger.mem_keys_insertAll]
  refine Or.inr ?_
  rw [List.map_map]
  exact List.mem_map_of_mem ha

/-- A later joint key combines, in the same order, the key that each guardian announced last. -/
theorem jointKey_eq_combine_latest (hf : m.Filed) :
    k' = JointKey.combine (m.electionKeys.values.map
      (Ledger.latest ElectionKey.owner ((announcements rs).map Announcement.election))) := by
  have hkeys := keys_electionKeys_of_jointKey? hrs hk hk'
  obtain ⟨-, rfl⟩ := jointKey?_eq_some_iff.mp hk'
  rw [electionKeys_foldl_apply hrs] at hkeys ⊢
  rw [Ledger.values_insertAll hf.electionKeys hkeys]

end Later

/-- The announcement leaves what the guardian's election key contributes to the joint key. -/
def Confirms (m : Mediator S) (a : Announcement S) : Prop :=
  ∀ e, m.electionKeys.get? a.owner = some e →
    a.election.key = e.key ∧ a.election.commitments = e.commitments

theorem combine_latest_of_confirms (hf : m.Filed) {as : List (Announcement S)}
    (has : ∀ a ∈ as, m.Confirms a) :
    JointKey.combine (m.electionKeys.values.map
        (Ledger.latest ElectionKey.owner (as.map Announcement.election))) =
      JointKey.combine m.electionKeys.values := by
  refine JointKey.combine_map fun e he => ?_
  obtain ⟨o, ho⟩ := Ledger.mem_values.mp he
  rcases Ledger.latest_mem ElectionKey.owner (as.map Announcement.election) e with
    hold | ⟨hnew, howner⟩
  · rw [hold]
    exact ⟨rfl, rfl⟩
  · obtain ⟨a, ha, hae⟩ := List.mem_map.mp hnew
    rw [← hae] at howner ⊢
    have hget : m.electionKeys.get? a.owner = some e := by
      rw [Announcement.owner, howner, hf.electionKeys o e ho, ho]
    obtain ⟨hkey, hcommitments⟩ := has a ha e hget
    exact ⟨hkey, by rw [JointKey.contribution, JointKey.contribution, howner, hcommitments]⟩

/-- **A published key changes only by re-announcement.**  Of two joint keys that are published
without a reset in between, the later one combines the latest election keys of the same guardians in
the same order, so the two are equal unless one of these guardians has announced another key or
other commitments. -/
theorem jointKey_changes_only_by_reannouncement (hm : Reachable m) {rs : List (Request S)}
    (hrs : ∀ terms, Request.reset terms ∉ rs) {k k' : JointKey S} (hk : m.jointKey? = some k)
    (hk' : (rs.foldl apply m).jointKey? = some k') :
    (∀ a ∈ announcements rs, a.owner ∈ m.electionKeys.keys) ∧
    k' = JointKey.combine (m.electionKeys.values.map
      (Ledger.latest ElectionKey.owner ((announcements rs).map Announcement.election))) ∧
    (k' = k ∨ ∃ a ∈ announcements rs, ∃ e, m.electionKeys.get? a.owner = some e ∧
      (a.election.key ≠ e.key ∨ a.election.commitments ≠ e.commitments)) := by
  have hlatest := jointKey_eq_combine_latest hrs hk hk' hm.filed
  refine ⟨fun a ha => owner_mem_of_jointKey? hrs hk hk' ha, hlatest, ?_⟩
  by_cases hconfirms : ∀ a ∈ announcements rs, m.Confirms a
  · left
    obtain ⟨-, rfl⟩ := jointKey?_eq_some_iff.mp hk
    rw [hlatest, combine_latest_of_confirms hm.filed hconfirms]
  · right
    push Not at hconfirms
    obtain ⟨a, ha, hnot⟩ := hconfirms
    unfold Confirms at hnot
    push Not at hnot
    obtain ⟨e, he, hne⟩ := hnot
    exact ⟨a, ha, e, he, not_and_or.mp fun h => hne h.1 h.2⟩

/-! ### Two guardians whose shares were all found good -/

/-- Two announcements, and shares and good verdicts between those who made them. -/
def pairRequests (a b : Announcement S) : List (Request S) :=
  [.announce a, .announce b,
    .shares [blankShare S a.owner b.owner, blankShare S b.owner a.owner],
    .verdicts [⟨a.owner, b.owner, b.owner, true⟩, ⟨b.owner, a.owner, a.owner, true⟩]]

/-- A mediator to whom two guardians have announced and found each other's shares good. -/
def verifiedPair (quorum : UInt64) (a b : Announcement S) : Mediator S :=
  (pairRequests a b).foldl apply (start "mediator" ⟨"ceremony", 2, quorum⟩)

theorem reachable_verifiedPair (quorum : UInt64) (a b : Announcement S) :
    Reachable (verifiedPair quorum a b) := Reachable.foldl _ (.start _ _)

/-- An announcement of the commitments to some numbers, with the commitment to another for a
key. -/
def announcementOf (S : Suite) (id : String) (order : UInt64) (key : ℕ) (coefficients : List ℕ) :
    Announcement S :=
  ⟨⟨id, order, S.commit (S.scalar key), coefficients.map fun a => S.commit (S.scalar a)⟩,
    ⟨id, order, .ofNatLE 0⟩⟩

/-- Two guardians whose secrets are two and three, both of whose shares were found good. -/
def settledPair : Mediator Suite.standard :=
  verifiedPair 1 (announcementOf _ "a" 1 2 [2]) (announcementOf _ "b" 2 3 [3])

theorem allGood_settledPair : settledPair.allGood = true := by decide +kernel

/-- The first guardian announces another key, and another joint key is published. -/
theorem reannouncement_changes_jointKey :
    Reachable settledPair ∧ settledPair.stage = .verified ∧
      ∃ k k', settledPair.jointKey? = some k ∧
        (settledPair.apply (.announce (announcementOf _ "a" 1 4 [4]))).jointKey? = some k' ∧
        k'.key ≠ k.key := by
  refine ⟨reachable_verifiedPair _ _ _, stage_eq_verified_iff.mpr allGood_settledPair, _, _,
    if_pos allGood_settledPair, if_pos ?_, ?_⟩ <;> decide +kernel

/-- The first guardian with the same keys at another place. -/
def movedAnnouncement : Announcement Suite.standard := announcementOf _ "a" 5 2 [2]

theorem jointKey_stays_on_moved_announcement :
    Reachable settledPair ∧
      (∀ terms, Request.reset terms ∉ [Request.announce movedAnnouncement]) ∧
      ∃ k k', settledPair.jointKey? = some k ∧
        ([.announce movedAnnouncement].foldl apply settledPair).jointKey? = some k' ∧ k' = k := by
  have hm : Reachable settledPair := reachable_verifiedPair _ _ _
  have hrs : ∀ terms, Request.reset terms ∉ [Request.announce movedAnnouncement] := by simp
  have hk : settledPair.jointKey? = some (JointKey.combine _) := if_pos allGood_settledPair
  have hk' : ([.announce movedAnnouncement].foldl apply settledPair).jointKey? =
      some (JointKey.combine _) := if_pos (by decide +kernel)
  refine ⟨hm, hrs, _, _, hk, hk', ?_⟩
  obtain ⟨-, -, heq | ⟨a, ha, e, he, hne⟩⟩ :=
    jointKey_changes_only_by_reannouncement hm hrs hk hk'
  · exact heq
  · -- the key and the commitments that are held are those of the announcement
    have hget : settledPair.electionKeys.get? "a" =
        some (announcementOf Suite.standard "a" 1 2 [2]).election := by decide +kernel
    obtain rfl : a = movedAnnouncement := List.mem_singleton.mp ha
    obtain rfl := Option.some.inj (hget.symm.trans he)
    exact absurd hne (by rintro (h | h) <;> exact h rfl)

/-! ### The secrets that belong to a joint key -/

/-- The first commitments of the election keys that are held. -/
def firstCommitments (m : Mediator S) : List S.Element :=
  m.electionKeys.values.filterMap fun e => e.commitments.head?

/-- Every guardian has announced commitments, and the joint key is the sum of their first. -/
structure KeyOfShares (m : Mediator S) (k : JointKey S) : Prop where
  committed : ∀ e ∈ m.electionKeys.values, e.commitments ≠ []
  key_eq : k.key = S.sum m.firstCommitments

/-- The first commitments of polynomials add up to the commitment to the sum of their secrets. -/
theorem sum_firstCommitments (hS : S.Lawful) {ps : List (Polynomial S)}
    (hps : ps.map Polynomial.commitments = m.electionKeys.values.map ElectionKey.commitments) :
    S.sum m.firstCommitments = S.commit (ps.map Polynomial.secret).sum := by
  have hfirst : m.firstCommitments =
      (m.electionKeys.values.map ElectionKey.commitments).filterMap List.head? := by
    rw [List.filterMap_map]
    rfl
  rw [hfirst, ← hps, Polynomial.filterMap_head?_commitments, hS.sum_commit]

/-- In a lawful suite the joint key of the shares is the commitment to the sum of the secrets, of
which the announced commitments leave no choice. -/
theorem keyOfShares_iff_exists (hS : S.Lawful) {k : JointKey S} :
    m.KeyOfShares k ↔ ∃ ps : List (Polynomial S),
      ps.map Polynomial.commitments = m.electionKeys.values.map ElectionKey.commitments ∧
        k.key = S.commit (ps.map Polynomial.secret).sum := by
  constructor
  · rintro ⟨hne, hkey⟩
    obtain ⟨ps, hps⟩ := Polynomial.exists_map_commitments hS (List.forall_mem_map.mpr hne)
    exact ⟨ps, hps, hkey.trans (sum_firstCommitments hS hps)⟩
  · rintro ⟨ps, hps, hkey⟩
    refine ⟨fun e he => ?_, hkey.trans (sum_firstCommitments hS hps).symm⟩
    have hmem := List.mem_map_of_mem (f := ElectionKey.commitments) he
    rw [← hps] at hmem
    obtain ⟨p, -, hp⟩ := List.mem_map.mp hmem
    exact hp ▸ p.commitments_ne_nil

section Published

variable {k : JointKey S} (hk : m.jointKey? = some k)
include hk

/-- A joint key is the sum of what the guardians announced as their keys. -/
theorem key_of_jointKey? : k.key = S.sum (m.electionKeys.values.map ElectionKey.key) := by
  obtain ⟨-, rfl⟩ := jointKey?_eq_some_iff.mp hk
  rfl

theorem keyOfShares_of_consistent (hkeys : ∀ e ∈ m.electionKeys.values, e.Consistent) :
    m.KeyOfShares k := by
  refine ⟨fun e he => (hkeys e he).commitments_ne_nil, ?_⟩
  rw [key_of_jointKey? hk, firstCommitments, ElectionKey.filterMap_head?_commitments hkeys]

/-- A guardian who is alone in announcing another key than its first commitment makes the joint key
another one. -/
theorem keyOfShares_iff_consistent (hS : S.Lawful) {o : String} {e : ElectionKey S}
    (he : m.electionKeys.get? o = some e)
    (hothers : ∀ o' e', o' ≠ o → m.electionKeys.get? o' = some e' → e'.Consistent) :
    m.KeyOfShares k ↔ e.Consistent := by
  obtain ⟨vs, ws, hvalues, hrest⟩ := Ledger.exists_values_eq he
  have hvs : ∀ e' ∈ vs, e'.Consistent := fun e' he' => by
    obtain ⟨o', hne, ho'⟩ := hrest e' (List.mem_append_left ws he')
    exact hothers o' e' hne ho'
  have hws : ∀ e' ∈ ws, e'.Consistent := fun e' he' => by
    obtain ⟨o', hne, ho'⟩ := hrest e' (List.mem_append_right vs he')
    exact hothers o' e' hne ho'
  constructor
  · rintro ⟨hne, hkey⟩
    obtain ⟨c, cs, hcs⟩ := List.exists_cons_of_ne_nil (hne e (Ledger.mem_values.mpr ⟨o, he⟩))
    -- the two sums have all terms in common but those of this guardian
    have hfirst : m.firstCommitments =
        vs.map ElectionKey.key ++ c :: ws.map ElectionKey.key := by
      rw [firstCommitments, hvalues, List.filterMap_append, List.filterMap_cons, hcs,
        ElectionKey.filterMap_head?_commitments hvs, ElectionKey.filterMap_head?_commitments hws]
      rfl
    rw [key_of_jointKey? hk, hfirst, hvalues, List.map_append, List.map_cons, hS.sum_middle,
      hS.sum_middle, hS.add_right_cancel_iff] at hkey
    rw [ElectionKey.Consistent, hcs, hkey]
    rfl
  · intro hself
    refine keyOfShares_of_consistent hk fun e' he' => ?_
    rw [hvalues, List.mem_append, List.mem_cons] at he'
    rcases he' with h | rfl | h
    · exact hvs e' h
    · exact hself
    · exact hws e' h

/-- **When a joint key is that of the shares.**  It is if every announced key is the first of the
commitments that came with it, which the mediator does not check: a single key that is not makes it
another key. -/
theorem keyOfShares_of_announced_keys :
    ((∀ e ∈ m.electionKeys.values, e.Consistent) → m.KeyOfShares k) ∧
    (S.Lawful →
      (m.KeyOfShares k ↔ ∃ ps : List (Polynomial S),
        ps.map Polynomial.commitments = m.electionKeys.values.map ElectionKey.commitments ∧
          k.key = S.commit (ps.map Polynomial.secret).sum) ∧
      ∀ o e, m.electionKeys.get? o = some e →
        (∀ o' e', o' ≠ o → m.electionKeys.get? o' = some e' → e'.Consistent) →
        (m.KeyOfShares k ↔ e.Consistent)) :=
  ⟨keyOfShares_of_consistent hk, fun hS => ⟨keyOfShares_iff_exists hS,
    fun _ _ he hothers => keyOfShares_iff_consistent hk hS he hothers⟩⟩

end Published

/-- The joint key is that of the shares whenever everyone has announced consistent keys, as honest
guardians do. -/
theorem keyOfShares_of_consistent_announcements {id : String} {terms : Terms}
    {rs : List (Request S)} (hrs : ∀ a ∈ announcements rs, a.election.Consistent) {k : JointKey S}
    (hk : (rs.foldl apply (start id terms)).jointKey? = some k) :
    (rs.foldl apply (start id terms)).KeyOfShares k :=
  keyOfShares_of_consistent hk
    (forall_electionKeys_foldl_apply (fun _ he => absurd he List.not_mem_nil) hrs)

/-- Two guardians of whom the first announces the commitment to five as its key and shares of the
secret two. -/
def foreignPair (S : Suite) : Mediator S :=
  verifiedPair 1 (announcementOf S "a" 1 5 [2]) (announcementOf S "b" 2 3 [3])

theorem jointKey_of_foreign_key :
    Reachable (foreignPair Suite.standard) ∧ (foreignPair Suite.standard).terms.guardians ≠ 0 ∧
      ∃ k, (foreignPair Suite.standard).jointKey? = some k ∧
        ¬ (foreignPair Suite.standard).KeyOfShares k := by
  refine ⟨reachable_verifiedPair _ _ _, by decide, _, if_pos (by decide +kernel), fun h => ?_⟩
  exact absurd h.key_eq (by decide +kernel)

/-- Two guardians whose keys are commitments to their secrets two and three. -/
def consistentPair : Mediator Suite.exponents :=
  verifiedPair 1 (announcementOf _ "a" 1 2 [2]) (announcementOf _ "b" 2 3 [3])

/-- The joint key of the one pair is that of its shares, and belongs to the sum of the secrets; that
of the other is not, since the first guardian is alone in announcing another key. -/
theorem keyOfShares_of_consistentPair_not_foreignPair :
    (∃ k, consistentPair.jointKey? = some k ∧ consistentPair.KeyOfShares k ∧
      k.key = Suite.exponents.commit (5 : Fin Bls12.order) ∧
      ∃ ps : List (Polynomial Suite.exponents),
        ps.map Polynomial.commitments =
          consistentPair.electionKeys.values.map ElectionKey.commitments ∧
        k.key = Suite.exponents.commit (ps.map Polynomial.secret).sum) ∧
    ∃ k, (foreignPair Suite.exponents).jointKey? = some k ∧
      ¬ (foreignPair Suite.exponents).KeyOfShares k := by
  have hS := Suite.lawful_exponents
  constructor
  · have hk : consistentPair.jointKey? = some (JointKey.combine _) := if_pos (by decide +kernel)
    have hkeys : ∀ e ∈ consistentPair.electionKeys.values, e.Consistent := by decide +kernel
    obtain ⟨hconsistent, hlawful⟩ := keyOfShares_of_announced_keys hk
    have hshares := hconsistent hkeys
    exact ⟨_, hk, hshares, by decide +kernel, (hlawful hS).1.mp hshares⟩
  · have hk : (foreignPair Suite.exponents).jointKey? = some (JointKey.combine _) :=
      if_pos (by decide +kernel)
    have he : (foreignPair Suite.exponents).electionKeys.get? "a" =
        some (announcementOf Suite.exponents "a" 1 5 [2]).election := by decide +kernel
    have hothers : ∀ e ∈ (foreignPair Suite.exponents).electionKeys.entries,
        e.1 ≠ "a" → e.2.Consistent := by decide +kernel
    obtain ⟨-, hlawful⟩ := keyOfShares_of_announced_keys hk
    obtain ⟨-, halone⟩ := hlawful hS
    have hiff := halone _ _ he fun o e hne ho => hothers (o, e) (Ledger.get?_eq_some_iff.mp ho) hne
    exact ⟨_, hk, fun hshares => absurd (hiff.mp hshares) (by decide +kernel)⟩

end Mediator

end Guardianship
