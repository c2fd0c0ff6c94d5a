import Guardianship.Proofs.Ceremony.Invariant

/-!
# Every step keeps the invariant

A step changes one participant and, if it speaks, what the mediator holds.  The others are not
touched: whoever has read shares has seen all of them in, and whoever answers accusations has seen
all verdicts in, so nothing they rely on can still change (`Sound.replace`).  There is one lemma for
each thing that a participant may do; together they say that the invariant is kept (`Sound.act`).

The only step that the invariant alone does not carry is the answer to an accusation.  It needs that
the owner has dealt the share, and that the value which it discloses is accepted against what was
announced (`Sound.exists_disclosure`).
-/

namespace Guardianship

variable {S : Suite}

namespace Participant

variable {crew : List (Guardian S)} {m m' : Mediator S} {p p' : Participant S}

/-! ### What others do meanwhile -/

theorem Sound.frame (h : p.Sound crew m) (hs : p.task.ahead < 4 → m'.shares = m.shares) :
    p.Sound crew m' :=
  { h with read := fun ht => by rw [hs ht]; exact h.read ht }

theorem Answers.frame (h : p.Answers m)
    (hf : p.task.ahead < 2 → ∀ q, q.owner = p.guardian.id → (q ∈ m'.failed ↔ q ∈ m.failed)) :
    p.Answers m' := by
  refine ⟨h.nodup, fun ht q => (h.mem_pending ht q).trans ?_⟩
  exact and_congr_left fun ho => (hf ht q ho).symm

theorem Counted.frame (h : p.Counted m)
    (hd : (m'.disclosures.keys.countP fun q => q.owner = p.guardian.id) =
      m.disclosures.keys.countP fun q => q.owner = p.guardian.id) : p.Counted m' :=
  { h with disclosed := hd ▸ h.disclosed }

/-! ### Turning to another task -/

theorem Sound.retask (h : p.Sound crew m) (hg : p'.guardian = p.guardian)
    (hk : p'.conduct = p.conduct) (hw : ∀ e, p'.task ≠ .failed e)
    (h7 : p'.task.ahead < 7 ↔ p.task.ahead < 7) (h4 : p'.task.ahead < 4 ↔ p.task.ahead < 4) :
    p'.Sound crew m where
  mem_crew := hg ▸ h.mem_crew
  takesPart := hk ▸ h.takesPart
  working := hw
  unprepared ht := hg ▸ h.unprepared (by omega)
  prepared ht := hg ▸ h.prepared (h7.mp ht)
  unread ht := hg ▸ h.unread (by omega)
  read ht := hg ▸ h.read (h4.mp ht)

theorem ne_failed_of_pos (h : 0 < p.task.ahead) (e : Guardian.Error) : p.task ≠ .failed e := by
  intro he
  rw [he] at h
  exact absurd h (Nat.lt_irrefl 0)

theorem pending_of_le (ht : 2 ≤ p.task.ahead) : p.pending = [] := by
  unfold pending
  split
  · rename_i accusations htask
    rw [htask] at ht
    exact absurd ht (Nat.not_succ_le_self 1)
  · rfl

theorem answers_of_le (ht : 2 ≤ p.task.ahead) : p.Answers m :=
  ⟨pending_of_le ht ▸ List.nodup_nil, fun hlt => absurd hlt (by omega)⟩

/-- Only the numbers of shares are new. -/
theorem Counted.recount (h : p.Counted m) (hcore : p'.guardian.core = p.guardian.core)
    {a b c : UInt64}
    (ho : p'.outcome =
      { p.outcome with sharesSent := a, sharesReceived := b, sharesRefused := c })
    (ha : p'.task.ahead < 6 → a = p'.guardian.dealt.size.toUInt64)
    (hb : p'.task.ahead < 4 → b = p'.guardian.received.size.toUInt64)
    (hc : p'.task.ahead < 3 →
      c = (p'.guardian.verdicts.countP fun v => !v.good).toUInt64) : p'.Counted m := by
  obtain ⟨hid, horder, -⟩ := Guardian.fields_of_core hcore
  exact {
    guardian := by rw [ho, hid]; exact h.guardian
    order := by rw [ho, horder]; exact h.order
    sharesSent := fun ht => by rw [ho]; exact ha ht
    sharesReceived := fun ht => by rw [ho]; exact hb ht
    sharesRefused := fun ht => by rw [ho]; exact hc ht
    disclosed := by rw [ho, hid]; exact h.disclosed
    upheld := by rw [ho]; exact h.upheld }

theorem Counted.retask (h : p.Counted m) (hg : p'.guardian = p.guardian)
    (ho : p'.outcome = p.outcome) (h6 : p'.task.ahead < 6 ↔ p.task.ahead < 6)
    (h4 : p'.task.ahead < 4 ↔ p.task.ahead < 4) (h3 : p'.task.ahead < 3 ↔ p.task.ahead < 3) :
    p'.Counted m :=
  h.recount (by rw [hg]) ho (fun ht => hg ▸ h.sharesSent (h6.mp ht))
    (fun ht => hg ▸ h.sharesReceived (h4.mp ht)) fun ht => hg ▸ h.sharesRefused (h3.mp ht)

/-! ### Answering an accusation -/

theorem Answers.uphold (h : p.Answers m) (ht : p.task.ahead < 2) (hg : p'.guardian = p.guardian)
    {d : Disclosure S} (hpending : p.pending = d.pair :: p'.pending) :
    p'.Answers (m.uphold d) := by
  have hnodup := h.nodup
  rw [hpending, List.nodup_cons] at hnodup
  refine ⟨hnodup.2, fun _ q => ?_⟩
  rw [Mediator.mem_failed_uphold, hg, and_assoc, ← h.mem_pending ht q, hpending, List.mem_cons]
  constructor
  · exact fun hq => ⟨fun heq => hnodup.1 (heq ▸ hq), Or.inr hq⟩
  · exact fun hq => hq.2.resolve_left hq.1

theorem Counted.uphold (h : p.Counted m) (ht : p.task.ahead < 3) (hg : p'.guardian = p.guardian)
    (ho : p'.outcome = { p.outcome with
      disclosed := p.outcome.disclosed + 1
      upheld := p.outcome.upheld + 1 })
    {d : Disclosure S} (hnew : d.pair ∉ m.disclosures.keys)
    (howner : d.pair.owner = p.guardian.id) : p'.Counted (m.uphold d) where
  guardian := by rw [ho, hg]; exact h.guardian
  order := by rw [ho, hg]; exact h.order
  sharesSent _ := by rw [ho, hg]; exact h.sharesSent (by omega)
  sharesReceived _ := by rw [ho, hg]; exact h.sharesReceived (by omega)
  sharesRefused _ := by rw [ho, hg]; exact h.sharesRefused ht
  disclosed := by
    rw [ho, hg, Mediator.countP_disclosures_uphold hnew, if_pos howner, h.disclosed]
    exact (UInt64.ofNat_add _ _).symm
  upheld := by rw [ho, h.upheld]

end Participant

namespace Ceremony

open Participant

variable {crew : List (Guardian S)} {m m' : Mediator S} {p p' : Participant S}
  {others : List (Participant S)}

theorem InStep.replace {n : ℕ} (h : InStep n (p :: others))
    (hle : p'.task.ahead ≤ p.task.ahead)
    (hcross : p'.task.ahead < n → n ≤ p.task.ahead → ∀ q ∈ others, q.task.ahead < n + 1) :
    InStep n (p' :: others) := by
  have hothers : ∀ q ∈ others, q.task.ahead < n → p'.task.ahead < n + 1 := fun q hq hlt => by
    have := h q (List.mem_cons_of_mem _ hq) hlt p List.mem_cons_self
    omega
  intro q hq hlt r hr
  rcases List.mem_cons.mp hq with rfl | hqo
  · rcases List.mem_cons.mp hr with rfl | hro
    · omega
    · by_cases hp : p.task.ahead < n
      · exact h p List.mem_cons_self hp r (List.mem_cons_of_mem _ hro)
      · exact hcross hlt (Nat.not_lt.mp hp) r hro
  · rcases List.mem_cons.mp hr with rfl | hro
    · exact hothers q hqo hlt
    · exact h q (List.mem_cons_of_mem _ hqo) hlt r (List.mem_cons_of_mem _ hro)

/-! ### What was told -/

theorem ToldKeys.replace (h : ToldKeys m (p :: others))
    (hcore : p'.guardian.core = p.guardian.core)
    (h8 : p'.task.ahead < 8 ↔ p.task.ahead < 8) : ToldKeys m (p' :: others) := by
  have hid := (Guardian.fields_of_core hcore).1
  have hann := Guardian.announcement_of_core hcore
  obtain ⟨electionKeys, transportKeys⟩ := h
  simp only [List.exists_mem_cons_iff] at electionKeys transportKeys
  constructor
  · simpa only [List.exists_mem_cons_iff, h8, hid, hann] using electionKeys
  · simpa only [List.exists_mem_cons_iff, h8, hid, hann] using transportKeys

theorem ToldShares.replace (h : ToldShares m (p :: others)) (hs : p'.sentShares = p.sentShares) :
    ToldShares m (p' :: others) := by
  obtain ⟨shares⟩ := h
  simp only [List.exists_mem_cons_iff] at shares
  constructor
  simpa only [List.exists_mem_cons_iff, hs] using shares

theorem ToldVerdicts.replace (h : ToldVerdicts m (p :: others))
    (hv : p'.sentVerdicts = p.sentVerdicts) : ToldVerdicts m (p' :: others) := by
  obtain ⟨verdicts, standing, upheld, disclosed⟩ := h
  simp only [List.exists_mem_cons_iff] at verdicts standing disclosed
  refine ⟨?_, ?_, upheld, ?_⟩
  · simpa only [List.exists_mem_cons_iff, hv] using verdicts
  · simpa only [List.exists_mem_cons_iff, hv] using standing
  · simpa only [List.exists_mem_cons_iff, hv] using disclosed

/-- One key more for one participant more that has announced. -/
theorem get?_insert_iff {ν : Type} {l : Ledger String ν} {f : Participant S → ν}
    (hne : ∀ q ∈ others, q.guardian.id ≠ p.guardian.id) (h8 : 8 ≤ p.task.ahead)
    (h7 : p'.task.ahead < 8) (hid : p'.guardian.id = p.guardian.id) (hf : f p' = f p)
    (hl : ∀ id k, l.get? id = some k ↔
      ∃ q ∈ p :: others, q.task.ahead < 8 ∧ q.guardian.id = id ∧ f q = k) (id : String) (k : ν) :
    (l.insert p.guardian.id (f p)).get? id = some k ↔
      ∃ q ∈ p' :: others, q.task.ahead < 8 ∧ q.guardian.id = id ∧ f q = k := by
  have hnot : ¬ (p.task.ahead < 8 ∧ p.guardian.id = id ∧ f p = k) := fun h => by omega
  rw [Ledger.get?_insert, List.exists_mem_cons_iff, hid, hf, and_iff_right h7]
  by_cases heq : p.guardian.id = id
  · subst heq
    rw [if_pos rfl, and_iff_right rfl, Option.some.injEq]
    refine (or_iff_left ?_).symm
    rintro ⟨q, hq, -, hqid, -⟩
    exact hne q hq hqid
  · rw [if_neg heq, hl, List.exists_mem_cons_iff, or_iff_right hnot]
    exact (or_iff_right fun h => heq h.1).symm

theorem ToldKeys.announce (h : ToldKeys m (p :: others))
    (hne : ∀ q ∈ others, q.guardian.id ≠ p.guardian.id)
    (hcore : p'.guardian.core = p.guardian.core) (h8 : 8 ≤ p.task.ahead)
    (h7 : p'.task.ahead < 8) : ToldKeys (m.announce p.guardian.announcement) (p' :: others) := by
  have hid := (Guardian.fields_of_core hcore).1
  have hann := Guardian.announcement_of_core hcore
  exact ⟨
    get?_insert_iff (f := fun q => q.guardian.announcement.election) hne h8 h7 hid
      (congrArg Announcement.election hann) h.electionKeys,
    get?_insert_iff (f := fun q => q.guardian.announcement.transport) hne h8 h7 hid
      (congrArg Announcement.transport hann) h.transportKeys⟩

theorem ToldShares.send (h : ToldShares m (p :: others)) (hs : p.sentShares = [])
    (hfresh : (m.shares.keys ++ p'.sentShares.map SealedShare.pair).Nodup) :
    ToldShares { m with shares := m.shares.insertAll SealedShare.pair p'.sentShares }
      (p' :: others) := by
  refine ⟨fun q s => ?_⟩
  rw [Ledger.get?_insertAll hfresh, h.shares, List.exists_mem_cons_iff, List.exists_mem_cons_iff,
    hs, or_iff_right List.not_mem_nil, and_or_left, or_comm, and_comm (a := s ∈ p'.sentShares)]

theorem ToldVerdicts.send (h : ToldVerdicts m (p :: others)) (hv : p.sentVerdicts = [])
    (hfresh : (m.verdicts.keys ++ p'.sentVerdicts.map Verdict.pair).Nodup) :
    ToldVerdicts { m with verdicts := m.verdicts.insertAll Verdict.pair p'.sentVerdicts }
      (p' :: others) := by
  obtain ⟨verdicts, standing, upheld, disclosed⟩ := h
  simp only [List.exists_mem_cons_iff, hv, List.not_mem_nil, false_and, exists_false,
    false_or] at verdicts standing disclosed
  refine ⟨fun q => ?_, fun q v hget hq => ?_, fun q hq => ?_, fun q hq => ?_⟩
  · rw [Ledger.mem_keys_insertAll, verdicts, List.exists_mem_cons_iff, List.mem_map,
      or_comm]
  · rw [List.exists_mem_cons_iff]
    rcases (Ledger.get?_insertAll hfresh).mp hget with hold | ⟨hnew, -⟩
    · exact Or.inr (standing q v hold hq)
    · exact Or.inl hnew
  · exact (Ledger.get?_insertAll hfresh).mpr (Or.inl (upheld q hq))
  · rw [List.exists_mem_cons_iff]
    exact Or.inr (disclosed q hq)

/-- A bad verdict is not one that stands in place of another. -/
theorem ToldVerdicts.notMem_of_failed {ps : List (Participant S)} (h : ToldVerdicts m ps)
    {q : Pair} (hq : q ∈ m.failed) : q ∉ m.disclosures.keys := fun hmem => by
  obtain ⟨v, hget, hbad⟩ := Mediator.mem_failed.mp hq
  rw [h.upheld _ hmem] at hget
  cases hget
  cases hbad

/-- A good verdict in place of a bad one that was sent. -/
theorem ToldVerdicts.disclose {ps : List (Participant S)} (h : ToldVerdicts m ps) (hm : m.Filed)
    {d : Disclosure S} (hd : d.pair ∈ m.failed) : ToldVerdicts (m.uphold d) ps := by
  obtain ⟨v, hget, hbad⟩ := Mediator.mem_failed.mp hd
  have hnew := h.notMem_of_failed hd
  refine ⟨fun q => ?_, fun q w hw hq => ?_, fun q hq => ?_, fun q hq => ?_⟩
  · rw [Mediator.verdicts_uphold, Ledger.mem_keys_insert, h.verdicts, or_iff_right_iff_imp]
    rintro rfl
    exact (h.verdicts _).mp (Ledger.mem_keys_of_get? hget)
  · rw [Mediator.disclosures_uphold, Ledger.mem_keys_insert, not_or] at hq
    rw [Mediator.verdicts_uphold, Ledger.get?_insert_of_ne _ _ (Ne.symm hq.1)] at hw
    exact h.standing q w hw hq.2
  · by_cases heq : d.pair = q
    · subst heq
      exact Ledger.get?_insert_self _ _ _
    · rw [Mediator.verdicts_uphold, Ledger.get?_insert_of_ne _ _ heq]
      exact h.upheld q ((Ledger.mem_keys_insert.mp hq).resolve_left (Ne.symm heq))
  · rcases Ledger.mem_keys_insert.mp hq with rfl | hq
    · obtain ⟨p, hp, hv⟩ := h.standing _ v hget hnew
      exact ⟨p, hp, v, hv, (hm.verdicts _ v hget).1, hbad⟩
    · exact h.disclosed q hq

/-! ### What is left to show of a step -/

/-- What is left to show when one participant takes a step: how it comes past a gate, what it has
told, what it holds itself, and that the others do not notice. -/
theorem Sound.replace (h : Sound crew m (p :: others)) (filed : m'.Filed)
    (terms : m'.terms = m.terms) (hcore : p'.guardian.core = p.guardian.core)
    (hle : p'.task.ahead ≤ p.task.ahead)
    (h7 : p'.task.ahead < 7 → 7 ≤ p.task.ahead → ∀ q ∈ others, q.task.ahead < 8)
    (h5 : p'.task.ahead < 5 → 5 ≤ p.task.ahead → ∀ q ∈ others, q.task.ahead < 6)
    (h2 : p'.task.ahead < 2 → 2 ≤ p.task.ahead → ∀ q ∈ others, q.task.ahead < 3)
    (told : Told m' (p' :: others)) (sound : p'.Sound crew m') (answers : p'.Answers m')
    (counted : p'.Counted m')
    (shares : ∀ q ∈ others, q.task.ahead < 4 → m'.shares = m.shares)
    (failed : ∀ q ∈ others, q.task.ahead < 2 →
      ∀ x : Pair, x.owner = q.guardian.id → (x ∈ m'.failed ↔ x ∈ m.failed))
    (disclosures : ∀ q ∈ others, (m'.disclosures.keys.countP fun x => x.owner = q.guardian.id) =
      m.disclosures.keys.countP fun x => x.owner = q.guardian.id) :
    Sound crew m' (p' :: others) := by
  have hexpected : m'.expected = m.expected := congrArg (·.guardians.toNat) terms
  exact {
    filed := filed
    perm_crew := by
      have hperm := h.perm_crew
      rw [List.map_cons] at hperm ⊢
      rwa [hcore]
    nodup_crew := h.nodup_crew
    length_crew := hexpected ▸ h.length_crew
    few := hexpected ▸ h.few
    roster := h.roster.replace hle h7
    shares := h.shares.replace hle h5
    verdicts := h.verdicts.replace hle h2
    told := told
    each := List.forall_mem_cons.mpr ⟨sound, fun q hq =>
      (h.each q (List.mem_cons_of_mem _ hq)).frame (shares q hq)⟩
    answers := List.forall_mem_cons.mpr ⟨answers, fun q hq =>
      (h.answers q (List.mem_cons_of_mem _ hq)).frame (failed q hq)⟩
    counted := List.forall_mem_cons.mpr ⟨counted, fun q hq =>
      (h.counted q (List.mem_cons_of_mem _ hq)).frame (disclosures q hq)⟩ }

/-- What is left to show when a participant tells the mediator nothing. -/
theorem Sound.quiet (h : Sound crew m (p :: others))
    (hcore : p'.guardian.core = p.guardian.core) (hle : p'.task.ahead ≤ p.task.ahead)
    (h8 : p'.task.ahead < 8 ↔ p.task.ahead < 8)
    (h7 : p'.task.ahead < 7 → 7 ≤ p.task.ahead → ∀ q ∈ others, q.task.ahead < 8)
    (h5 : p'.task.ahead < 5 → 5 ≤ p.task.ahead → ∀ q ∈ others, q.task.ahead < 6)
    (h2 : p'.task.ahead < 2 → 2 ≤ p.task.ahead → ∀ q ∈ others, q.task.ahead < 3)
    (hs : p'.sentShares = p.sentShares) (hv : p'.sentVerdicts = p.sentVerdicts)
    (sound : p'.Sound crew m) (answers : p'.Answers m) (counted : p'.Counted m) :
    Sound crew m (p' :: others) :=
  h.replace h.filed rfl hcore hle h7 h5 h2
    ⟨h.told.toToldKeys.replace hcore h8, h.told.toToldShares.replace hs,
      h.told.toToldVerdicts.replace hv⟩
    sound answers counted
    (fun _ _ _ => rfl) (fun _ _ _ _ _ => Iff.rfl) fun _ _ => rfl

/-! ### Learning and dealing -/

namespace Sound

theorem ne_of_mem (h : Sound crew m (p :: others)) :
    ∀ q ∈ others, q.guardian.id ≠ p.guardian.id := by
  intro q hq heq
  have hnodup := h.nodup_ids
  rw [List.map_cons, List.nodup_cons] at hnodup
  exact hnodup.1 (heq ▸ List.mem_map_of_mem hq)

theorem ahead_of_roster {ps : List (Participant S)} (h : Sound crew m ps) {id : String}
    {roster : List (Announcement S)} (hr : m.roster (some id) = some roster) :
    ∀ q ∈ ps, q.task.ahead < 8 := by
  refine h.ahead_of_allAnnounced ?_
  by_contra ha
  rw [Mediator.roster, if_neg ha] at hr
  cases hr

/-- The roster that a guardian is given has everyone else on it. -/
theorem mem_roster {ps : List (Participant S)} (h : Sound crew m ps) {id : String}
    {roster : List (Announcement S)} (hr : m.roster (some id) = some roster)
    {a : Announcement S} :
    a ∈ roster ↔ ∃ q ∈ ps, q.guardian.id ≠ id ∧ q.guardian.announcement = a := by
  rw [Mediator.mem_roster hr]
  simp only [h.told.electionKeys, h.told.transportKeys]
  constructor
  · rintro ⟨owner, hne, ⟨q, hq, -, rfl, helection⟩, q', hq', -, hid, htransport⟩
    obtain rfl := h.eq_of_id hq' hq hid
    obtain ⟨election, transport⟩ := a
    cases helection
    cases htransport
    exact ⟨q', hq, hne, rfl⟩
  · rintro ⟨q, hq, hne, rfl⟩
    have ht := h.ahead_of_roster hr q hq
    exact ⟨q.guardian.id, hne, ⟨q, hq, ht, rfl, rfl⟩, q, hq, ht, rfl, rfl⟩

/-- A guardian that has been given the roster knows everyone. -/
theorem get?_known (h : Sound crew m (p :: others)) (ht : p.task = .awaitRoster)
    {roster : List (Announcement S)} (hr : m.roster (some p.guardian.id) = some roster)
    {id : String} {a : Announcement S} :
    (roster.foldl Guardian.learn p.guardian).known.get? id = some a ↔
      ∃ q ∈ p :: others, q.guardian.id = id ∧ q.guardian.announcement = a := by
  have hp := h.each p List.mem_cons_self
  have hentries := hp.unprepared (by rw [ht]; exact le_rfl)
  have hnodup : (p.guardian.known.keys ++ roster.map Announcement.owner).Nodup := by
    rw [Ledger.keys, hentries, List.map_singleton, List.singleton_append, List.nodup_cons]
    refine ⟨fun hmem => ?_, Mediator.nodup_roster h.filed hr⟩
    obtain ⟨b, hb, howner⟩ := List.mem_map.mp hmem
    obtain ⟨q, -, hne, rfl⟩ := (h.mem_roster hr).mp hb
    exact hne howner
  rw [Guardian.foldl_learn, Ledger.get?_insertAll hnodup, Ledger.get?_eq_some_iff, hentries,
    h.mem_roster hr, List.mem_singleton, Prod.mk.injEq]
  constructor
  · rintro (⟨rfl, rfl⟩ | ⟨⟨q, hq, -, rfl⟩, rfl⟩)
    · exact ⟨p, List.mem_cons_self, rfl, rfl⟩
    · exact ⟨q, hq, rfl, rfl⟩
  · rintro ⟨q, hq, rfl, rfl⟩
    by_cases hid : q.guardian.id = p.guardian.id
    · obtain rfl := h.eq_of_id hq List.mem_cons_self hid
      exact Or.inl ⟨rfl, rfl⟩
    · exact Or.inr ⟨⟨q, hq, hid, rfl⟩, rfl⟩

/-- Dealing succeeds, and leaves the guardian prepared for the second round. -/
theorem exists_prepared (h : Sound crew m (p :: others)) (ht : p.task = .awaitRoster)
    {roster : List (Announcement S)} (hr : m.roster (some p.guardian.id) = some roster)
    {ρ : Type} [RandomSource ρ] (r : ρ) :
    ∃ g, ((roster.foldl Guardian.learn p.guardian).deal r).1 = .ok g ∧ g.Prepared crew ∧
      g.received = p.guardian.received := by
  obtain ⟨dealt, hdeal, hkeys, hget⟩ :=
    (roster.foldl Guardian.learn p.guardian).exists_deal r fun id a ha _ => by
      obtain ⟨q, -, rfl, rfl⟩ := (h.get?_known ht hr).mp ha
      rfl
  refine ⟨_, hdeal, ⟨fun g hg => ?_, fun id => ?_, fun g hg s hs => ?_⟩, ?_⟩
  · obtain ⟨q, hq, rfl⟩ := h.mem_crew.mp hg
    exact (h.get?_known ht hr).mpr ⟨q, hq, rfl, rfl⟩
  · rw [hkeys, Ledger.mem_keys]
    refine and_congr_right fun _ => ?_
    simp only [h.get?_known ht hr, h.mem_crew]
    constructor
    · rintro ⟨a, q, hq, rfl, -⟩
      exact ⟨_, ⟨q, hq, rfl⟩, rfl⟩
    · rintro ⟨g, ⟨q, hq, rfl⟩, rfl⟩
      exact ⟨_, q, hq, rfl, rfl⟩
  · obtain ⟨a, ha, hdeals⟩ := hget g.id s hs
    obtain ⟨q, hq, hqid, rfl⟩ := (h.get?_known ht hr).mp ha
    obtain ⟨q', hq', rfl⟩ := h.mem_crew.mp hg
    obtain rfl := h.eq_of_id hq hq' hqid
    exact hdeals
  · rw [Guardian.foldl_learn]

/-! ### Steps that tell the mediator nothing -/

theorem prepare (h : Sound crew m (p :: others)) (ht : p.task = .awaitRoster)
    {roster : List (Announcement S)} (hr : m.roster (some p.guardian.id) = some roster)
    {ρ : Type} [RandomSource ρ] {r : ρ} {g : Guardian S}
    (hg : ((roster.foldl Guardian.learn p.guardian).deal r).1 = .ok g)
    (hp' : p' = { p with guardian := g, task := .sendShares }) :
    Sound crew m (p' :: others) := by
  have hp := h.each p List.mem_cons_self
  have h7 : p.task.ahead = 7 := by rw [ht]; rfl
  have h6 : p'.task.ahead = 6 := by rw [hp']; rfl
  have hcore : p'.guardian.core = p.guardian.core := by
    rw [hp', ← (Acts.prepare ht hr hg).core]
  obtain ⟨g', hg', hprepared, hreceived⟩ := h.exists_prepared ht hr r
  obtain rfl : p'.guardian = g' := by
    rw [hp']
    exact Except.ok.inj (hg.symm.trans hg')
  refine h.quiet hcore (by omega) (by omega)
    (fun _ _ q hq => h.ahead_of_roster hr q (List.mem_cons_of_mem _ hq)) (by omega) (by omega)
    ((sentShares_of_le (by omega)).trans (sentShares_of_le (by omega)).symm)
    ((sentVerdicts_of_le (by omega)).trans (sentVerdicts_of_le (by omega)).symm)
    ?_ (answers_of_le (by omega)) ?_
  · exact {
      mem_crew := hcore ▸ hp.mem_crew
      takesPart := by rw [hp']; exact hp.takesPart
      working := ne_failed_of_pos (by omega)
      unprepared := by omega
      prepared := fun _ => hprepared
      unread := fun _ => hreceived ▸ hp.unread (by omega)
      read := by omega }
  · have houtcome : p'.outcome = p.outcome := by rw [hp']
    exact (h.counted p List.mem_cons_self).recount hcore houtcome (by omega) (by omega) (by omega)

theorem awaitShares (h : Sound crew m (p :: others)) (ht : p.task = .awaitShares)
    (hm : m.allSharesIn = true) (hp' : p' = p.turnTo .collectShares) :
    Sound crew m (p' :: others) := by
  have h5 : p.task.ahead = 5 := by rw [ht]; rfl
  have h4 : p'.task.ahead = 4 := by rw [hp']; rfl
  have hg : p'.guardian = p.guardian := by rw [hp']; rfl
  have hk : p'.conduct = p.conduct := by rw [hp']; rfl
  refine h.quiet (by rw [hg]) (by omega) (by omega) (by omega) (fun _ _ q hq => ?_) (by omega)
    (sentShares_congr (by rw [hg]) hk (by omega)) (sentVerdicts_congr hg hk (by omega))
    ((h.each p List.mem_cons_self).retask hg hk (ne_failed_of_pos (by omega)) (by omega) (by omega))
    (answers_of_le (by omega))
    ((h.counted p List.mem_cons_self).retask hg (by rw [hp']; rfl) (by omega) (by omega)
      (by omega))
  exact h.ahead_of_allSharesIn hm (List.mem_cons_of_mem _ hq) List.mem_cons_self
    (h.ne_of_mem q hq)

/-- A guardian that reads its shares has those that the mediator holds for it, and no others. -/
theorem exists_received (h : Sound crew m (p :: others)) (ht : p.task = .collectShares) :
    ∃ ss received, m.sharesFor (some p.guardian.id) = some ss ∧
      ss.foldl Guardian.accept p.guardian = { p.guardian with received } ∧
      received.size = ss.length ∧
      ∀ id s, received.get? id = some s ↔ m.shares.get? ⟨id, p.guardian.id⟩ = some s := by
  have h4 : p.task.ahead = 4 := by rw [ht]; rfl
  have hunread := (h.each p List.mem_cons_self).unread (by omega)
  obtain ⟨ss, hss⟩ : ∃ ss, m.sharesFor (some p.guardian.id) = some ss :=
    ⟨_, if_pos (h.allAnnounced_of_ahead (h.roster p List.mem_cons_self (by omega)))⟩
  have hnodup : (p.guardian.received.keys ++ ss.map SealedShare.owner).Nodup := by
    rw [hunread, List.nil_append]
    exact Mediator.nodup_sharesFor h.filed hss
  refine ⟨ss, p.guardian.received.insertAll SealedShare.owner ss, hss,
    Guardian.foldl_accept ss _ fun s hs => ((Mediator.mem_sharesFor h.filed hss).mp hs).1,
    ?_, fun id s => ?_⟩
  · rw [Ledger.size_insertAll hnodup, ← Ledger.length_keys, hunread, List.length_nil, Nat.zero_add]
  · have hnone : p.guardian.received.get? id ≠ some s := fun hs => by
      have hmem := Ledger.mem_keys_of_get? hs
      rw [hunread] at hmem
      cases hmem
    rw [Ledger.get?_insertAll hnodup, or_iff_right hnone, Mediator.mem_sharesFor h.filed hss]
    constructor
    · rintro ⟨⟨-, hs⟩, rfl⟩
      exact hs
    · intro hs
      have hpair := (h.filed.shares _ _ hs).1
      obtain rfl : s.owner = id := congrArg Pair.owner hpair
      exact ⟨⟨congrArg Pair.recipient hpair, hs⟩, rfl⟩

theorem collectShares (h : Sound crew m (p :: others)) (ht : p.task = .collectShares)
    (hp' : p' = (p.collectShares ((m.sharesFor (some p.guardian.id)).getD [])).participant) :
    Sound crew m (p' :: others) := by
  have hp := h.each p List.mem_cons_self
  have hcounted := h.counted p List.mem_cons_self
  have h4 : p.task.ahead = 4 := by rw [ht]; rfl
  have h3 : p'.task.ahead = 3 := by rw [hp']; rfl
  obtain ⟨ss, received, hss, haccept, hsize, hread⟩ := h.exists_received ht
  rw [hss, Option.getD_some] at hp'
  have hg : p'.guardian = { p.guardian with received } := by
    rw [hp', ← haccept]
    rfl
  have hk : p'.conduct = p.conduct := by rw [hp']; rfl
  refine h.quiet (by rw [hg]; rfl) (by omega) (by omega) (by omega) (by omega) (by omega)
    (sentShares_congr (by rw [hg]) hk (by omega))
    ((sentVerdicts_of_le (by omega)).trans (sentVerdicts_of_le (by omega)).symm)
    ?_ (answers_of_le (by omega)) ?_
  · have hprepared := hp.prepared (by omega)
    exact {
      mem_crew := by rw [hg]; exact hp.mem_crew
      takesPart := hk ▸ hp.takesPart
      working := ne_failed_of_pos (by omega)
      unprepared := by omega
      prepared := fun _ => by
        rw [hg]
        exact ⟨hprepared.known, hprepared.mem_dealt, hprepared.deals⟩
      unread := by omega
      read := fun _ => by
        rw [hg]
        exact hread }
  · have houtcome : p'.outcome = { p.outcome with sharesReceived := ss.length.toUInt64 } := by
      rw [hp']
      rfl
    refine hcounted.recount (by rw [hg]; rfl) houtcome (fun _ => ?_) (fun _ => ?_) (by omega)
    · rw [hg]
      exact hcounted.sharesSent (by omega)
    · rw [hg, hsize]

theorem awaitVerdicts (h : Sound crew m (p :: others)) (ht : p.task = .awaitVerdicts)
    (hm : m.summary.allSent = true) (hp' : p' = p.turnTo (.answer (p.accusations m))) :
    Sound crew m (p' :: others) := by
  have h2 : p.task.ahead = 2 := by rw [ht]; rfl
  have h1 : p'.task.ahead = 1 := by rw [hp']; rfl
  have hg : p'.guardian = p.guardian := by rw [hp']; rfl
  have hk : p'.conduct = p.conduct := by rw [hp']; rfl
  have hall : m.allVerdictsIn = true := Mediator.allSent_iff.mp hm
  refine h.quiet (by rw [hg]) (by omega) (by omega) (by omega) (by omega) (fun _ _ q hq => ?_)
    (sentShares_congr (by rw [hg]) hk (by omega)) (sentVerdicts_congr hg hk (by omega))
    ((h.each p List.mem_cons_self).retask hg hk (ne_failed_of_pos (by omega)) (by omega)
      (by omega)) ?_
    ((h.counted p List.mem_cons_self).retask hg (by rw [hp']; rfl) (by omega) (by omega)
      (by omega))
  · exact h.ahead_of_allVerdictsIn hall List.mem_cons_self (List.mem_cons_of_mem _ hq)
      (h.ne_of_mem q hq).symm
  · have hfailed : m.summary.failed = m.failed := by rw [Mediator.summary_failed, if_pos hall]
    have hpending : p'.pending = m.failed.filter fun q => q.owner = p.guardian.id := by
      rw [hp', ← hfailed]
      rfl
    refine ⟨?_, fun _ q => ?_⟩
    · rw [hpending]
      exact m.nodup_failed.filter _
    · rw [hpending, List.mem_filter, hg, decide_eq_true_eq]

theorem finish (h : Sound crew m (p :: others)) (ht : p.task = .answer [])
    (hp' : p' = p.turnTo .finished) : Sound crew m (p' :: others) := by
  have h1 : p.task.ahead = 1 := by rw [ht]; rfl
  have h0 : p'.task.ahead = 0 := by rw [hp']; rfl
  have hg : p'.guardian = p.guardian := by rw [hp']; rfl
  have hk : p'.conduct = p.conduct := by rw [hp']; rfl
  have hpending : p'.pending = p.pending := by
    rw [hp', pending, pending, ht]
    rfl
  have hworking : ∀ e, p'.task ≠ .failed e := by
    rw [hp']
    exact fun _ => Task.noConfusion
  have hanswers := h.answers p List.mem_cons_self
  refine h.quiet (by rw [hg]) (by omega) (by omega) (by omega) (by omega) (by omega)
    (sentShares_congr (by rw [hg]) hk (by omega)) (sentVerdicts_congr hg hk (by omega))
    ((h.each p List.mem_cons_self).retask hg hk hworking (by omega) (by omega))
    ⟨hpending ▸ hanswers.nodup, fun _ q => ?_⟩
    ((h.counted p List.mem_cons_self).retask hg (by rw [hp']; rfl) (by omega) (by omega)
      (by omega))
  rw [hpending, hg]
  exact hanswers.mem_pending (by omega) q

/-! ### Steps that tell the mediator something -/

theorem announce (h : Sound crew m (p :: others)) (ht : p.task = .announce)
    (hp' : p' = p.turnTo .awaitRoster) :
    Sound crew (m.announce p.guardian.announcement) (p' :: others) := by
  have h8 : p.task.ahead = 8 := by rw [ht]; rfl
  have h7 : p'.task.ahead = 7 := by rw [hp']; rfl
  have hg : p'.guardian = p.guardian := by rw [hp']; rfl
  have hk : p'.conduct = p.conduct := by rw [hp']; rfl
  have hcore : p'.guardian.core = p.guardian.core := by rw [hg]
  have hs : p'.sentShares = p.sentShares := sentShares_congr (by rw [hg]) hk (by omega)
  have hshares := h.told.toToldShares.replace hs
  have hv : p'.sentVerdicts = p.sentVerdicts := sentVerdicts_congr hg hk (by omega)
  have hverdicts := h.told.toToldVerdicts.replace hv
  exact h.replace (h.filed.announce _) rfl hcore (by omega) (by omega) (by omega) (by omega)
    ⟨h.told.toToldKeys.announce h.ne_of_mem hcore (by omega) (by omega), ⟨hshares.shares⟩,
      ⟨hverdicts.verdicts, hverdicts.standing, hverdicts.upheld, hverdicts.disclosed⟩⟩
    (((h.each p List.mem_cons_self).retask hg hk (ne_failed_of_pos (by omega)) (by omega)
      (by omega)).frame fun _ => rfl)
    (answers_of_le (by omega))
    (((h.counted p List.mem_cons_self).retask hg (by rw [hp']; rfl) (by omega) (by omega)
      (by omega)).frame rfl)
    (fun _ _ _ => rfl) (fun _ _ _ _ _ => Iff.rfl) fun _ _ => rfl

/-- No share that is sent is dropped. -/
theorem takes_shares {ps : List (Participant S)} (h : Sound crew m ps) (hp : p ∈ ps)
    (ht : p.task = .sendShares) :
    m.Takes (.shares (p.guardian.dealt.values.map p.conduct.alter)) := by
  have hsound := h.each p hp
  have h6 : p.task.ahead = 6 := by rw [ht]; rfl
  have hall : ∀ q ∈ ps, q.task.ahead < 8 := h.roster p hp (by omega)
  have hannounced : ∀ q ∈ ps, q.guardian.id ∈ m.electionKeys.keys := fun q hq =>
    Mediator.mem_announcers.mp (h.mem_announcers.mpr ⟨q, hq, hall q hq, rfl⟩)
  refine ⟨h.allAnnounced_of_ahead hall, fun t hsent => ?_⟩
  obtain ⟨s, hs, rfl⟩ := List.mem_map.mp hsent
  obtain ⟨id, hid⟩ := Ledger.mem_values.mp hs
  obtain ⟨hne, g, hg, rfl⟩ :=
    ((hsound.prepared (by omega)).mem_dealt id).mp (Ledger.mem_keys_of_get? hid)
  obtain ⟨q, hq, rfl⟩ := h.mem_crew.mp hg
  rw [hsound.takesPart.alter, (hsound.prepared (by omega)).pair_of_dealt hid]
  exact Mediator.admits_iff.mpr ⟨hne.symm, hannounced p hp, hannounced q hq⟩

theorem sendShares (h : Sound crew m (p :: others)) (ht : p.task = .sendShares)
    (hp' : p' = p.sendShares.participant) :
    Sound crew (m.receiveShares (p.guardian.dealt.values.map p.conduct.alter))
      (p' :: others) := by
  have h6 : p.task.ahead = 6 := by rw [ht]; rfl
  have h5 : p'.task.ahead = 5 := by rw [hp']; rfl
  have hg : p'.guardian = p.guardian := by rw [hp']; rfl
  have hk : p'.conduct = p.conduct := by rw [hp']; rfl
  have hcore : p'.guardian.core = p.guardian.core := by rw [hg]
  have hsent : p'.sentShares = p.guardian.dealt.values.map p.conduct.alter := by
    rw [sentShares, if_pos (by omega), hg, hk]
  have hsound : p'.Sound crew m := (h.each p List.mem_cons_self).retask hg hk
    (ne_failed_of_pos (by omega)) (by omega) (by omega)
  have htakes := h.takes_shares List.mem_cons_self ht
  have hfiled := h.filed.receiveShares (p.guardian.dealt.values.map p.conduct.alter)
  -- nobody else sends shares of this owner, and the owner has not sent any before
  have hfresh : (m.shares.keys ++ p'.sentShares.map SealedShare.pair).Nodup := by
    refine List.nodup_append.mpr ⟨m.shares.nodup_keys, hsound.nodup_sentShares, ?_⟩
    rintro q hq _ hs rfl
    obtain ⟨-, ⟨o, ho, hid, hlt⟩, -⟩ := h.mem_keys_shares.mp hq
    obtain ⟨-, howner, -⟩ := hsound.exists_sentShare_iff.mp (List.mem_map.mp hs)
    obtain rfl := h.eq_of_id ho List.mem_cons_self (by rw [hid, howner, hg])
    omega
  rw [Mediator.receiveShares_eq htakes, ← hsent] at hfiled ⊢
  have hkeys := h.told.toToldKeys.replace hcore (by omega)
  have hv : p'.sentVerdicts = p.sentVerdicts := sentVerdicts_congr hg hk (by omega)
  have hverdicts := h.told.toToldVerdicts.replace hv
  refine h.replace hfiled rfl hcore (by omega) (by omega) (by omega) (by omega)
    ⟨⟨hkeys.electionKeys, hkeys.transportKeys⟩,
      h.told.toToldShares.send (sentShares_of_le (by omega)) hfresh,
      ⟨hverdicts.verdicts, hverdicts.standing, hverdicts.upheld, hverdicts.disclosed⟩⟩
    (hsound.frame (by omega)) (answers_of_le (by omega)) ?_ (fun q hq hlt => ?_)
    (fun _ _ _ _ _ => Iff.rfl) (fun _ _ => rfl)
  · have houtcome : p'.outcome =
        { p.outcome with sharesSent := p.guardian.dealt.values.length.toUInt64 } := by
      rw [hp']
      rfl
    refine ((h.counted p List.mem_cons_self).recount hcore houtcome (fun _ => ?_) (by omega)
      (by omega)).frame rfl
    rw [hg, Ledger.length_values]
  · -- whoever has read shares has seen all of them in
    have := h.shares q (List.mem_cons_of_mem _ hq) (by omega) p List.mem_cons_self
    omega

/-- No verdict that is sent is dropped. -/
theorem takes_verdicts {ps : List (Participant S)} (h : Sound crew m ps) (hp : p ∈ ps)
    (ht : p.task = .sendVerdicts) :
    m.Takes (.verdicts (p.guardian.verdicts.map p.conduct.report)) := by
  have hsound := h.each p hp
  have h3 : p.task.ahead = 3 := by rw [ht]; rfl
  refine ⟨h.allSharesIn_of_ahead (h.shares p hp (by omega)), fun w hsent => ?_⟩
  obtain ⟨v, hv, rfl⟩ := List.mem_map.mp hsent
  obtain ⟨s, hs, rfl⟩ := List.mem_map.mp hv
  obtain ⟨id, hid⟩ := Ledger.mem_values.mp hs
  obtain ⟨hpair, hadmits⟩ := h.filed.shares _ _ ((hsound.read (by omega) id s).mp hid)
  have hjudged : (p.guardian.judge s).pair = ⟨id, p.guardian.id⟩ := hpair
  rw [hsound.takesPart.report, hjudged]
  exact hadmits

theorem sendVerdicts (h : Sound crew m (p :: others)) (ht : p.task = .sendVerdicts)
    (hp' : p' = p.sendVerdicts.participant) :
    Sound crew (m.receiveVerdicts (p.guardian.verdicts.map p.conduct.report))
      (p' :: others) := by
  have hcounted := h.counted p List.mem_cons_self
  have h3 : p.task.ahead = 3 := by rw [ht]; rfl
  have h2 : p'.task.ahead = 2 := by rw [hp']; rfl
  have hg : p'.guardian = p.guardian := by rw [hp']; rfl
  have hk : p'.conduct = p.conduct := by rw [hp']; rfl
  have hcore : p'.guardian.core = p.guardian.core := by rw [hg]
  have hsent : p'.sentVerdicts = p.guardian.verdicts.map p.conduct.report := by
    rw [sentVerdicts, if_pos (by omega), hg, hk]
  have hsound : p'.Sound crew m := (h.each p List.mem_cons_self).retask hg hk
    (ne_failed_of_pos (by omega)) (by omega) (by omega)
  have htakes := h.takes_verdicts List.mem_cons_self ht
  have hfiled := h.filed.receiveVerdicts (p.guardian.verdicts.map p.conduct.report)
  -- nobody else judges shares for this recipient, and the recipient has not judged any before
  have hfresh : (m.verdicts.keys ++ p'.sentVerdicts.map Verdict.pair).Nodup := by
    refine List.nodup_append.mpr
      ⟨m.verdicts.nodup_keys, hsound.nodup_sentVerdicts h.filed, ?_⟩
    rintro q hq _ hv rfl
    obtain ⟨-, -, r, hr, hid, hlt⟩ := h.mem_keys_verdicts.mp hq
    obtain ⟨-, hrecipient, -⟩ :=
      (hsound.exists_sentVerdict_iff h.filed).mp (List.mem_map.mp hv)
    obtain rfl := h.eq_of_id hr List.mem_cons_self (by rw [hid, hrecipient, hg])
    omega
  rw [Mediator.receiveVerdicts_eq htakes, ← hsent] at hfiled ⊢
  have hkeys := h.told.toToldKeys.replace hcore (by omega)
  have hs : p'.sentShares = p.sentShares := sentShares_congr (by rw [hg]) hk (by omega)
  have hshares := h.told.toToldShares.replace hs
  refine h.replace hfiled rfl hcore (by omega) (by omega) (by omega) (by omega)
    ⟨⟨hkeys.electionKeys, hkeys.transportKeys⟩, ⟨hshares.shares⟩,
      h.told.toToldVerdicts.send (sentVerdicts_of_le (by omega)) hfresh⟩
    (hsound.frame fun _ => rfl) (answers_of_le (by omega)) ?_ (fun _ _ _ => rfl)
    (fun q hq hlt => ?_) (fun _ _ => rfl)
  · have houtcome : p'.outcome = { p.outcome with
        sharesRefused := (p.guardian.verdicts.countP fun v => !v.good).toUInt64 } := by
      rw [hp']
      rfl
    refine (hcounted.recount hcore houtcome (fun _ => ?_) (fun _ => ?_) fun _ => ?_).frame rfl
    · rw [hg]
      exact hcounted.sharesSent (by omega)
    · rw [hg]
      exact hcounted.sharesReceived (by omega)
    · rw [hg]
  · -- whoever answers accusations has seen all verdicts in
    have := h.verdicts q (List.mem_cons_of_mem _ hq) (by omega) p List.mem_cons_self
    omega

/-! ### Answers -/

/-- **An honest disclosure is always found good**: whoever is accused has dealt the share, and what
it discloses is the value of the polynomial that it announced, at the place that the recipient
announced. -/
theorem exists_disclosure (hS : S.Lawful) {ps : List (Participant S)} (h : Sound crew m ps)
    (hp : p ∈ ps) (ht : p.task.ahead < 2) {a : Pair} (ha : a ∈ p.pending) :
    ∃ d, p.guardian.disclose a.recipient = some d ∧ d.pair = a ∧ (m.judge d).good = true ∧
      m.admits d.pair = true := by
  obtain ⟨hfailed, howner⟩ := ((h.answers p hp).mem_pending ht a).mp ha
  have hprepared := (h.each p hp).prepared (by omega)
  obtain ⟨v, hget, -⟩ := Mediator.mem_failed.mp hfailed
  have hadmits := (h.filed.verdicts _ _ hget).2
  obtain ⟨hne, -, hrecipient⟩ := Mediator.admits_iff.mp hadmits
  obtain ⟨q, hq, hqt, hqid⟩ := h.mem_announcers.mp (Mediator.mem_announcers.mpr hrecipient)
  have hcrew := (h.each q hq).mem_crew
  obtain ⟨s, hs⟩ := Ledger.mem_keys.mp ((hprepared.mem_dealt a.recipient).mpr
    ⟨fun e => hne (howner.trans e.symm), q.guardian.core, hcrew, hqid⟩)
  obtain ⟨hpair, horder, -⟩ :=
    (hprepared.deals q.guardian.core hcrew s (by rw [← hs]; exact congrArg _ hqid)).fields
  have hd : (s.disclose p.guardian.polynomial).pair = a := by
    obtain ⟨o, r⟩ := a
    cases howner
    cases hqid
    exact hpair
  refine ⟨s.disclose p.guardian.polynomial, ?_, hd, ?_, hd.symm ▸ hadmits⟩
  · rw [Guardian.disclose, hs]
    rfl
  · have hso : s.owner = p.guardian.id := congrArg Pair.owner hpair
    have hsr : s.recipient = q.guardian.id := congrArg Pair.recipient hpair
    refine Mediator.judge_good_iff.mpr ⟨(Commitments.accepts_iff hS _ _ _).mpr rfl, ?_, ?_⟩
    · exact ⟨_, (h.told.electionKeys _ _).mpr
        ⟨p, hp, by omega, hso.symm, rfl⟩, rfl⟩
    · exact ⟨_, (h.told.electionKeys _ _).mpr ⟨q, hq, hqt, hsr.symm, rfl⟩, horder.symm⟩

theorem answer (hS : S.Lawful) (h : Sound crew m (p :: others)) {a : Pair} {rest : List Pair}
    (ht : p.task = .answer (a :: rest)) (hp' : p' = (p.answer m a rest).participant) :
    Sound crew ((p.answer m a rest).applyTo m) (p' :: others) := by
  have hanswers := h.answers p List.mem_cons_self
  have h1 : p.task.ahead = 1 := by rw [ht]; rfl
  have hpending : p.pending = a :: rest := by
    unfold pending
    rw [ht]
  have ha : a ∈ p.pending := hpending ▸ List.mem_cons_self
  obtain ⟨hfailed, howner⟩ := (hanswers.mem_pending (by omega) a).mp ha
  have hnew := h.told.toToldVerdicts.notMem_of_failed hfailed
  obtain ⟨d, hd, rfl, hgood, hadmits⟩ :=
    h.exists_disclosure hS List.mem_cons_self (by omega) ha
  have hmove : p.answer m d.pair rest = ⟨{ p with
      task := .answer rest
      outcome := { p.outcome with
        disclosed := p.outcome.disclosed + 1
        upheld := p.outcome.upheld + 1 } }, some (.disclosure d)⟩ := by
    unfold Participant.answer
    rw [hd]
    simp only [hgood, if_true]
  rw [hmove] at hp' ⊢
  have h1' : p'.task.ahead = 1 := by rw [hp']; rfl
  have hg : p'.guardian = p.guardian := by rw [hp']
  have hk : p'.conduct = p.conduct := by rw [hp']
  have hcore : p'.guardian.core = p.guardian.core := by rw [hg]
  have hpending' : p.pending = d.pair :: p'.pending := by
    rw [hpending, hp']
    rfl
  show Sound crew (m.receiveDisclosure d) (p' :: others)
  have hfiled := h.filed.receiveDisclosure d
  rw [Mediator.receiveDisclosure_eq hgood hadmits] at hfiled ⊢
  have hkeys := h.told.toToldKeys.replace hcore (by omega)
  have hs : p'.sentShares = p.sentShares := sentShares_congr (by rw [hg]) hk (by omega)
  have hshares := h.told.toToldShares.replace hs
  refine h.replace hfiled rfl hcore (by omega) (by omega) (by omega) (by omega)
    ⟨⟨hkeys.electionKeys, hkeys.transportKeys⟩, ⟨hshares.shares⟩,
      (h.told.toToldVerdicts.disclose h.filed hfailed).replace
        (sentVerdicts_congr hg hk (by omega))⟩
    (((h.each p List.mem_cons_self).retask hg hk (ne_failed_of_pos (by omega)) (by omega)
      (by omega)).frame fun _ => rfl)
    (hanswers.uphold (by omega) hg hpending')
    ((h.counted p List.mem_cons_self).uphold (by omega) hg (by rw [hp']) hnew howner)
    (fun _ _ _ => rfl) (fun q hq _ x hx => ?_) (fun q hq => ?_)
  · rw [Mediator.mem_failed_uphold, and_iff_right]
    rintro rfl
    exact h.ne_of_mem q hq (hx.symm.trans howner)
  · have hne : d.pair.owner ≠ q.guardian.id := fun e => h.ne_of_mem q hq (e.symm.trans howner)
    rw [Mediator.countP_disclosures_uphold hnew, if_neg hne, Nat.add_zero]

/-! ### All steps -/

/-- **Whatever a participant does keeps the invariant.** -/
theorem act (hS : S.Lawful) (h : Sound crew m (p :: others)) {v : Move S} (hv : p.Acts m v) :
    Sound crew (v.applyTo m) (v.participant :: others) := by
  cases hv with
  | announce ht => exact h.announce ht rfl
  | prepare ht hr hg => exact h.prepare ht hr hg rfl
  | @fail _ _ r _ _ ht hr he =>
    -- everyone carries a transport key of its own, so dealing does not fail
    obtain ⟨g, hg, -⟩ := h.exists_prepared ht hr r
    rw [hg] at he
    cases he
  | sendShares ht => exact h.sendShares ht rfl
  | awaitShares ht hm => exact h.awaitShares ht hm rfl
  | collectShares ht => exact h.collectShares ht rfl
  | sendVerdicts ht => exact h.sendVerdicts ht rfl
  | awaitVerdicts ht hm => exact h.awaitVerdicts ht hm rfl
  | answer ht => exact h.answer hS ht rfl
  | finish ht => exact h.finish ht rfl

/-- **Nothing that a participant tells the mediator is dropped.** -/
theorem takes (hS : S.Lawful) {ps : List (Participant S)} (h : Sound crew m ps) (hp : p ∈ ps)
    {v : Move S} (hv : p.Acts m v) {r : Mediator.Request S} (hr : v.request? = some r) :
    m.Takes r := by
  cases hv with
  | announce ht =>
    cases hr
    exact trivial
  | sendShares ht =>
    cases hr
    exact h.takes_shares hp ht
  | sendVerdicts ht =>
    cases hr
    exact h.takes_verdicts hp ht
  | @answer a others ht =>
    have h1 : p.task.ahead = 1 := by rw [ht]; rfl
    have ha : a ∈ p.pending := by
      unfold pending
      rw [ht]
      exact List.mem_cons_self
    obtain ⟨d, hd, -, -, hadmits⟩ := h.exists_disclosure hS hp (by omega) ha
    unfold Participant.answer at hr
    rw [hd] at hr
    cases hr
    exact hadmits
  | _ => cases hr

/-- The invariant does not depend on the order in which participants are listed. -/
theorem perm {ps qs : List (Participant S)} (h : Sound crew m ps) (hp : ps.Perm qs) :
    Sound crew m qs := by
  have hmem : ∀ q, q ∈ ps ↔ q ∈ qs := fun q => hp.mem_iff
  have hstep : ∀ {n : ℕ}, InStep n ps → InStep n qs := fun hn q hq hlt r hr =>
    hn q ((hmem q).mpr hq) hlt r ((hmem r).mpr hr)
  obtain ⟨⟨electionKeys, transportKeys⟩, ⟨shares⟩, ⟨verdicts, standing, upheld, disclosed⟩⟩ :=
    h.told
  simp only [hmem] at electionKeys transportKeys shares verdicts standing disclosed
  exact {
    h with
    perm_crew := (hp.map _).symm.trans h.perm_crew
    roster := hstep h.roster
    shares := hstep h.shares
    verdicts := hstep h.verdicts
    told := ⟨⟨electionKeys, transportKeys⟩, ⟨shares⟩, ⟨verdicts, standing, upheld, disclosed⟩⟩
    each := fun q hq => h.each q ((hmem q).mpr hq)
    answers := fun q hq => h.answers q ((hmem q).mpr hq)
    counted := fun q hq => h.counted q ((hmem q).mpr hq) }

theorem step (hS : S.Lawful) {c d : Ceremony S} (h : Sound crew c.mediator c.participants)
    (hs : Step c d) : Sound crew d.mediator d.participants := by
  cases hs with
  | take taken r =>
    exact ((h.perm List.perm_middle).act hS (acts_of_step taken r)).perm List.perm_middle.symm

theorem reachable (hS : S.Lawful) {c d : Ceremony S} (h : Sound crew c.mediator c.participants)
    (hd : Reachable c d) : Sound crew d.mediator d.participants := by
  induction hd with
  | refl => exact h
  | step _ next ih => exact ih.step hS next

end Sound

/-! ### What a run does not change -/

theorem parts_of_step {c d : Ceremony S} (hs : Step c d) :
    d.participants.map part = c.participants.map part ∧
      d.mediator.setting = c.mediator.setting := by
  cases hs with
  | take taken r =>
    have hacts := acts_of_step taken r
    have hpart := congrArg₂ Prod.mk hacts.core hacts.conduct
    refine ⟨?_, hacts.setting⟩
    rw [List.map_append, List.map_append, List.map_cons, List.map_cons, part, part, hpart]

/-- The same guardians with the same conduct stay in the same places. -/
theorem parts_of_reachable {c d : Ceremony S} (hd : Reachable c d) :
    d.participants.map part = c.participants.map part ∧
      d.mediator.setting = c.mediator.setting := by
  induction hd with
  | refl => exact ⟨rfl, rfl⟩
  | step _ next ih =>
    exact ⟨(parts_of_step next).1.trans ih.1, (parts_of_step next).2.trans ih.2⟩

/-! ### The beginning -/

/-- Nothing has been told by those who have not begun. -/
theorem told_start (id : String) (terms : Terms) {ps : List (Participant S)}
    (h8 : ∀ q ∈ ps, q.task.ahead = 8) : Told (.start id terms) ps := by
  have hshares : ∀ q ∈ ps, q.sentShares = [] := fun q hq =>
    sentShares_of_le (by rw [h8 q hq]; decide)
  have hverdicts : ∀ q ∈ ps, q.sentVerdicts = [] := fun q hq =>
    sentVerdicts_of_le (by rw [h8 q hq]; decide)
  refine ⟨⟨fun _ _ => ⟨nofun, ?_⟩, fun _ _ => ⟨nofun, ?_⟩⟩, ⟨fun _ _ => ⟨nofun, ?_⟩⟩,
    ⟨fun _ => ⟨nofun, ?_⟩, nofun, nofun, nofun⟩⟩
  · rintro ⟨q, hq, hlt, -⟩
    exact absurd (h8 q hq) (Nat.ne_of_lt hlt)
  · rintro ⟨q, hq, hlt, -⟩
    exact absurd (h8 q hq) (Nat.ne_of_lt hlt)
  · rintro ⟨-, q, hq, hs⟩
    rw [hshares q hq] at hs
    cases hs
  · rintro ⟨q, hq, v, hv, -⟩
    rw [hverdicts q hq] at hv
    cases hv

/-- A created guardian knows itself and nothing else. -/
theorem sound_ofGuardian {terms : Terms} {g : Guardian S} (hg : g.CreatedFor terms)
    {k : Conduct S} (hk : k.TakesPart) {crew : List (Guardian S)} (hcrew : g.core ∈ crew)
    (m : Mediator S) : (ofGuardian g k).Sound crew m := by
  have h8 : (ofGuardian g k).task.ahead = 8 := rfl
  obtain ⟨name, order, p, secret, hsecrets⟩ := hg.exists_ofSecrets
  exact {
    mem_crew := hcrew
    takesPart := hk
    working := ne_failed_of_pos (by omega)
    unprepared := fun _ => by
      rw [ofGuardian, hsecrets]
      rfl
    prepared := by omega
    unread := fun _ => by
      rw [ofGuardian, hsecrets]
      rfl
    read := by omega }

/-- The invariant holds of guardians that have not begun. -/
theorem sound_start (id : String) {terms : Terms} {gs : List (Guardian S × Conduct S)}
    (hcreated : ∀ g ∈ gs, g.1.CreatedFor terms)
    (hconduct : ∀ g ∈ gs, g.2.TakesPart) (hnodup : (gs.map fun g => g.1.id).Nodup)
    (hlength : gs.length = terms.guardians.toNat) (hfew : terms.guardians.toNat ≤ 2 ^ 32) :
    Sound (gs.map fun g => g.1.core) (.start id terms)
      (start id terms gs : Ceremony S).participants := by
  have hps : ∀ q ∈ (start id terms gs : Ceremony S).participants,
      ∃ g ∈ gs, q = .ofGuardian g.1 g.2 := fun q hq => by
    obtain ⟨g, hg, rfl⟩ := List.mem_map.mp hq
    exact ⟨g, hg, rfl⟩
  have h8 : ∀ q ∈ (start id terms gs : Ceremony S).participants, q.task.ahead = 8 :=
    fun q hq => by
      obtain ⟨g, -, rfl⟩ := hps q hq
      rfl
  have hstep : ∀ n < 8, InStep n (start id terms gs : Ceremony S).participants :=
    fun n hn q hq hlt => by
      rw [h8 q hq] at hlt
      omega
  exact {
    filed := Mediator.filed_start id terms
    perm_crew := by
      rw [start, List.map_map]
      exact .refl _
    nodup_crew := by
      rw [List.map_map]
      exact hnodup
    length_crew := by rw [List.length_map]; exact hlength
    few := hfew
    roster := hstep 7 (by decide)
    shares := hstep 5 (by decide)
    verdicts := hstep 2 (by decide)
    told := told_start id terms h8
    each := fun q hq => by
      obtain ⟨g, hg, rfl⟩ := hps q hq
      exact sound_ofGuardian (hcreated g hg) (hconduct g hg)
        (List.mem_map.mpr ⟨g, hg, rfl⟩) _
    answers := fun q hq => answers_of_le (by rw [h8 q hq]; decide)
    counted := fun q hq => by
      have hq8 := h8 q hq
      obtain ⟨g, -, rfl⟩ := hps q hq
      exact ⟨rfl, rfl, by omega, by omega, by omega, rfl, rfl⟩ }

end Ceremony

end Guardianship
