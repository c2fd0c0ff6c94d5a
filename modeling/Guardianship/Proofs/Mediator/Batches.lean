import Guardianship.Proofs.Mediator.Completion
import Guardianship.Proofs.Mediator.History

/-!
# Batches of messages

Shares and verdicts come in batches.  The gate of a round is asked once for a batch, and then each
message is entered for itself if its pair is admitted, so the two rounds are one operation on two
ledgers (`Round`).  Entering a message opens and closes no gate of its own round, and admits no pair
that was not admitted before.  So nothing counts but the last message for each pair (`FilledBy`),
and it makes no difference how messages are spread over batches, how often they come, and what else
comes with them (`Round.receive_append`, `Round.receive_receive`, `Round.receive_filter`).

When messages for different pairs change places, the order of the ledgers may change, but not what
they hold (`SameContents`), and nothing that is made of it but the order in which failed pairs are
listed (`SameContents.answers`).  This order is that in which verdicts on the pairs first came
(`failed_of_run`).

Main statement: `batches_count_by_pair`.
-/

namespace Guardianship.Mediator

variable {S : Suite} {m m' : Mediator S}

/-! ### Mediators that hold the same -/

/-- The same messages are held, perhaps in another order. -/
structure SameContents (m m' : Mediator S) : Prop where
  foundation : m'.foundation = m.foundation
  disclosures : m'.disclosures = m.disclosures
  shares : ∀ p, m'.shares.get? p = m.shares.get? p
  verdicts : ∀ p, m'.verdicts.get? p = m.verdicts.get? p

/-- The same answers are given, but for the order of failed pairs. -/
structure SameAnswers (m m' : Mediator S) : Prop where
  allAnnounced : m'.allAnnounced = m.allAnnounced
  allSharesIn : m'.allSharesIn = m.allSharesIn
  allSent : m'.summary.allSent = m.summary.allSent
  allGood : m'.summary.allGood = m.summary.allGood
  failed : m'.summary.failed.Perm m.summary.failed
  stage : m'.stage = m.stage
  roster : ∀ requester, m'.roster requester = m.roster requester
  sharesFor : ∀ g, m'.sharesFor (some g) = m.sharesFor (some g)
  jointKey : m'.jointKey? = m.jointKey?

namespace SameContents

variable (h : SameContents m m')
include h

theorem electionKeys_eq : m'.electionKeys = m.electionKeys :=
  congrArg (fun f => f.electionKeys) h.foundation

theorem terms_eq : m'.terms = m.terms := congrArg (fun f => f.terms) h.foundation

theorem allAnnounced_eq : m'.allAnnounced = m.allAnnounced :=
  congrArg (fun f => f.allAnnounced) h.foundation

theorem allSharesIn_eq : m'.allSharesIn = m.allSharesIn := by
  rw [Mediator.allSharesIn, Mediator.allSharesIn, h.allAnnounced_eq, h.terms_eq,
    Ledger.size_eq_of_get? h.shares]

theorem allVerdictsIn_eq : m'.allVerdictsIn = m.allVerdictsIn := by
  rw [allVerdictsIn, allVerdictsIn, h.allSharesIn_eq, h.terms_eq,
    Ledger.size_eq_of_get? h.verdicts]

theorem failed_perm : m'.failed.Perm m.failed :=
  ((Ledger.entries_perm_of_get? h.verdicts).filter _).map _

theorem allGood_eq : m'.allGood = m.allGood := by
  unfold allGood summary
  rw [h.allVerdictsIn_eq]
  split_ifs
  · exact h.failed_perm.isEmpty_eq
  · rfl

theorem answers : SameAnswers m m' where
  allAnnounced := h.allAnnounced_eq
  allSharesIn := h.allSharesIn_eq
  allSent := Bool.eq_iff_iff.mpr (by rw [allSent_iff, allSent_iff, h.allVerdictsIn_eq])
  allGood := h.allGood_eq
  failed := by
    rw [summary_failed, summary_failed, h.allVerdictsIn_eq]
    split_ifs
    · exact h.failed_perm
    · exact List.Perm.nil
  stage := by
    rw [stage, stage, h.allAnnounced_eq, h.allSharesIn_eq, h.allVerdictsIn_eq, h.allGood_eq]
  roster := fun requester => congrArg (fun f => f.roster requester) h.foundation
  sharesFor := fun g => by
    rw [sharesFor, sharesFor, h.allAnnounced_eq, h.electionKeys_eq]
    simp only [h.shares]
  jointKey := by rw [jointKey?, jointKey?, h.allGood_eq, h.electionKeys_eq]

end SameContents

/-! ### What a batch enters -/

section FilledBy

variable {ν : Type}

/-- A ledger is what a batch of messages makes of another one: the last message for an admitted pair
stands, or else the one before; no other pair has a message; pairs keep their places, and new ones
come after them in the order of their first messages. -/
structure FilledBy (m : Mediator S) (pair : ν → Pair) (l l' : Ledger Pair ν) (vs : List ν) :
    Prop where
  admitted : ∀ p, m.admits p = true → l'.get? p = (Ledger.last? pair vs p).or (l.get? p)
  other : ∀ p, m.admits p = false → l'.get? p = none
  keys : l'.keys =
    l.keys ++ ((vs.map pair).filter fun p => m.admits p && p ∉ l.keys).eraseDups

theorem FiledByPair.filledBy {pair : ν → Pair} {l : Ledger Pair ν} (h : m.FiledByPair pair l)
    (vs : List ν) :
    m.FilledBy pair l (l.insertAll pair (vs.filter fun v => m.admits (pair v))) vs where
  admitted := by
    intro p hp
    rw [Ledger.get?_insertAll_eq, filter_admitted, if_pos hp, Ledger.last?]
  other := by
    intro p hp
    have hnone : l.get? p = none := by
      refine Option.eq_none_iff_forall_ne_some.mpr fun v hv => ?_
      rw [(h p v hv).2] at hp
      cases hp
    rw [Ledger.get?_insertAll_eq, filter_admitted, hp, hnone]
    rfl
  keys := by
    have hpairs : (vs.filter fun v => m.admits (pair v)).map pair =
        (vs.map pair).filter fun p => m.admits p := by
      rw [List.filter_map]
      rfl
    rw [Ledger.keys_insertAll, hpairs, List.filter_filter]
    congr 3
    funext p
    exact Bool.and_comm _ _

end FilledBy

/-! ### Rounds -/

section Rounds

variable {ν : Type}

/-- How batches of a round are received: when the round is open, and in which ledger of a mediator
its messages are held. -/
structure Round (S : Suite) (ν : Type) where
  pair : ν → Pair
  isOpen : Mediator S → Bool
  held : Mediator S → Ledger Pair ν
  hold : Mediator S → Ledger Pair ν → Mediator S

namespace Round

/-- Enters the messages of a batch whose pairs are admitted, if the round is open. -/
def receive (R : Round S ν) (m : Mediator S) (vs : List ν) : Mediator S :=
  if R.isOpen m then
    R.hold m ((R.held m).insertAll R.pair (vs.filter fun v => m.admits (R.pair v)))
  else m

/-- Neither the gate of the round nor the admission of pairs depends on the messages of the round,
nor does anything else that is held. -/
structure Lawful (R : Round S ν) : Prop where
  held_hold : ∀ m l, R.held (R.hold m l) = l
  hold_hold : ∀ m l l', R.hold (R.hold m l) l' = R.hold m l'
  isOpen_hold : ∀ m l, R.isOpen (R.hold m l) = R.isOpen m
  admits_hold : ∀ m l p, (R.hold m l).admits p = m.admits p
  sameContents : ∀ m l l', (∀ p, l'.get? p = l.get? p) → SameContents (R.hold m l) (R.hold m l')

def shares : Round S (SealedShare S) :=
  ⟨SealedShare.pair, allAnnounced, Mediator.shares, fun m l => { m with shares := l }⟩

def verdicts : Round S Verdict :=
  ⟨Verdict.pair, allSharesIn, Mediator.verdicts, fun m l => { m with verdicts := l }⟩

theorem lawful_shares : (shares : Round S (SealedShare S)).Lawful where
  held_hold _ _ := rfl
  hold_hold _ _ _ := rfl
  isOpen_hold _ _ := rfl
  admits_hold _ _ _ := rfl
  sameContents _ _ _ h := ⟨rfl, rfl, h, fun _ => rfl⟩

theorem lawful_verdicts : (verdicts : Round S Verdict).Lawful where
  held_hold _ _ := rfl
  hold_hold _ _ _ := rfl
  isOpen_hold _ _ := rfl
  admits_hold _ _ _ := rfl
  sameContents _ _ _ h := ⟨rfl, rfl, fun _ => rfl, h⟩

variable {R : Round S ν}

theorem receive_of_open (ho : R.isOpen m = true) (vs : List ν) :
    R.receive m vs =
      R.hold m ((R.held m).insertAll R.pair (vs.filter fun v => m.admits (R.pair v))) := if_pos ho

theorem receive_of_closed (ho : ¬ R.isOpen m = true) (vs : List ν) : R.receive m vs = m := if_neg ho

variable (hR : R.Lawful)
include hR

/-- A batch after a batch is entered after it. -/
theorem receive_receive_of_open (ho : R.isOpen m = true) (vs ws : List ν) :
    R.receive (R.receive m vs) ws =
      R.hold m (((R.held m).insertAll R.pair (vs.filter fun v => m.admits (R.pair v))).insertAll
        R.pair (ws.filter fun v => m.admits (R.pair v))) := by
  rw [receive_of_open ho, receive_of_open (by rwa [hR.isOpen_hold]), hR.held_hold, hR.hold_hold]
  simp only [hR.admits_hold]

theorem receive_append (m : Mediator S) (vs ws : List ν) :
    R.receive m (vs ++ ws) = R.receive (R.receive m vs) ws := by
  by_cases ho : R.isOpen m = true
  · rw [receive_receive_of_open hR ho, receive_of_open ho, List.filter_append,
      Ledger.insertAll_append]
  · rw [receive_of_closed ho, receive_of_closed ho, receive_of_closed ho]

theorem receive_receive (m : Mediator S) (vs : List ν) :
    R.receive (R.receive m vs) vs = R.receive m vs := by
  by_cases ho : R.isOpen m = true
  · rw [receive_receive_of_open hR ho, Ledger.insertAll_insertAll, receive_of_open ho]
  · rw [receive_of_closed ho, receive_of_closed ho]

omit hR in
/-- Messages whose pairs are not admitted may be left out. -/
theorem receive_filter (m : Mediator S) {vs : List ν} {keep : ν → Bool}
    (hkeep : ∀ v ∈ vs, m.admits (R.pair v) = true → keep v = true) :
    R.receive m (vs.filter keep) = R.receive m vs := by
  have hfilter : ((vs.filter keep).filter fun v => m.admits (R.pair v)) =
      vs.filter fun v => m.admits (R.pair v) := by
    rw [List.filter_filter]
    refine List.filter_congr fun v hv => ?_
    by_cases ha : m.admits (R.pair v) = true
    · rw [ha, hkeep v hv ha]
      rfl
    · rw [Bool.eq_false_iff.mpr ha, Bool.false_and]
  rw [receive, receive, hfilter]

/-- Messages for different pairs may change places. -/
theorem sameContents_receive (m : Mediator S) {vs ws : List ν}
    (h : Ledger.SameByKey R.pair vs ws) : SameContents (R.receive m vs) (R.receive m ws) := by
  by_cases ho : R.isOpen m = true
  · rw [receive_of_open ho, receive_of_open ho]
    exact hR.sameContents _ _ _ fun p => ((h.filter _).get?_insertAll _ p).symm
  · rw [receive_of_closed ho, receive_of_closed ho]
    exact ⟨rfl, rfl, fun _ => rfl, fun _ => rfl⟩

end Round

end Rounds

theorem receiveShares_eq_receive :
    (receiveShares : Mediator S → List (SealedShare S) → Mediator S) = Round.shares.receive := by
  funext m ss
  rw [receiveShares, foldl_receiveShare]
  rfl

theorem receiveVerdicts_eq_receive :
    (receiveVerdicts : Mediator S → List Verdict → Mediator S) = Round.verdicts.receive := by
  funext m vs
  rw [receiveVerdicts, foldl_receiveVerdict]
  rfl

/-- Of batches of messages nothing counts but what they say about each pair. -/
structure CountsByPair {ν : Type} (pair : ν → Pair)
    (receive : Mediator S → List ν → Mediator S) : Prop where
  append : ∀ m vs ws, receive m (vs ++ ws) = receive (receive m vs) ws
  filter : ∀ m vs keep, (∀ v ∈ vs, m.admits (pair v) = true → keep v = true) →
    receive m (vs.filter keep) = receive m vs
  again : ∀ m vs, receive (receive m vs) vs = receive m vs
  reorder : ∀ m vs ws, Ledger.SameByKey pair vs ws → SameContents (receive m vs) (receive m ws)

theorem Round.Lawful.countsByPair {ν : Type} {R : Round S ν} (hR : R.Lawful) :
    CountsByPair R.pair R.receive where
  append := R.receive_append hR
  filter := fun m _ _ => R.receive_filter m
  again := R.receive_receive hR
  reorder := fun m _ _ => R.sameContents_receive hR m

/-! ### The order of failed pairs -/

/-- The verdicts that requests enter, one after the other. -/
def enteredVerdictsIn (m : Mediator S) : List (Request S) → List Verdict
  | [] => []
  | r :: rs => m.enteredVerdicts r ++ (m.apply r).enteredVerdictsIn rs

theorem verdicts_foldl_apply :
    ∀ {rs : List (Request S)}, (∀ terms, Request.reset terms ∉ rs) → ∀ m : Mediator S,
      (rs.foldl apply m).verdicts = m.verdicts.insertAll Verdict.pair (m.enteredVerdictsIn rs)
  | [], _, _ => rfl
  | r :: rs, hrs, m => by
    obtain ⟨hr, hrest⟩ := reset_notMem_cons.mp hrs
    rw [List.foldl_cons, verdicts_foldl_apply hrest, verdicts_apply m hr, enteredVerdictsIn,
      Ledger.insertAll_append]

/-- There is a verdict on the pair, and it is bad. -/
def isFailed (m : Mediator S) (p : Pair) : Bool := (m.verdicts.get? p).any fun v => !v.good

/-- Failed pairs are listed in the order in which their verdicts are held. -/
theorem failed_eq_filter (m : Mediator S) : m.failed = m.verdicts.keys.filter m.isFailed := by
  rw [failed, Ledger.keys, List.filter_map]
  refine congrArg _ (List.filter_congr fun e he => ?_)
  rw [Function.comp_apply, isFailed, Ledger.get?_eq_some_iff.mpr he, Option.any_some]

/-- Failed pairs are listed in the order in which verdicts on them first came since the last
reset. -/
theorem failed_of_run {id : String} {terms : Terms} {rs : List (Request S)}
    (hm : rs.foldl apply (start id terms) = m) :
    m.failed =
      ((((start id m.terms : Mediator S).enteredVerdictsIn (sinceReset rs)).map
        Verdict.pair).eraseDups).filter m.isFailed := by
  have hverdicts : m.verdicts = Ledger.empty.insertAll Verdict.pair
      ((start id m.terms : Mediator S).enteredVerdictsIn (sinceReset rs)) := by
    rw [← hm]
    conv_lhs => rw [foldl_apply_eq_sinceReset]
    exact verdicts_foldl_apply (reset_notMem_sinceReset rs) _
  rw [failed_eq_filter, ← Ledger.keys_insertAll_empty, ← hverdicts]

/-! ### Batches of both rounds -/

theorem receiveShares_of_open (ha : m.allAnnounced = true) (ss : List (SealedShare S)) :
    m.receiveShares ss =
      { m with shares :=
        m.shares.insertAll SealedShare.pair (ss.filter fun s => m.admits s.pair) } := by
  rw [receiveShares, if_pos ha, foldl_receiveShare]

theorem receiveVerdicts_of_open (hs : m.allSharesIn = true) (vs : List Verdict) :
    m.receiveVerdicts vs =
      { m with verdicts :=
        m.verdicts.insertAll Verdict.pair (vs.filter fun v => m.admits v.pair) } := by
  rw [receiveVerdicts, if_pos hs, foldl_receiveVerdict]

/-- **Nothing counts but the last message for each pair.**  A batch that comes while its round is
open changes nothing but the ledger of the round, in which it leaves, for two different guardians
who have announced, the last message on them.  So batches may be joined and split, come again, lose
messages for other pairs, and be put in another order as long as the messages for each pair keep
theirs: what is held is the same, and all answers that are made of it.  Failed pairs are listed in
the order in which verdicts on them first came since the last reset. -/
theorem batches_count_by_pair {id : String} {terms : Terms} {rs : List (Request S)}
    (hm : rs.foldl apply (start id terms) = m) :
    (∀ p, m.admits p = true ↔ p.owner ≠ p.recipient ∧
      (∃ a ∈ announced rs, a.owner = p.owner) ∧ ∃ a ∈ announced rs, a.owner = p.recipient) ∧
    (m.allAnnounced = true → ∀ ss, ∃ l,
      m.receiveShares ss = { m with shares := l } ∧ m.FilledBy SealedShare.pair m.shares l ss) ∧
    (m.allSharesIn = true → ∀ vs, ∃ l,
      m.receiveVerdicts vs = { m with verdicts := l } ∧ m.FilledBy Verdict.pair m.verdicts l vs) ∧
    CountsByPair SealedShare.pair (receiveShares : Mediator S → _) ∧
    CountsByPair Verdict.pair (receiveVerdicts : Mediator S → _) ∧
    (∀ m₁ m₂ : Mediator S, SameContents m₁ m₂ → SameAnswers m₁ m₂) ∧
    m.summary.failed =
      if m.allVerdictsIn then
        (((start id m.terms : Mediator S).enteredVerdictsIn (sinceReset rs)).map
          Verdict.pair).eraseDups.filter m.isFailed
      else [] := by
  have hf : m.Filed := filed_of_run hm
  refine ⟨fun p => ?_, fun ha ss => ?_, fun hs vs => ?_, ?_, ?_, fun _ _ h => h.answers, ?_⟩
  · rw [admits_iff, mem_keys_electionKeys hm, mem_keys_electionKeys hm]
  · exact ⟨_, receiveShares_of_open ha ss, hf.shares.filledBy ss⟩
  · exact ⟨_, receiveVerdicts_of_open hs vs, hf.verdicts.filledBy vs⟩
  · exact receiveShares_eq_receive ▸ Round.lawful_shares.countsByPair
  · exact receiveVerdicts_eq_receive ▸ Round.lawful_verdicts.countsByPair
  · rw [summary_failed, failed_of_run hm]

/-- The verdict that is held is replaced where it stands.  What comes with it is dropped, and when
it comes makes no difference. -/
theorem batches_count_by_pair_after_first_verdict :
    afterFirstVerdict.allSharesIn = true ∧
    (∃ l, afterFirstVerdict.receiveVerdicts [⟨"b", "a", "a", false⟩, ⟨"a", "b", "b", true⟩] =
        { afterFirstVerdict with verdicts := l } ∧
      l.keys = [⟨"a", "b"⟩, ⟨"b", "a"⟩] ∧ l.get? ⟨"a", "b"⟩ = some ⟨"a", "b", "b", true⟩) ∧
    afterFirstVerdict.receiveVerdicts
        ([⟨"a", "a", "a", true⟩, ⟨"a", "b", "b", true⟩].filter fun v => !v.pair.isSelf) =
      afterFirstVerdict.receiveVerdicts [⟨"a", "a", "a", true⟩, ⟨"a", "b", "b", true⟩] ∧
    SameAnswers
      (afterFirstVerdict.receiveVerdicts [⟨"b", "a", "a", false⟩, ⟨"a", "b", "b", true⟩])
      (afterFirstVerdict.receiveVerdicts [⟨"a", "b", "b", true⟩, ⟨"b", "a", "a", false⟩]) := by
  have hs : afterFirstVerdict.allSharesIn = true := by decide +kernel
  obtain ⟨-, -, hverdicts, -, hcount, hanswers, -⟩ :=
    batches_count_by_pair (m := afterFirstVerdict) rfl
  refine ⟨hs, ?_, hcount.filter _ _ _ (by decide +kernel),
    hanswers _ _ (hcount.reorder _ _ _ (.swap (by decide) []))⟩
  obtain ⟨l, heq, hl⟩ := hverdicts hs [⟨"b", "a", "a", false⟩, ⟨"a", "b", "b", true⟩]
  refine ⟨l, heq, hl.keys.trans (by decide +kernel), (hl.admitted _ (by decide +kernel)).trans ?_⟩
  decide +kernel

end Guardianship.Mediator
