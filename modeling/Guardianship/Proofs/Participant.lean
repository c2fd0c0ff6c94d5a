import Guardianship.Participant
import Guardianship.Proofs.Guardian.Filing
import Guardianship.Proofs.Mediator.Receiving

/-!
# The steps of a participant

`Acts` lists what a participant may do next, one case to a task, and `acts_of_step` is the only
place that takes the step function apart.  Whatever a participant does, it stays the same guardian
with the same conduct (`Acts.core`, `Acts.conduct`), and the mediator keeps its name and its terms
(`Acts.setting`).

What it has told the mediator so far can be read off the participant: `sentShares` and
`sentVerdicts`; `pending` are the accusations that it has yet to answer.
-/

namespace Guardianship

variable {S : Suite}

/-- Speaks in every round, and sends everything under the pair that it belongs to. -/
structure Conduct.TakesPart (k : Conduct S) : Prop where
  silentFrom : k.silentFrom = none
  alter : ∀ s, (k.alter s).pair = s.pair
  report : ∀ v, (k.report v).pair = v.pair

theorem Conduct.takesPart_honest : (honest : Conduct S).TakesPart :=
  ⟨rfl, fun _ => rfl, fun _ => rfl⟩

namespace Participant

/-! ### What a participant has sent -/

/-- The shares that it has sent so far. -/
def sentShares (p : Participant S) : List (SealedShare S) :=
  if p.task.ahead < 6 then p.guardian.dealt.values.map p.conduct.alter else []

/-- The verdicts that it has reported so far. -/
def sentVerdicts (p : Participant S) : List Verdict :=
  if p.task.ahead < 3 then p.guardian.verdicts.map p.conduct.report else []

/-- Who it is and how it behaves. -/
def part (p : Participant S) : Guardian S × Conduct S := (p.guardian.core, p.conduct)

/-- The accusations that it has not answered. -/
def pending (p : Participant S) : List Pair :=
  match p.task with
  | .answer accusations => accusations
  | _ => []

/-! ### What a participant may do -/

/-- What a participant may do next. -/
inductive Acts (p : Participant S) (m : Mediator S) : Move S → Prop
  | announce (ht : p.task = .announce) : Acts p m p.announce
  | prepare {ρ : Type} [RandomSource ρ] {r : ρ} {roster : List (Announcement S)} {g : Guardian S}
      (ht : p.task = .awaitRoster) (hr : m.roster (some p.guardian.id) = some roster)
      (hg : ((roster.foldl Guardian.learn p.guardian).deal r).1 = .ok g) :
      Acts p m ⟨{ p with guardian := g, task := .sendShares }, none⟩
  | fail {ρ : Type} [RandomSource ρ] {r : ρ} {roster : List (Announcement S)}
      {e : Guardian.Error} (ht : p.task = .awaitRoster)
      (hr : m.roster (some p.guardian.id) = some roster)
      (he : ((roster.foldl Guardian.learn p.guardian).deal r).1 = .error e) :
      Acts p m ⟨{ p with
        guardian := roster.foldl Guardian.learn p.guardian, task := .failed e }, none⟩
  | sendShares (ht : p.task = .sendShares) : Acts p m p.sendShares
  | awaitShares (ht : p.task = .awaitShares) (hm : m.allSharesIn = true) :
      Acts p m ⟨p.turnTo .collectShares, none⟩
  | collectShares (ht : p.task = .collectShares) :
      Acts p m (p.collectShares ((m.sharesFor (some p.guardian.id)).getD []))
  | sendVerdicts (ht : p.task = .sendVerdicts) : Acts p m p.sendVerdicts
  | awaitVerdicts (ht : p.task = .awaitVerdicts) (hm : m.summary.allSent = true) :
      Acts p m ⟨p.turnTo (.answer (p.accusations m)), none⟩
  | answer {accusation : Pair} {others : List Pair}
      (ht : p.task = .answer (accusation :: others)) : Acts p m (p.answer m accusation others)
  | finish (ht : p.task = .answer []) : Acts p m ⟨p.turnTo .finished, none⟩

section Draws

variable {ρ : Type} [RandomSource ρ]

theorem acts_of_prepare {p : Participant S} {m : Mediator S} {roster : List (Announcement S)}
    (ht : p.task = .awaitRoster) (hr : m.roster (some p.guardian.id) = some roster) (r : ρ) :
    p.Acts m (p.prepare roster r).1 := by
  unfold prepare
  rw [draw_bind]
  rcases (roster.foldl Guardian.learn p.guardian).dealShares_cases r with ⟨dealt, hd⟩ | ⟨e, hd⟩
  · rw [hd]
    exact .prepare ht hr (Guardian.deal_eq_ok_iff.mpr hd)
  · rw [hd]
    exact .fail ht hr (Guardian.deal_eq_error_iff.mpr hd)

theorem acts_of_act {p : Participant S} {m : Mediator S} {x : StateM ρ (Move S)}
    (h : p.act m = some x) (r : ρ) : p.Acts m (x r).1 := by
  unfold act at h
  split at h
  all_goals rename_i ht
  · cases h
    exact .announce ht
  · obtain ⟨roster, hr, rfl⟩ := Option.map_eq_some_iff.mp h
    exact acts_of_prepare ht hr r
  · cases h
    exact .sendShares ht
  · split_ifs at h with hm
    cases h
    exact .awaitShares ht hm
  · cases h
    exact .collectShares ht
  · cases h
    exact .sendVerdicts ht
  · split_ifs at h with hm
    cases h
    exact .awaitVerdicts ht hm
  · cases h
    exact .finish ht
  · cases h
    exact .answer ht
  · cases h
  · cases h

theorem acts_of_step {p : Participant S} {m : Mediator S} {x : StateM ρ (Move S)}
    (h : p.step m = some x) (r : ρ) : p.Acts m (x r).1 := by
  unfold step at h
  split_ifs at h
  exact acts_of_act h r

/-- Who is never silent takes the step that its task asks for. -/
theorem step_eq_act {p : Participant S} (hp : p.conduct.TakesPart) (m : Mediator S) :
    p.step (ρ := ρ) m = p.act m := by
  have hsilent : p.isSilent = false := by
    rw [isSilent, hp.silentFrom]
    cases p.task.round? <;> rfl
  rw [step, hsilent, if_neg Bool.false_ne_true]

end Draws

/-! ### What stays the same -/

theorem conduct_answer (p : Participant S) (m : Mediator S) (a : Pair) (others : List Pair) :
    (p.answer m a others).participant.conduct = p.conduct := by
  unfold answer
  split <;> rfl

theorem guardian_answer (p : Participant S) (m : Mediator S) (a : Pair) (others : List Pair) :
    (p.answer m a others).participant.guardian = p.guardian := by
  unfold answer
  split <;> rfl

namespace Acts

variable {p : Participant S} {m : Mediator S} {v : Move S}

theorem conduct (h : p.Acts m v) : v.participant.conduct = p.conduct := by
  cases h with
  | answer => exact conduct_answer p m _ _
  | _ => rfl

theorem core (h : p.Acts m v) : v.participant.guardian.core = p.guardian.core := by
  cases h with
  | prepare ht hr hg =>
    rw [Guardian.eq_of_deal hg, Guardian.foldl_learn]
    rfl
  | fail ht hr he =>
    rw [Guardian.foldl_learn]
    rfl
  | collectShares => exact Guardian.core_foldl_accept _ _
  | answer => rw [guardian_answer]
  | _ => rfl

theorem setting (h : p.Acts m v) : (v.applyTo m).setting = m.setting := by
  cases h with
  | sendShares => exact m.setting_receiveShares _
  | sendVerdicts => exact m.setting_receiveVerdicts _
  | answer =>
    unfold Participant.answer
    split
    · rfl
    · exact m.setting_receiveDisclosure _
  | _ => rfl

/-- A disclosure is the answer to an accusation. -/
theorem of_disclosure (h : p.Acts m v) {d : Disclosure S}
    (hd : v.request? = some (.disclosure d)) :
    ∃ accusation others, p.task = .answer (accusation :: others) ∧
      p.guardian.disclose accusation.recipient = some d := by
  cases h with
  | @answer accusation others ht =>
    refine ⟨accusation, others, ht, ?_⟩
    unfold Participant.answer at hd
    split at hd
    · cases hd
    · rename_i d' hd'
      cases hd
      exact hd'
  | _ => cases hd

end Acts

end Participant

end Guardianship
