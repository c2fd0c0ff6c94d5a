import Guardianship.Guardian
import Guardianship.Mediator

/-!
# Participants

One guardian's side of a ceremony, as a program that takes one step at a time.  A step asks the
mediator or tells it something, once at most, and nothing else happens to the mediator meanwhile; so
every way in which participants may get in each other's way is an order of their steps.  A
participant that waits for others takes no step.

How a participant behaves is its `Conduct`: it may fall silent, send shares that are not those it
has dealt, or report verdicts that are not those it has reached.

Main statement: every step brings a participant nearer to its end (`step_nearer`).
-/

namespace Guardianship

variable {S : Suite} {ρ : Type} [RandomSource ρ]

/-- What guardians tell the mediator, one kind of message to a round. -/
inductive Round
  | announcements
  | shares
  | verdicts
  | disclosures
deriving DecidableEq, Repr

/-- How a participant behaves. -/
structure Conduct (S : Suite) where
  /-- The round from which it says nothing. -/
  silentFrom : Option Round := none
  /-- The share that it sends in place of the one it has dealt. -/
  alter : SealedShare S → SealedShare S := id
  /-- The verdict that it reports in place of the one it has reached. -/
  report : Verdict → Verdict := id

namespace Conduct

def honest : Conduct S := {}

/-- Honest as far as it goes. -/
def silent (start : Round) : Conduct S := { silentFrom := some start }

/-- Finds fault with every share. -/
def liar : Conduct S := { report := fun v => { v with good := false } }

/-- Changes the last octet. -/
def spoil (xs : Octets) : Octets := xs.modify (xs.length - 1) (· ^^^ 1)

/-- Spoils every share that it sends. -/
def corrupt : Conduct S := { alter := fun s => { s with sealed := spoil s.sealed } }

end Conduct

/-- What a participant does next. -/
inductive Task
  | announce
  | awaitRoster
  | sendShares
  | awaitShares
  | collectShares
  | sendVerdicts
  | awaitVerdicts
  /-- Disclose the shares on which these verdicts were bad. -/
  | answer (accusations : List Pair)
  | finished
  | failed (cause : Guardian.Error)
deriving DecidableEq, Repr

namespace Task

/-- How many tasks lie ahead. -/
def ahead : Task → Nat
  | announce => 8
  | awaitRoster => 7
  | sendShares => 6
  | awaitShares => 5
  | collectShares => 4
  | sendVerdicts => 3
  | awaitVerdicts => 2
  | answer _ => 1
  | finished | failed _ => 0

/-- How many accusations have not been answered. -/
def unanswered : Task → Nat
  | answer accusations => accusations.length
  | _ => 0

/-- The round in which a task speaks. -/
def round? : Task → Option Round
  | announce => some .announcements
  | sendShares => some .shares
  | sendVerdicts => some .verdicts
  | answer (_ :: _) => some .disclosures
  | _ => none

end Task

/-- A guardian at work in a ceremony. -/
structure Participant (S : Suite) where
  guardian : Guardian S
  conduct : Conduct S
  task : Task
  /-- What it has done so far. -/
  outcome : Outcome

namespace Participant

/-- A guardian that has not begun. -/
def ofGuardian (g : Guardian S) (conduct : Conduct S) : Participant S :=
  ⟨g, conduct, .announce, ⟨g.id, g.order, 0, 0, 0, 0, 0⟩⟩

/-- It is time to speak, but the participant says nothing. -/
def isSilent (p : Participant S) : Bool :=
  p.task.round?.isSome && p.task.round? == p.conduct.silentFrom

/-- What a participant has done, once it has finished. -/
def outcome? (p : Participant S) : Option Outcome :=
  if p.task = .finished then some p.outcome else none

/-! ### Steps -/

/-- What a step comes to: the participant after it, and what it tells the mediator. -/
structure Move (S : Suite) where
  participant : Participant S
  request? : Option (Mediator.Request S)

/-- The mediator after a step. -/
def Move.applyTo (v : Move S) (m : Mediator S) : Mediator S :=
  match v.request? with
  | some r => m.apply r
  | none => m

/-- The participant turns to another task. -/
def turnTo (p : Participant S) (task : Task) : Participant S := { p with task }

/-- Learns who takes part, and deals a share to everyone. -/
def prepare (p : Participant S) (roster : List (Announcement S)) : StateM ρ (Move S) := do
  match ← (roster.foldl Guardian.learn p.guardian).dealShares with
  | (.ok _, g) => return ⟨{ p with guardian := g, task := .sendShares }, none⟩
  | (.error e, g) => return ⟨{ p with guardian := g, task := .failed e }, none⟩

/-- Announces its keys. -/
def announce (p : Participant S) : Move S :=
  ⟨p.turnTo .awaitRoster, some (.announce p.guardian.announcement)⟩

/-- Sends the shares that it has dealt. -/
def sendShares (p : Participant S) : Move S :=
  let ss := p.guardian.dealt.values
  ⟨{ p with
      task := .awaitShares
      outcome := { p.outcome with sharesSent := ss.length.toUInt64 } },
    some (.shares (ss.map p.conduct.alter))⟩

/-- Takes the shares that are addressed to it. -/
def collectShares (p : Participant S) (ss : List (SealedShare S)) : Move S :=
  ⟨{ p with
      guardian := ss.foldl Guardian.accept p.guardian
      task := .sendVerdicts
      outcome := { p.outcome with sharesReceived := ss.length.toUInt64 } },
    none⟩

/-- Judges the shares that it has received, and sends the verdicts. -/
def sendVerdicts (p : Participant S) : Move S :=
  let vs := p.guardian.verdicts
  ⟨{ p with
      task := .awaitVerdicts
      outcome := { p.outcome with sharesRefused := (vs.countP fun v => !v.good).toUInt64 } },
    some (.verdicts (vs.map p.conduct.report))⟩

/-- The accusations against a participant. -/
def accusations (p : Participant S) (m : Mediator S) : List Pair :=
  m.summary.failed.filter fun q => q.owner = p.guardian.id

/-- Answers an accusation by disclosing the share, if it has dealt one. -/
def answer (p : Participant S) (m : Mediator S) (accusation : Pair) (others : List Pair) :
    Move S :=
  match p.guardian.disclose accusation.recipient with
  | none => ⟨p.turnTo (.answer others), none⟩
  | some d =>
    ⟨{ p with
        task := .answer others
        outcome := { p.outcome with
          disclosed := p.outcome.disclosed + 1
          upheld := p.outcome.upheld + if (m.judge d).good then 1 else 0 } },
      some (.disclosure d)⟩

/-- The next step of a participant that speaks; nothing if it waits or has come to its end. -/
def act (p : Participant S) (m : Mediator S) : Option (StateM ρ (Move S)) :=
  match p.task with
  | .announce => some (pure p.announce)
  | .awaitRoster => (m.roster (some p.guardian.id)).map p.prepare
  | .sendShares => some (pure p.sendShares)
  | .awaitShares => if m.allSharesIn then some (pure ⟨p.turnTo .collectShares, none⟩) else none
  | .collectShares =>
    some (pure (p.collectShares ((m.sharesFor (some p.guardian.id)).getD [])))
  | .sendVerdicts => some (pure p.sendVerdicts)
  | .awaitVerdicts =>
    if m.summary.allSent then some (pure ⟨p.turnTo (.answer (p.accusations m)), none⟩) else none
  | .answer [] => some (pure ⟨p.turnTo .finished, none⟩)
  | .answer (accusation :: others) => some (pure (p.answer m accusation others))
  | .finished | .failed _ => none

/-- The next step of a participant, if it takes one. -/
def step (p : Participant S) (m : Mediator S) : Option (StateM ρ (Move S)) :=
  if p.isSilent then none else p.act m

/-! ### Running -/

/-- Nearer to the end: fewer tasks ahead, or fewer accusations to answer. -/
def Nearer (p q : Participant S) : Prop :=
  Prod.Lex (· < ·) (· < ·) (p.task.ahead, p.task.unanswered) (q.task.ahead, q.task.unanswered)

theorem nearer_of_ahead_lt {p q : Participant S} (h : p.task.ahead < q.task.ahead) :
    p.Nearer q := Prod.Lex.left _ _ h

theorem ahead_prepare_le (p : Participant S) (roster : List (Announcement S)) (r : ρ) :
    (p.prepare roster r).1.participant.task.ahead ≤ 6 := by
  have key : ∀ x : (Except Guardian.Error Unit × Guardian S) × ρ,
      ((match x.1 with
        | (.ok _, g) => (return ⟨{ p with guardian := g, task := .sendShares }, none⟩ :
            StateM ρ (Move S))
        | (.error e, g) => return ⟨{ p with guardian := g, task := .failed e }, none⟩)
        x.2).1.participant.task.ahead ≤ 6 := by
    rintro ⟨⟨_ | _, _⟩, _⟩
    · exact Nat.zero_le 6
    · exact Nat.le_refl 6
  exact key ((roster.foldl Guardian.learn p.guardian).dealShares r)

theorem task_answer (p : Participant S) (m : Mediator S) (a : Pair) (others : List Pair) :
    (p.answer m a others).participant.task = .answer others := by
  unfold answer
  split <;> rfl

/-- A step brings a participant nearer to its end. -/
theorem act_nearer {p : Participant S} {m : Mediator S} {x : StateM ρ (Move S)}
    (h : p.act m = some x) (r : ρ) : (x r).1.participant.Nearer p := by
  unfold act at h
  split at h
  all_goals rename_i ht
  · cases h
    exact nearer_of_ahead_lt (by rw [ht]; exact Nat.lt_succ_self 7)
  · obtain ⟨roster, -, rfl⟩ := Option.map_eq_some_iff.mp h
    have := ahead_prepare_le p roster r
    exact nearer_of_ahead_lt (by rw [ht]; exact Nat.lt_succ_of_le this)
  · cases h
    exact nearer_of_ahead_lt (by rw [ht]; exact Nat.lt_succ_self 5)
  · split at h
    · cases h
      exact nearer_of_ahead_lt (by rw [ht]; exact Nat.lt_succ_self 4)
    · cases h
  · cases h
    exact nearer_of_ahead_lt (by rw [ht]; exact Nat.lt_succ_self 3)
  · cases h
    exact nearer_of_ahead_lt (by rw [ht]; exact Nat.lt_succ_self 2)
  · split at h
    · cases h
      exact nearer_of_ahead_lt (by rw [ht]; exact Nat.lt_succ_self 1)
    · cases h
  · cases h
    exact nearer_of_ahead_lt (by rw [ht]; exact Nat.lt_succ_self 0)
  · rename_i accusation others
    cases h
    show Prod.Lex _ _ ((p.answer m accusation others).participant.task.ahead,
      (p.answer m accusation others).participant.task.unanswered) _
    rw [task_answer, ht]
    exact Prod.Lex.right _ (Nat.lt_succ_self _)
  · cases h
  · cases h

theorem step_nearer {p : Participant S} {m : Mediator S} {x : StateM ρ (Move S)}
    (h : p.step m = some x) (r : ρ) : (x r).1.participant.Nearer p := by
  unfold step at h
  split at h
  · cases h
  · exact act_nearer h r

/-- Takes steps until the participant waits or comes to its end. -/
def run (p : Participant S) (m : Mediator S) (r : ρ) : (Participant S × Mediator S) × ρ :=
  match _h : p.step m with
  | none => ((p, m), r)
  | some x => (x r).1.participant.run ((x r).1.applyTo m) (x r).2
termination_by (p.task.ahead, p.task.unanswered)
decreasing_by exact step_nearer _h r

end Participant

end Guardianship
