import Guardianship.Participant
import Guardianship.Settings

/-!
# Ceremonies

All participants of a ceremony around one mediator.  `Step` and `Reachable` say what may happen if
the participants take their steps in any order.  `rounds` is the order in which they take them when
they share one clock: everyone in turn goes on until it has to wait, and all of them ask for news
again after the same interval, until nothing moves any more or time is up.

`hold` runs a whole ceremony by its settings and makes the report on it.

Main statement: what the clock comes to may happen (`reachable_rounds`).
-/

namespace Guardianship

variable {S : Suite} {ρ : Type} [RandomSource ρ]

/-- A mediator and the participants around it. -/
structure Ceremony (S : Suite) where
  mediator : Mediator S
  participants : List (Participant S)

namespace Ceremony

/-- The ceremony of some guardians that have not begun. -/
def start (mediator : String) (terms : Terms) (guardians : List (Guardian S × Conduct S)) :
    Ceremony S :=
  ⟨.start mediator terms, guardians.map fun g => .ofGuardian g.1 g.2⟩

/-- Everyone has finished. -/
def isOver (c : Ceremony S) : Bool := c.participants.all fun p => p.task = .finished

/-- What everyone has done who has finished. -/
def outcomes (c : Ceremony S) : List (Option Outcome) :=
  c.participants.map Participant.outcome?

/-! ### Any order of steps -/

/-- One of the participants takes a step, with whatever it draws. -/
inductive Step : Ceremony S → Ceremony S → Prop
  | take {ρ : Type} [RandomSource ρ] {m : Mediator S} {p : Participant S}
      {before after : List (Participant S)} {x : StateM ρ (Participant.Move S)}
      (taken : p.step m = some x) (r : ρ) :
      Step ⟨m, before ++ p :: after⟩
        ⟨(x r).1.applyTo m, before ++ (x r).1.participant :: after⟩

/-- What a ceremony may come to after any number of steps. -/
inductive Reachable (c : Ceremony S) : Ceremony S → Prop
  | refl : Reachable c c
  | step {d e : Ceremony S} (reached : Reachable c d) (next : Step d e) : Reachable c e

/-! ### One clock -/

/-- Each of some participants goes on until it has to wait. -/
def turns : List (Participant S) → Mediator S → StateM ρ (List (Participant S) × Mediator S)
  | [], m => return ([], m)
  | p :: others, m => do
    let (p, m) ← p.run m
    let (others, m) ← turns others m
    return (p :: others, m)

/-- Everyone in turn goes on until it has to wait. -/
def round (c : Ceremony S) : StateM ρ (Ceremony S) := do
  let (participants, mediator) ← turns c.participants c.mediator
  return ⟨mediator, participants⟩

/-- How many tasks lie ahead of all participants together. -/
def ahead (c : Ceremony S) : Nat := c.participants.foldl (fun n p => n + p.task.ahead) 0

/-- Rounds at equal intervals until nothing moves any more or time is up, if there is a limit to
it.  Nobody takes a turn at the moment when time is up. -/
def rounds (interval : Nat) (limit? : Option Nat) (now : Nat) (c : Ceremony S) :
    StateM ρ (Ceremony S) := do
  if limit?.all (now < ·) then
    let d ← c.round
    if d.ahead < c.ahead then rounds interval limit? (now + interval) d else return d
  else return c
termination_by c.ahead

/-! ### What the clock comes to may happen -/

theorem Reachable.trans {c d e : Ceremony S} (hd : Reachable c d) (he : Reachable d e) :
    Reachable c e := by
  induction he with
  | refl => exact hd
  | step _ next ih => exact ih.step next

theorem reachable_run (before after : List (Participant S)) (p : Participant S) (m : Mediator S)
    (r : ρ) :
    Reachable ⟨m, before ++ p :: after⟩
      ⟨(p.run m r).1.2, before ++ (p.run m r).1.1 :: after⟩ := by
  fun_induction Participant.run p m r with
  | case1 => exact .refl
  | case2 p m r x taken ih => exact Reachable.trans (Reachable.refl.step (.take taken r)) ih

theorem reachable_turns (before ps : List (Participant S)) (m : Mediator S) (r : ρ) :
    Reachable ⟨m, before ++ ps⟩ ⟨(turns ps m r).1.2, before ++ (turns ps m r).1.1⟩ := by
  induction ps generalizing before m r with
  | nil => exact .refl
  | cons p ps ih =>
    have hp := reachable_run before ps p m r
    have hps := ih (before ++ [(p.run m r).1.1]) (p.run m r).1.2 (p.run m r).2
    simp only [List.append_assoc, List.singleton_append] at hps
    exact hp.trans hps

theorem reachable_round (c : Ceremony S) (r : ρ) : Reachable c (c.round r).1 :=
  reachable_turns [] c.participants c.mediator r

/-- Rounds by the clock are one of the orders in which steps may be taken. -/
theorem reachable_rounds (interval : Nat) (limit? : Option Nat) (now : Nat) (c : Ceremony S)
    (r : ρ) : Reachable c (c.rounds interval limit? now r).1 := by
  induction hn : c.ahead using Nat.strongRecOn generalizing now c r with
  | _ n ih =>
    subst hn
    unfold rounds
    split
    · have key : Reachable c ((if (c.round r).1.ahead < c.ahead
          then rounds interval limit? (now + interval) (c.round r).1
          else pure (c.round r).1 : StateM ρ (Ceremony S)) (c.round r).2).1 := by
        split
        · rename_i h
          exact (reachable_round c r).trans (ih _ h _ _ _ rfl)
        · exact reachable_round c r
      exact key
    · exact .refl

/-! ### By settings -/

/-- Why there is no report. -/
inductive Error
  | terms (cause : Terms.Error)
  | guardian (cause : Guardian.Error)
  | timeout (ceremonyId : String) (seconds : UInt64) (stage : Stage)
deriving DecidableEq, Repr

def Error.message : Error → String
  | terms cause => cause.message
  | guardian cause => cause.message
  | timeout ceremonyId seconds stage =>
    s!"ceremony {ceremonyId} did not complete within {seconds}s (stage: {stage.label})"

/-- The guardian at a place in the order, counted from one. -/
def guardianName (place : Nat) : String := s!"guardian-{place}"

/-- Draws the secrets of guardians, one after the other, each with its name and order. -/
def drawGuardians (terms : Terms) :
    List (String × UInt64) → StateM ρ (Except Guardian.Error (List (Guardian S)))
  | [] => return .ok []
  | (id, order) :: others => do
    match ← Guardian.create id order terms with
    | .error e => return .error e
    | .ok g =>
      match ← drawGuardians terms others with
      | .error e => return .error e
      | .ok gs => return .ok (g :: gs)

/-- The names and orders of as many guardians as take part. -/
def roster (terms : Terms) : List (String × UInt64) :=
  (List.range terms.guardians.toNat).map fun i => (guardianName (i + 1), (i + 1).toUInt64)

/-- Why the work of some participant came to nothing, if it did. -/
def failure? (c : Ceremony S) : Option Guardian.Error :=
  c.participants.findSome? fun p =>
    match p.task with
    | .failed cause => some cause
    | _ => none

/-- The report on a ceremony when its time is up. -/
def report (c : Ceremony S) (timeout : UInt64) : Except Error (Report S) :=
  let m := c.mediator
  match c.failure?, m.jointKey? with
  | some cause, _ => .error (.guardian cause)
  | none, some key =>
    if c.isOver then
      .ok ⟨m.terms.ceremonyId, m.id, m.terms.guardians, m.terms.quorum, m.stage, key,
        m.disclosures.size.toUInt64, c.outcomes.filterMap id⟩
    else .error (.timeout m.terms.ceremonyId timeout m.stage)
  | none, none => .error (.timeout m.terms.ceremonyId timeout m.stage)

/-- Holds a ceremony of honest guardians. -/
def hold (s : Settings) : StateM ρ (Except Error (Report S)) := do
  match s.terms with
  | .error e => return .error (.terms e)
  | .ok terms =>
    match ← drawGuardians terms (roster terms) with
    | .error e => return .error (.guardian e)
    | .ok guardians =>
      let c := start s.roles.mediator terms (guardians.map fun g => (g, .honest))
      let c ← c.rounds s.pace.interval.toNat s.pace.limit? 0
      return c.report s.pace.timeout

end Ceremony

end Guardianship
