import Guardianship.Event
import Guardianship.Guardian

/-!
# A guardian's journal

Which events the work of a guardian gives rise to.
-/

namespace Guardianship

variable {S : Suite}

/-- The events of opening a share. -/
def SealedShare.events (s : SealedShare S) (secret : Block 32) : List Event :=
  match s.reveal secret with
  | .ok _ => []
  | .error cause => [.unopened s.owner s.recipient cause]

namespace Guardian

/-- The events of having dealt shares. -/
def dealEvents (g : Guardian S) : List Event := [.dealt g.id g.dealt.size]

def acceptEvents (g : Guardian S) (s : SealedShare S) : List Event :=
  if s.recipient = g.id then [] else [.misaddressed g.id s.recipient]

/-- The events of judging a share. -/
def judgeEvents (g : Guardian S) (s : SealedShare S) : List Event :=
  s.events g.secret ++ if (g.judge s).good then [] else [.refused g.id s.owner]

/-- The events of judging all shares received. -/
def verdictEvents (g : Guardian S) : List Event := g.received.values.flatMap g.judgeEvents

end Guardian

end Guardianship
