/-!
# The terms of a ceremony

The name of a ceremony, how many guardians take part, and how many of them are later enough to
stand in for the others.
-/

namespace Guardianship

/-- What is fixed before a ceremony begins. -/
structure Terms where
  ceremonyId : String
  guardians : UInt64
  quorum : UInt64
deriving DecidableEq, Repr

namespace Terms

/-- Why there can be no ceremony on some terms. -/
inductive Error
  | noGuardians
  | quorum (quorum guardians : UInt64)
deriving DecidableEq, Repr

def Error.message : Error → String
  | noGuardians => "invalid ceremony details: at least one guardian is required"
  | quorum k n => s!"invalid ceremony details: invalid quorum {k} for {n} guardians"

/-- Terms with at least one guardian and a quorum of one to all of them. -/
def agree (ceremonyId : String) (guardians quorum : UInt64) : Except Error Terms :=
  if guardians = 0 then .error .noGuardians
  else if quorum = 0 ∨ guardians < quorum then .error (.quorum quorum guardians)
  else .ok ⟨ceremonyId, guardians, quorum⟩

/-- How many ordered pairs of different guardians there are, as a number of 64 bits at most. -/
def pairCount (t : Terms) : Nat :=
  min (t.guardians.toNat * (t.guardians.toNat - 1)) (UInt64.size - 1)

end Terms

end Guardianship
