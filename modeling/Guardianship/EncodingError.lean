/-!
# Octets that encode no scalar or element

The causes for which octets are refused as the encoding of a scalar or of a group element, and
their wording.
-/

namespace Guardianship

inductive EncodingError
  /-- A scalar has exactly 32 octets. -/
  | scalarLength (length : Nat)
  /-- A scalar is less than the order of the group. -/
  | scalarRange
  /-- The octets stand for no element of the group. -/
  | elementInvalid
  /-- The octets of the element lack their flags. -/
  | elementFlags
deriving DecidableEq, Repr

def EncodingError.message : EncodingError → String
  | scalarLength n => s!"invalid encoding: scalar must be 32 bytes, got {n}"
  | scalarRange => "invalid encoding: scalar: the input buffer contained invalid data"
  | elementInvalid => "invalid encoding: group element: the input buffer contained invalid data"
  | elementFlags => "invalid encoding: group element: the call expects empty flags"

end Guardianship
