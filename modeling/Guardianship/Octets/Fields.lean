import Guardianship.Octets

/-!
# Length-prefixed fields

Several strings are joined into one by writing the length of each, as four octets with the least
significant first, before the string itself.  What is hashed or authenticated in a ceremony is
always such a sequence of fields, so that no two different sequences are confused.
-/

namespace Guardianship.Fields

/-- One field: its length in four octets, then its content. -/
def encodeField (field : Octets) : Octets := Octets.ofNatLE 4 field.length ++ field

/-- All fields, one after the other. -/
def encode (fields : List Octets) : Octets := fields.flatMap encodeField

@[simp] theorem encode_nil : encode [] = [] := rfl

@[simp] theorem encode_cons (field : Octets) (fields : List Octets) :
    encode (field :: fields) = encodeField field ++ encode fields := by
  simp [encode]

@[simp] theorem encode_append (fields more : List Octets) :
    encode (fields ++ more) = encode fields ++ encode more := by
  simp [encode]

end Guardianship.Fields
