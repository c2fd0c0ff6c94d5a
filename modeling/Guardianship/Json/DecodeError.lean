import Guardianship.EncodingError
import Guardianship.Json.Document
import Guardianship.Octets.Hex
import Guardianship.Text.Quoted

/-!
# Why a message cannot be read

The causes for which a document is refused as a message, and their wording.  A fault of the text
itself has no wording, since all of its faults are alike to the reader of the message.
-/

namespace Guardianship

/-- Why a document is not the message that was expected. -/
inductive DecodeError
  | missingField (name : String)
  | duplicateField (name : String)
  /-- A value of another kind than expected. -/
  | wrongType (found : Document) (expected : String)
  /-- A negative number where a count is expected. -/
  | negative (magnitude : Nat) (expected : String)
  /-- An array with too few items for the fields of a record. -/
  | tooFewItems (count : Nat) (record : String) (fields : Nat)
  /-- An array with more items than a record has fields. -/
  | tooManyItems (count : Nat)
  | unknownVariant (name : String) (variants : List String)
  /-- An object where a variant is expected has not exactly one field. -/
  | notOneField
  | hex (e : Hex.Error)
  /-- Octets of a length that does not fit a key or a digest. -/
  | blockLength (length : Nat)
  | encoding (e : EncodingError)
  | text (fault : Fault)

/-- What a document is, as it is named in messages. -/
def Document.description : Document → String
  | .null => "null"
  | .bool b => if b then "boolean `true`" else "boolean `false`"
  | .number (.float x) => s!"floating point `{x.text}`"
  | .number n => s!"integer `{n.text}`"
  | .string s => "string " ++ Text.quoted s
  | .array _ _ => "sequence"
  | .object _ _ => "map"
  | .unreadable _ _ _ => "text"
  | .absent => "nothing"

/-- Names between backquotes, with commas between them. -/
def listed (names : List String) : String :=
  String.intercalate ", " (names.map fun n => s!"`{n}`")

/-- The wording of the complaint about a text that is not hexadecimal. -/
def Hex.Error.message : Hex.Error → String
  | .oddLength => "Odd number of digits"
  | .invalidDigit x position =>
    let c := Text.quotedChar (Char.ofNat x.toNat)
    s!"Invalid character {c} at position {position}"

namespace DecodeError

def message : DecodeError → String
  | missingField name => s!"missing field `{name}`"
  | duplicateField name => s!"duplicate field `{name}`"
  | wrongType found expected => s!"invalid type: {found.description}, expected {expected}"
  | negative n expected => s!"invalid value: integer `-{n}`, expected {expected}"
  | tooFewItems count record fields =>
    s!"invalid length {count}, expected struct {record} with {fields} elements"
  | tooManyItems count => s!"invalid length {count}, expected fewer elements in array"
  | unknownVariant name variants =>
    let names := listed variants
    s!"unknown variant `{name}`, expected one of {names}"
  | notOneField => "invalid value: map, expected map with a single key"
  | hex e => e.message
  | blockLength n => s!"Can't convert a Byte Vector of length {n} to the output type."
  | encoding e => e.message
  | text _ => ""

end DecodeError

end Guardianship
