import Guardianship.Json.DecodeError
import Guardianship.Json.Reader

/-!
# Messages as JSON

A codec writes the values of a type as JSON and reads them from documents.  Records are described
by a row of named fields, from which one writer and one reader are made for all of them: a record
is written as an object in the order of its row, and read from an object with its fields in any
order or from an array of its values in the order of the row.

The reader takes the fields as the document gives them, and the first error counts; a field that is
missing is reported after all others have been read, and fields without a name in the row are
passed over.
-/

namespace Guardianship

/-- How values of a type are written and read. -/
structure Codec (α : Type) where
  encode : α → Json
  decode : Origin → Document → Except DecodeError α

namespace Codec

variable {α β : Type}

/-- Turns the complaint of a part into that of the whole. -/
def orRefuse {ε : Type} (cause : ε → DecodeError) : Except ε α → Except DecodeError α
  | .ok a => .ok a
  | .error e => .error (cause e)

/-- A document that is none of those expected. -/
def unexpected (d : Document) (expected : String) : Except DecodeError α :=
  match d with
  | .unreadable _ fault _ => .error (.text fault)
  | .absent => .error (.text .truncated)
  | d => .error (.wrongType d expected)

/-! ### Single values -/

def decodeText : Document → Except DecodeError String
  | .string s => .ok s
  | d => unexpected d "a string"

def text : Codec String := ⟨.string, fun _ => decodeText⟩

/-- A count of 64 bits; `kind` is the word for it in messages. -/
def word (kind : String) : Codec UInt64 where
  encode := .natural
  decode
    | _, .number (.natural n) => .ok n
    | _, .number (.negative n) => .error (.negative n kind)
    | _, d => unexpected d kind

def flag : Codec Bool where
  encode := .bool
  decode
    | _, .bool b => .ok b
    | _, d => unexpected d "a boolean"

/-- A type whose values are written as another's, some of which may be refused. -/
def via (c : Codec α) (out : β → α) (from? : α → Except DecodeError β) : Codec β where
  encode b := c.encode (out b)
  decode origin d := do
    let a ← c.decode origin d
    from? a

/-- Octets in hexadecimal. -/
def octets : Codec Octets := text.via Hex.encode fun s => orRefuse .hex (Hex.decode s)

/-- A fixed number of octets in hexadecimal. -/
def block (n : Nat) : Codec (Block n) :=
  octets.via Block.octets fun xs =>
    match Block.ofOctets? xs with
    | some b => .ok b
    | none => .error (.blockLength xs.length)

/-! ### Lists and variants -/

/-- The items of a list up to the first that is refused. -/
def decodeItems (decode : Document → Except DecodeError α) :
    List Document → Except DecodeError (List α)
  | [] => .ok []
  | d :: rest => do
    let a ← decode d
    let as ← decodeItems decode rest
    return a :: as

def list (c : Codec α) : Codec (List α) where
  encode as := .array (as.map c.encode)
  decode
    | origin, .array items ending => do
      let as ← decodeItems (c.decode origin) items
      orRefuse .text (Document.checkEnding ending)
      return as
    | _, d => unexpected d "a sequence"

/-- The value with a name among the variants. -/
def decodeVariant (variants : List (String × α)) (name : String) : Except DecodeError α :=
  match variants.find? fun v => v.1 = name with
  | some v => .ok v.2
  | none => .error (.unknownVariant name (variants.map Prod.fst))

def decodeNothing : Document → Except DecodeError Unit
  | .null => .ok ()
  | d => unexpected d "unit"

/-- A variant in memory: its name, or an object with null under its name. -/
def decodeVariantValue (vs : List (String × α)) : Document → Except DecodeError α
  | .string s => decodeVariant vs s
  | .object [(key, d)] _ => do
    let name ← orRefuse .text (Document.keyName key)
    let a ← decodeVariant vs name
    decodeNothing d
    return a
  | .object _ _ => .error .notOneField
  | d => unexpected d "string or map"

/-- A variant in a text, where it goes wrong at the first character that does not belong. -/
def decodeVariantText (vs : List (String × α)) : Document → Except DecodeError α
  | .string s => decodeVariant vs s
  | .unreadable true fault _ => .error (.text fault)
  | .absent => .error (.text .truncated)
  | .object [] (.cut fault _) => .error (.text fault)
  | .object ((key, d) :: rest) ending => do
    let name ← orRefuse .text (Document.keyName key)
    let a ← decodeVariant vs name
    decodeNothing d
    match rest, ending with
    | [], .closed => return a
    | [], .cut fault false => throw (.text fault)
    | _, _ => throw (.text .malformed)
  | _ => .error (.text .malformed)

/-- One of several named values. -/
def variants (vs : List (String × α)) (name : α → String) : Codec α where
  encode a := .string (name a)
  decode
    | .text, d => decodeVariantText vs d
    | _, d => decodeVariantValue vs d

/-! ### Records -/

/-- A field of a record; a field with a default may be missing. -/
structure Field (α : Type) where
  name : String
  codec : Codec α
  default? : Option α

/-- The fields of a record, in the order in which it declares them. -/
inductive Row : List Type → Type 1
  | nil : Row []
  | cons {α : Type} {αs : List Type} (field : Field α) (rest : Row αs) : Row (α :: αs)

/-- The values of a record's fields. -/
def Values : List Type → Type
  | [] => Unit
  | α :: αs => α × Values αs

/-- The values that have been read so far. -/
def Slots : List Type → Type
  | [] => Unit
  | α :: αs => Option α × Slots αs

namespace Row

/-- Nothing has been read yet. -/
def empty : {αs : List Type} → Row αs → Slots αs
  | _, nil => ()
  | _, cons _ rest => (none, rest.empty)

def size : {αs : List Type} → Row αs → Nat
  | _, nil => 0
  | _, cons _ rest => rest.size + 1

def encode : {αs : List Type} → Row αs → Values αs → List (String × Json)
  | _, nil, _ => []
  | _, cons field rest, (a, as) => (field.name, field.codec.encode a) :: rest.encode as

/-- Reads the value of a field into its slot; a name that is not in the row passes over it. -/
def place (origin : Origin) : {αs : List Type} → Row αs → Slots αs → String → Document →
    Except DecodeError (Slots αs)
  | _, nil, slots, _, d => do
    orRefuse .text d.skip
    return slots
  | _, cons field rest, (slot, slots), name, d =>
    if field.name = name then
      match slot with
      | some _ => .error (.duplicateField name)
      | none => do
        let a ← field.codec.decode origin d
        return (some a, slots)
    else do
      let slots ← rest.place origin slots name d
      return (slot, slots)

/-- Reads the fields of an object one after the other. -/
def placeAll (origin : Origin) {αs : List Type} (row : Row αs) :
    List (Document × Document) → Slots αs → Except DecodeError (Slots αs)
  | [], slots => .ok slots
  | (key, d) :: rest, slots => do
    let name ← orRefuse .text (Document.keyName key)
    let slots ← row.place origin slots name d
    row.placeAll origin rest slots

/-- The record, once all fields have been read. -/
def complete : {αs : List Type} → Row αs → Slots αs → Except DecodeError (Values αs)
  | _, nil, _ => .ok ()
  | _, cons field rest, (slot, slots) =>
    match slot, field.default? with
    | some a, _ | none, some a => do
      let as ← rest.complete slots
      return (a, as)
    | none, none => .error (.missingField field.name)

/-- What items beyond the fields of a record mean. -/
def surplus (total : Nat) (ending : Ending) : Origin → List Document → Except DecodeError Unit
  | .memory, [] | .text, [] =>
    match ending with
    | .closed => .ok ()
    | .cut _ true => .error (.text .malformed)
    | .cut fault false => .error (.text fault)
  | .memory, _ :: _ => .error (.tooManyItems total)
  | .text, _ :: _ => .error (.text .malformed)
  | .settings, _ => .ok ()

/-- Reads the values of an array one after the other; `total` is the length of the array. -/
def fill (origin : Origin) (record : String) (total fields : Nat) (ending : Ending) :
    {αs : List Type} → Row αs → List Document → Except DecodeError (Values αs)
  | _, nil, ds => surplus total ending origin ds
  | _, cons field rest, d :: ds => do
    let a ← field.codec.decode origin d
    let as ← rest.fill origin record total fields ending ds
    return (a, as)
  | _, cons field rest, [] =>
    match ending, field.default? with
    | .cut fault _, _ => .error (.text fault)
    | .closed, some a => do
      let as ← rest.fill origin record total fields ending []
      return (a, as)
    | .closed, none => .error (.tooFewItems total record fields)

/-- The values of a record given as an object or as an array. -/
def decode (origin : Origin) {αs : List Type} (row : Row αs) (record : String) :
    Document → Except DecodeError (Values αs)
  | .object fields ending => do
    let slots ← row.placeAll origin fields row.empty
    orRefuse .text (Document.checkEnding ending)
    row.complete slots
  | .array items ending => row.fill origin record items.length row.size ending items
  | d => unexpected d s!"struct {record}"

end Row

/-- A field that has to be there. -/
def required (name : String) (c : Codec α) : Field α := ⟨name, c, none⟩

/-- A field that may be missing. -/
def optional (name : String) (c : Codec α) (default : α) : Field α := ⟨name, c, some default⟩

/-- A record with a name and a row of fields. -/
def record {αs : List Type} (name : String) (row : Row αs) (out : α → Values αs)
    (of : Values αs → α) : Codec α where
  encode a := .object (row.encode (out a))
  decode origin d := do
    let vs ← row.decode origin name d
    return of vs

/-! ### Whole messages -/

/-- Reads a message from a value in memory. -/
def ofJson (c : Codec α) (j : Json) : Except DecodeError α := c.decode .memory (.ofJson j)

/-- Reads a message from a text that holds nothing else. -/
def ofText (c : Codec α) (s : String) : Except DecodeError α := do
  let (d, more) := Document.ofText s
  let a ← c.decode .text d
  if more then throw (.text .malformed)
  return a

end Codec

end Guardianship
