import Guardianship.Json.Document
import Guardianship.Json.Number
import Guardianship.Octets.Hex

/-!
# Reading JSON text

A text is read once from front to back into a document.  Where it goes wrong the document breaks
off, and everything before that place is kept, so that an error of content that comes first in the
text is found first.  One who skips a part of the text is content with less than one who wants its
value: half a surrogate pair and a number that is too large are faults for the latter only.
-/

namespace Guardianship.Document.Reader

def isBlank (c : Char) : Bool := c = ' ' || c = '\n' || c = '\t' || c = '\r'

def dropBlanks (cs : List Char) : List Char := cs.dropWhile isBlank

/-- The fault of a text that does not go on as it must. -/
def missing : List Char → Fault
  | [] => .truncated
  | _ :: _ => .malformed

/-- The text after the rest of a word. -/
def word : List Char → List Char → Except Fault (List Char)
  | [], cs => .ok cs
  | _ :: _, [] => .error .truncated
  | w :: ws, c :: cs => if w = c then word ws cs else .error .malformed

/-! ### Numbers -/

def digitValue (c : Char) : Nat := c.toNat - 48

/-- One or more digits; `fault` tells the fault if there is none. -/
def digits (fault : List Char → Fault) (cs : List Char) : Except Fault (List Nat × List Char) :=
  let ds := cs.takeWhile Char.isDigit
  let rest := cs.dropWhile Char.isDigit
  if ds.isEmpty then .error (fault rest) else .ok (ds.map digitValue, rest)

/-- A number as it is written. -/
def numeral (fault : List Char → Fault) (cs : List Char) :
    Except Fault (Json.Numeral × List Char) := do
  let (negative, cs) :=
    match cs with
    | '-' :: rest => (true, rest)
    | _ => (false, cs)
  let (whole, cs) ← digits fault cs
  if whole.head? = some 0 ∧ 1 < whole.length then throw .malformed
  let (fraction, cs) ←
    match cs with
    | '.' :: rest => do
      let (ds, rest) ← digits fault rest
      pure (some ds, rest)
    | _ => pure (none, cs)
  let (power, cs) ←
    match cs with
    | 'e' :: rest | 'E' :: rest => do
      let (below, rest) :=
        match rest with
        | '-' :: more => (true, more)
        | '+' :: more => (false, more)
        | _ => (false, rest)
      let (ds, rest) ← digits fault rest
      pure (some (below, ds), rest)
    | _ => pure (none, cs)
  return (⟨negative, whole, fraction, power⟩, cs)

/-! ### Strings -/

/-- Four hexadecimal digits; a text with fewer than four octets left ends too early. -/
def hexUnit (cs : List Char) : Except Fault (Nat × List Char) :=
  match (cs.take 4).mapM Hex.charValue? with
  | some [a, b, c, d] => .ok (((a * 16 + b) * 16 + c) * 16 + d, cs.drop 4)
  | _ =>
    if (String.ofList (cs.take 4)).utf8ByteSize < 4 then .error .truncated else .error .malformed

def isHigh (n : Nat) : Bool := 0xD800 ≤ n && n ≤ 0xDBFF

def isLow (n : Nat) : Bool := 0xDC00 ≤ n && n ≤ 0xDFFF

/-- The character of one escaped unit, or of two that form a pair. -/
def unicode (cs : List Char) : Except Fault (Char × List Char) := do
  let (n, cs) ← hexUnit cs
  if isLow n then throw .malformed
  else if isHigh n then
    match cs with
    | '\\' :: 'u' :: rest => do
      let (m, rest) ← hexUnit rest
      if isLow m then
        return (Char.ofNat (0x10000 + (n - 0xD800) * 0x400 + (m - 0xDC00)), rest)
      else throw .malformed
    | ['\\'] => throw .truncated
    | cs => throw (missing cs)
  else return (Char.ofNat n, cs)

/-- The character of an escape of one letter. -/
def letterEscape? (c : Char) : Option Char :=
  match c with
  | '"' => some '"'
  | '\\' => some '\\'
  | '/' => some '/'
  | 'b' => some (Char.ofNat 8)
  | 'f' => some (Char.ofNat 12)
  | 'n' => some '\n'
  | 'r' => some '\r'
  | 't' => some '\t'
  | _ => none

/-- The next character of a string, or nothing at its closing quote. -/
def element : List Char → Except Fault (Option Char × List Char)
  | [] => .error .truncated
  | '"' :: rest => .ok (none, rest)
  | '\\' :: 'u' :: rest => do
    let (c, rest) ← unicode rest
    return (some c, rest)
  | ['\\'] => .error .truncated
  | '\\' :: c :: rest =>
    match letterEscape? c with
    | some e => .ok (some e, rest)
    | none => .error .malformed
  | c :: rest => if c.toNat < 32 then .error .malformed else .ok (some c, rest)

/-- Passes over the next character of a string; false at its closing quote. -/
def skipElement : List Char → Except Fault (Bool × List Char)
  | '\\' :: 'u' :: rest => do
    let (_, rest) ← hexUnit rest
    return (true, rest)
  | cs => do
    let (c, rest) ← element cs
    return (c.isSome, rest)

/-- The characters up to the closing quote; each step takes at least one character. -/
def characters : Nat → List Char → List Char → Except Fault (String × List Char)
  | 0, _, _ => .error .truncated
  | fuel + 1, cs, done =>
    match element cs with
    | .error fault => .error fault
    | .ok (none, rest) => .ok (String.ofList done.reverse, rest)
    | .ok (some c, rest) => characters fuel rest (c :: done)

def skipCharacters : Nat → List Char → Except Fault (List Char)
  | 0, _ => .error .truncated
  | fuel + 1, cs =>
    match skipElement cs with
    | .error fault => .error fault
    | .ok (false, rest) => .ok rest
    | .ok (true, rest) => skipCharacters fuel rest

/-! ### Values

Each reader gives a document and what follows it, or nothing where the text breaks off. -/

/-- A document and the text after it. -/
abbrev Reading := Document × Option (List Char)

/-- The text breaks off here, for everyone. -/
def stop (fault : Fault) : Reading := (.unreadable false fault (some fault), none)

/-- Reads something of which one who skips it may be content with less. -/
def orSkip (isString : Bool) (wanted : Except Fault (Document × List Char))
    (skipped : Except Fault (List Char)) : Reading :=
  match wanted, skipped with
  | .ok (d, rest), _ => (d, some rest)
  | .error fault, .ok rest => (.unreadable isString fault none, some rest)
  | .error fault, .error other => (.unreadable isString fault (some other), none)

def string (cs : List Char) : Reading :=
  let fuel := cs.length + 1
  orSkip true ((characters fuel cs []).map fun (s, rest) => (.string s, rest))
    (skipCharacters fuel cs)

def number (cs : List Char) : Reading :=
  let wanted : Except Fault (Document × List Char) := do
    let (n, rest) ← numeral missing cs
    match n.value? with
    | some v => return (.number v, rest)
    | none => throw .malformed
  orSkip false wanted ((numeral (fun _ => .malformed) cs).map Prod.snd)

def constant (d : Document) (w : List Char) (cs : List Char) : Reading :=
  match word w cs with
  | .ok rest => (d, some rest)
  | .error fault => stop fault

mutual

/-- A value; `fuel` bounds the steps of the three readers together. -/
def value : Nat → List Char → Reading
  | 0, _ => stop .malformed
  | fuel + 1, cs =>
    match dropBlanks cs with
    | [] => (.absent, none)
    | '"' :: rest => string rest
    | '[' :: rest => items fuel rest [] true
    | '\x7b' :: rest => fields fuel rest [] true
    | 't' :: rest => constant (.bool true) ['r', 'u', 'e'] rest
    | 'f' :: rest => constant (.bool false) ['a', 'l', 's', 'e'] rest
    | 'n' :: rest => constant .null ['u', 'l', 'l'] rest
    | c :: rest => if c = '-' || c.isDigit then number (c :: rest) else stop .malformed

/-- The items of an array after its opening bracket. -/
def items : Nat → List Char → List Document → Bool → Reading
  | 0, _, done, _ => (.array done.reverse (.cut .malformed false), none)
  | fuel + 1, cs, done, first =>
    let item (cs : List Char) : Reading :=
      match value fuel cs with
      | (d, some rest) => items fuel rest (d :: done) false
      | (d, none) => (.array (d :: done).reverse (.cut .malformed false), none)
    match dropBlanks cs with
    | [] => (.array done.reverse (.cut .truncated false), none)
    | ']' :: rest => (.array done.reverse .closed, some rest)
    | c :: rest =>
      if first then item (c :: rest)
      else if c = ',' then
        match dropBlanks rest with
        | [] => (.array done.reverse (.cut .truncated true), none)
        | ']' :: _ => (.array done.reverse (.cut .malformed true), none)
        | rest => item rest
      else (.array done.reverse (.cut .malformed false), none)

/-- The fields of an object after its opening bracket. -/
def fields : Nat → List Char → List (Document × Document) → Bool → Reading
  | 0, _, done, _ => (.object done.reverse (.cut .malformed false), none)
  | fuel + 1, cs, done, first =>
    let broken (key d : Document) : Reading :=
      (.object ((key, d) :: done).reverse (.cut .malformed false), none)
    let content (key : Document) (cs : List Char) : Reading :=
      match dropBlanks cs with
      | ':' :: rest =>
        match value fuel rest with
        | (d, some rest) => fields fuel rest ((key, d) :: done) false
        | (d, none) => broken key d
      | [] => broken key .absent
      | _ => broken key (stop .malformed).1
    let field (cs : List Char) : Reading :=
      match cs with
      | '"' :: rest =>
        match string rest with
        | (key, some rest) => content key rest
        | (key, none) => broken key .null
      | _ => broken (stop .malformed).1 .null
    match dropBlanks cs with
    | [] => (.object done.reverse (.cut .truncated false), none)
    | '\x7d' :: rest => (.object done.reverse .closed, some rest)
    | c :: rest =>
      if first then field (c :: rest)
      else if c = ',' then
        match dropBlanks rest with
        | [] => (.object done.reverse (.cut .truncated true), none)
        | '\x7d' :: _ => (.object done.reverse (.cut .malformed true), none)
        | rest => field rest
      else (.object done.reverse (.cut .malformed false), none)

end

end Guardianship.Document.Reader

namespace Guardianship.Document

/-- The document at the beginning of a text, and whether anything but blanks follows it. -/
def ofText (s : String) : Document × Bool :=
  let cs := s.toList
  match Reader.value (2 * cs.length + 2) cs with
  | (d, some rest) => (d, !(Reader.dropBlanks rest).isEmpty)
  | (d, none) => (d, false)

end Guardianship.Document

namespace Guardianship

/-- The value that a whole text stands for. -/
def Json.parse (s : String) : Except Fault Json :=
  match Document.ofText s with
  | (d, more) => do
    let j ← d.toJson
    if more then throw .malformed
    return j

end Guardianship
