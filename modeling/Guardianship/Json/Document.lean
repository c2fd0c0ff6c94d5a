import Guardianship.Json

/-!
# Documents

What a message is read from.  A document is a JSON value that may break off, because a text is read
from front to back: the errors of a text come out in the order of the text, whether they are errors
of form or of content.  A value that is already in memory never breaks off.

`Document.ofJson` is the document of a value and `Document.toJson` reads a document as a value.
-/

namespace Guardianship

/-- Why a text is no JSON: it goes wrong at some place, or it ends too early. -/
inductive Fault
  | malformed
  | truncated
deriving DecidableEq, Repr

/-- How an array or an object ends: with its bracket, or where its text breaks off, after a comma
or where a comma or a bracket was due. -/
inductive Ending
  | closed
  | cut (fault : Fault) (afterComma : Bool)
deriving DecidableEq, Repr

/-- Where a document comes from.  In memory the size of an array is known before its items are
read; settings leave items alone that nobody asks for; a text is read item by item. -/
inductive Origin
  | memory
  | settings
  | text
deriving DecidableEq, Repr

/-- A JSON value as its reader meets it. -/
inductive Document
  | null
  | bool (b : Bool)
  | number (n : Json.Number)
  | string (s : String)
  | array (items : List Document) (ending : Ending)
  | object (fields : List (Document × Document)) (ending : Ending)
  /-- Something without a value: the fault for one who wants it, and for one who skips it, if it
  is one to him too.  Only a string can be such a key. -/
  | unreadable (isString : Bool) (fault : Fault) (skipped : Option Fault)
  /-- The text ends before the value. -/
  | absent
deriving Inhabited

namespace Document

mutual

/-- The document of a value in memory. -/
def ofJson : Json → Document
  | .null => .null
  | .bool b => .bool b
  | .number n => .number n
  | .string s => .string s
  | .array items => .array (ofItems items) .closed
  | .object fields => .object (ofFields fields) .closed

def ofItems : List Json → List Document
  | [] => []
  | j :: rest => ofJson j :: ofItems rest

def ofFields : List (String × Json) → List (Document × Document)
  | [] => []
  | (name, j) :: rest => (.string name, ofJson j) :: ofFields rest

end

/-- The fault with which an array or an object ends. -/
def checkEnding : Ending → Except Fault Unit
  | .cut fault _ => .error fault
  | _ => .ok ()

/-- The name that a key stands for. -/
def keyName : Document → Except Fault String
  | .string s => .ok s
  | .unreadable true fault _ => .error fault
  | _ => .error .malformed

mutual

/-- The value of a document, if it has one. -/
def toJson : Document → Except Fault Json
  | .null => .ok .null
  | .bool b => .ok (.bool b)
  | .number n => .ok (.number n)
  | .string s => .ok (.string s)
  | .array items ending => do
    let js ← toItems items
    checkEnding ending
    return .array js
  | .object fields ending => do
    let fs ← toFields fields
    checkEnding ending
    return .object fs
  | .unreadable _ fault _ => .error fault
  | .absent => .error .truncated

def toItems : List Document → Except Fault (List Json)
  | [] => .ok []
  | d :: rest => do
    let j ← d.toJson
    let js ← toItems rest
    return j :: js

def toFields : List (Document × Document) → Except Fault (List (String × Json))
  | [] => .ok []
  | (key, d) :: rest => do
    let name ← keyName key
    let j ← d.toJson
    let fs ← toFields rest
    return (name, j) :: fs

end

mutual

/-- Passes over a document that nobody asks for. -/
def skip : Document → Except Fault Unit
  | .array items ending => do
    skipItems items
    checkEnding ending
  | .object fields ending => do
    skipFields fields
    checkEnding ending
  | .unreadable _ _ (some fault) => .error fault
  | .absent => .error .truncated
  | _ => .ok ()

def skipItems : List Document → Except Fault Unit
  | [] => .ok ()
  | d :: rest => do
    d.skip
    skipItems rest

def skipFields : List (Document × Document) → Except Fault Unit
  | [] => .ok ()
  | (key, d) :: rest => do
    match key with
    | .string _ => pure ()
    | .unreadable true _ none => pure ()
    | .unreadable true _ (some fault) => .error fault
    | _ => .error .malformed
    d.skip
    skipFields rest

end

end Document

end Guardianship
