import Guardianship.Decimal.Shortest

/-!
# JSON values

The values that messages are made of.  Whole numbers of up to 64 bits are kept apart from floating
point values, because only they are counts and positions.  Objects are lists of fields in the
order in which they were written; `sorted` brings them into the order of their keys, where the
last field of a name is the one that counts.
-/

namespace Guardianship

/-- A number: whole and not negative, minus a whole number, or a floating point value. -/
inductive Json.Number
  | natural (n : UInt64)
  | negative (magnitude : Nat)
  | float (x : Binary64)
deriving DecidableEq, Repr

/-- A JSON value. -/
inductive Json
  | null
  | bool (b : Bool)
  | number (n : Json.Number)
  | string (s : String)
  | array (items : List Json)
  | object (fields : List (String × Json))
deriving Inhabited

namespace Json

def natural (n : UInt64) : Json := .number (.natural n)

/-- The value of the first field with a name. -/
def field? (name : String) : Json → Option Json
  | object fields => (fields.find? fun f => f.1 = name).map Prod.snd
  | _ => none

/-! ### Fields in the order of their names -/

/-- Puts a field into fields ordered by name, in place of one with the same name. -/
def insertField (name : String) (value : Json) : List (String × Json) → List (String × Json)
  | [] => [(name, value)]
  | (n, v) :: rest =>
    if name < n then (name, value) :: (n, v) :: rest
    else if name = n then (name, value) :: rest
    else (n, v) :: insertField name value rest

mutual

/-- The same value with all fields ordered by name, the last one of each name. -/
def sorted : Json → Json
  | array items => .array (sortedItems items)
  | object fields => .object (sortedFields fields [])
  | j => j

def sortedItems : List Json → List Json
  | [] => []
  | j :: rest => j.sorted :: sortedItems rest

def sortedFields : List (String × Json) → List (String × Json) → List (String × Json)
  | [], done => done
  | (name, value) :: rest, done => sortedFields rest (insertField name value.sorted done)

end

/-! ### Text -/

def Number.text : Number → String
  | .natural n => toString n.toNat
  | .negative n => "-" ++ toString n
  | .float x => x.text

/-- The characters of a string between its quotes. -/
def escape (c : Char) : List Char :=
  if c = '"' then ['\\', '"']
  else if c = '\\' then ['\\', '\\']
  else if c = '\n' then ['\\', 'n']
  else if c = '\r' then ['\\', 'r']
  else if c = '\t' then ['\\', 't']
  else if c.toNat = 8 then ['\\', 'b']
  else if c.toNat = 12 then ['\\', 'f']
  else if c.toNat < 32 then
    ['\\', 'u', '0', '0', Nat.digitChar (c.toNat / 16), Nat.digitChar (c.toNat % 16)]
  else [c]

def quote (s : String) : String :=
  String.ofList ('"' :: s.toList.flatMap escape ++ ['"'])

mutual

/-- The text of a value on one line. -/
def compact : Json → String
  | null => "null"
  | bool b => if b then "true" else "false"
  | number n => n.text
  | string s => quote s
  | array items => "[" ++ compactItems items ++ "]"
  | object fields => "\x7b" ++ compactFields fields ++ "\x7d"

def compactItems : List Json → String
  | [] => ""
  | [j] => j.compact
  | j :: rest => j.compact ++ "," ++ compactItems rest

def compactFields : List (String × Json) → String
  | [] => ""
  | [(name, j)] => quote name ++ ":" ++ j.compact
  | (name, j) :: rest => quote name ++ ":" ++ j.compact ++ "," ++ compactFields rest

end

/-- A new line at a depth of nesting, two blanks for each level. -/
def newline (depth : Nat) : String := "\n" ++ String.ofList (List.replicate (2 * depth) ' ')

mutual

/-- The text of a value with one item or field to a line. -/
def pretty (depth : Nat) : Json → String
  | null => "null"
  | bool b => if b then "true" else "false"
  | number n => n.text
  | string s => quote s
  | array [] => "[]"
  | array (j :: rest) =>
    "[" ++ newline (depth + 1) ++ j.pretty (depth + 1) ++ prettyItems depth rest ++ "]"
  | object [] => "\x7b\x7d"
  | object ((name, j) :: rest) =>
    "\x7b" ++ newline (depth + 1) ++ quote name ++ ": " ++ j.pretty (depth + 1)
      ++ prettyFields depth rest ++ "\x7d"

def prettyItems (depth : Nat) : List Json → String
  | [] => newline depth
  | j :: rest => "," ++ newline (depth + 1) ++ j.pretty (depth + 1) ++ prettyItems depth rest

def prettyFields (depth : Nat) : List (String × Json) → String
  | [] => newline depth
  | (name, j) :: rest =>
    "," ++ newline (depth + 1) ++ quote name ++ ": " ++ j.pretty (depth + 1)
      ++ prettyFields depth rest

end

end Json

end Guardianship
