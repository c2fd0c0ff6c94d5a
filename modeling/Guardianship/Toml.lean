import Guardianship.Json.Document

/-!
# TOML values

What a settings file says, and how its tables grow line by line.  A table may be written in one
piece under a header or by keys with dots in them, but not in both ways, and nothing is written
twice.  So every table knows how it came about.
-/

namespace Guardianship

/-- How a table came about. -/
inductive Toml.Kind
  /-- By its own header. -/
  | header
  /-- By the header of a table inside it. -/
  | implied
  /-- By a key with dots. -/
  | dotted
  /-- In one line, after which it does not grow. -/
  | inline
deriving DecidableEq, Repr

/-- A value of a settings file. -/
inductive Toml
  | string (s : String)
  | integer (n : Int)
  | float
  | boolean (b : Bool)
  | date (text : String)
  | array (items : List Toml)
  | table (kind : Toml.Kind) (entries : List (String × Toml))
  /-- Tables with a common header in double brackets. -/
  | tables (ts : List (List (String × Toml)))
deriving Inhabited

namespace Toml

abbrev Entries := List (String × Toml)

def find? (key : String) (es : Entries) : Option Toml := (es.find? fun e => e.1 = key).map Prod.snd

/-- Puts another value in the place of the one with a key. -/
def replace (key : String) (v : Toml) (es : Entries) : Entries :=
  es.map fun e => if e.1 = key then (key, v) else e

/-! ### Growing tables -/

/-- Changes the table under the keys of a header, making those that are missing.  Below tables with
a common header the last one grows. -/
def under (f : Entries → Option Entries) : List String → Entries → Option Entries
  | [], es => f es
  | key :: path, es =>
    match find? key es with
    | none => (under f path []).map fun inner => es ++ [(key, table .implied inner)]
    | some (table .inline _) => none
    | some (table kind inner) =>
      (under f path inner).map fun inner => replace key (table kind inner) es
    | some (tables ts) =>
      (under f path (ts.getLast?.getD [])).map fun last =>
        replace key (tables (ts.dropLast ++ [last])) es
    | some _ => none

/-- Opens the table of a header. -/
def openTable (key : String) (es : Entries) : Option Entries :=
  match find? key es with
  | none => some (es ++ [(key, table .header [])])
  | some (table .implied inner) => some (replace key (table .header inner) es)
  | some _ => none

/-- Opens one more table of a header in double brackets. -/
def openNext (key : String) (es : Entries) : Option Entries :=
  match find? key es with
  | none => some (es ++ [(key, tables [[]])])
  | some (tables ts) => some (replace key (tables (ts ++ [[]])) es)
  | some _ => none

/-- Writes a value under the keys of a dotted key; `kind` is that of the table with the entries.
A dotted key reaches only tables that came about in this way. -/
def assign (key : String) (v : Toml) (kind : Kind) (nested : Bool) :
    List String → Entries → Option Entries
  | [], es =>
    if nested = (kind = .dotted) ∧ (find? key es).isNone then some (es ++ [(key, v)]) else none
  | step :: path, es =>
    match find? step es with
    | none => (assign key v .dotted true path []).map fun inner => es ++ [(step, table .dotted inner)]
    | some (table .header _) | some (table .inline _) => none
    | some (table kind inner) =>
      (assign key v kind true path inner).map fun inner => replace step (table kind inner) es
    | some (tables ts) =>
      (assign key v .header true path (ts.getLast?.getD [])).map fun last =>
        replace step (tables (ts.dropLast ++ [last])) es
    | some _ => none

/-! ### As a document -/

mutual

/-- The document of a value.  A date is an object with a field that no record has, and a float has
no value, since settings hold none. -/
def toDocument : Toml → Document
  | .string s => .string s
  | .integer n =>
    if n < 0 then .number (.negative n.natAbs) else .number (.natural n.natAbs.toUInt64)
  | .float => .unreadable false .malformed none
  | .boolean b => .bool b
  | .date text => .object [(.string "$date", .string text)] .closed
  | .array items => .array (itemDocuments items) .closed
  | .table _ entries => .object (entryDocuments entries) .closed
  | .tables ts => .array (tableDocuments ts) .closed

def itemDocuments : List Toml → List Document
  | [] => []
  | v :: rest => v.toDocument :: itemDocuments rest

def entryDocuments : List (String × Toml) → List (Document × Document)
  | [] => []
  | (key, v) :: rest => (.string key, v.toDocument) :: entryDocuments rest

def tableDocuments : List (List (String × Toml)) → List Document
  | [] => []
  | es :: rest => .object (entryDocuments es) .closed :: tableDocuments rest

end

end Toml

end Guardianship
