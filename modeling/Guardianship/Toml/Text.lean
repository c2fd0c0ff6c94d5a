import Guardianship.Toml.Number

/-!
# The text of settings

A text is read line by line: headers open tables, and every other line that is not empty writes a
value under a key.  `Toml.ofText?` is the table of a whole text.
-/

namespace Guardianship.Toml

namespace Reader

/-! ### Values -/

/-- A value that holds no others. -/
def scalar : Reader Toml := do
  match ← peek? with
  | some '"' => .string <$> string '"'
  | some '\'' => .string <$> string '\''
  | some 't' =>
    expect "true"
    return .boolean true
  | some 'f' =>
    expect "false"
    return .boolean false
  | _ => numberOrDate

/-- An array of items, in which lines may end and a comma may follow the last item. -/
def array (item : Reader Toml) : Reader Toml := do
  expect "["
  let items ← many do
    gap
    if (← peek?) = some ']' then return none
    let v ← item
    gap
    unless ← has "," do
      unless (← peek?) = some ']' do refuse
    return some v
  gap
  expect "]"
  return .array items

/-- A key and the value after it. -/
def entry (item : Reader Toml) : Reader ((List String × String) × Toml) := do
  let k ← key
  expect "="
  blanks
  return (k, ← item)

/-- Writes an entry into a table in one line. -/
def addInline (es : Entries) (e : (List String × String) × Toml) : Reader Entries :=
  assign e.1.2 e.2 .inline false e.1.1 es

/-- A table in one line. -/
def inlineTable (item : Reader Toml) : Reader Toml := do
  expect "\x7b"
  blanks
  if ← has "\x7d" then return .table .inline []
  let entryAndBlanks := do
    let e ← entry item
    blanks
    return e
  let first ← entryAndBlanks
  let others ← many do
    if ← has "," then some <$> entryAndBlanks else return none
  expect "\x7d"
  let es ← (first :: others).foldlM addInline []
  return .table .inline es

/-- A value in which arrays and tables go no deeper than a given depth. -/
def value : Nat → Reader Toml
  | 0 => scalar
  | depth + 1 => do
    match ← peek? with
    | some '[' => array (value depth)
    | some '\x7b' => inlineTable (value depth)
    | _ => scalar

/-! ### Lines -/

/-- What has been read: the table as it is, and the keys of the header before. -/
structure Page where
  header : List String
  entries : Entries

/-- A header in single or double brackets. -/
def headerLine (p : Page) : Reader Page := do
  let double ← has "[["
  unless double do expect "["
  let (path, last) ← key
  expect (if double then "]]" else "]")
  lineEnd
  let es ← under (if double then openNext last else openTable last) path p.entries
  return ⟨path ++ [last], es⟩

def entryLine (p : Page) : Reader Page := do
  let ((path, last), v) ← entry (value depthLimit)
  lineEnd
  let es ← under (assign last v .header false path) p.header p.entries
  return { p with entries := es }

def line (p : Page) : Reader Page := do
  blanks
  match ← peek? with
  | some '[' => headerLine p
  | some '#' | some '\n' | some '\r' =>
    lineEnd
    return p
  | some _ => entryLine p
  | none => return p

/-- Reads lines up to the end of the text, at most a given number of them. -/
def lines : Nat → Page → Reader Page
  | 0, _ => refuse
  | limit + 1, p => do
    if (← peek?).isNone then return p
    lines limit (← line p)

/-- A whole text, which may begin with a mark of its byte order. -/
def page : Reader Page := do
  let _ ← has "\ufeff"
  let cs ← get
  lines (cs.length + 1) ⟨[], []⟩

end Reader

/-- The table that a whole text stands for, if it is well formed. -/
def ofText? (s : String) : Option Toml :=
  (Reader.page.run' s.toList).map fun p => .table .header p.entries

end Guardianship.Toml
