import Guardianship.Octets.Hex
import Guardianship.Toml

/-!
# Reading settings character by character

A reader takes something from the front of a text, or finds that the text is not well formed.  Why
it is not makes no difference to anyone, so a reader that fails says nothing.  Here are the readers
of single characters, of blanks and comments, of strings, and of keys.
-/

namespace Guardianship.Toml

abbrev Reader := StateT (List Char) Option

namespace Reader

def refuse {α : Type} : Reader α := fun _ => none

/-- What comes next; nothing at the end of the text. -/
def peek? : Reader (Option Char) := fun cs => some (cs.head?, cs)

def next : Reader Char
  | [] => none
  | c :: cs => some (c, cs)

/-- Takes the characters in front that are of a kind. -/
def takeWhile (p : Char → Bool) : Reader (List Char) := fun cs =>
  some (cs.takeWhile p, cs.dropWhile p)

/-- Takes a word, if it comes next. -/
def has (word : String) : Reader Bool := fun cs =>
  let w := word.toList
  if w.isPrefixOf cs then some (true, cs.drop w.length) else some (false, cs)

def expect (word : String) : Reader Unit := do
  unless ← has word do refuse

/-- Takes the first of some words that comes next. -/
def hasAny : List String → Reader Bool
  | [] => return false
  | word :: others => do
    if ← has word then return true
    hasAny others

/-- Takes a character of a kind. -/
def one (p : Char → Bool) : Reader Char := do
  let c ← next
  if p c then return c else refuse

/-- Reads things as long as there are any, at most a given number of times. -/
def manyWithin {α : Type} (step : Reader (Option α)) : Nat → Reader (List α)
  | 0 => refuse
  | limit + 1 => do
    match ← step with
    | none => return []
    | some a => return a :: (← manyWithin step limit)

/-- Reads things as long as there are any; each of them takes a character. -/
def many {α : Type} (step : Reader (Option α)) : Reader (List α) := fun cs =>
  manyWithin step (cs.length + 1) cs

/-! ### Blanks, line ends and comments -/

def isBlank (c : Char) : Bool := c = ' ' || c = '\t'

/-- Strings and comments hold no control characters but tabs. -/
def isText (c : Char) : Bool := c = '\t' || (32 ≤ c.toNat && c.toNat ≠ 127)

def blanks : Reader Unit := do
  let _ ← takeWhile isBlank

/-- Takes the end of a line, if it comes next. -/
def newline : Reader Bool := hasAny ["\n", "\r\n"]

def comment : Reader Unit := do
  if ← has "#" then
    let _ ← takeWhile isText

/-- What may stand at the end of a line. -/
def lineEnd : Reader Unit := do
  blanks
  comment
  unless (← peek?).isNone do
    unless ← newline do refuse

/-- Blanks, line ends and comments. -/
def gap : Reader Unit := do
  let _ ← many do
    match ← peek? with
    | some '#' => some <$> comment
    | some c =>
      if isBlank c then some <$> blanks
      else if ← newline then return some ()
      else return none
    | none => return none

/-! ### Strings -/

/-- The character with a number of hexadecimal digits for its code. -/
def code (digits : Nat) : Reader Char := do
  let vs ← (List.replicate digits ()).mapM fun _ => do
    match Hex.charValue? (← next) with
    | some v => pure v
    | none => refuse
  let n := vs.foldl (fun n v => 16 * n + v) 0
  if n.isValidChar then return Char.ofNat n else refuse

/-- The character of an escape after its backslash. -/
def escape : Reader Char := do
  match ← next with
  | '"' => return '"'
  | '\\' => return '\\'
  | 'b' => return Char.ofNat 8
  | 't' => return '\t'
  | 'n' => return '\n'
  | 'f' => return Char.ofNat 12
  | 'r' => return '\r'
  | 'u' => code 4
  | 'U' => code 8
  | _ => refuse

/-- A character of a string; between double quotes a backslash begins an escape. -/
def character (quote : Char) : Reader Char := do
  let c ← one isText
  if quote = '"' ∧ c = '\\' then escape else return c

/-- The rest of a string on one line after its opening quote. -/
def oneLine (quote : Char) : Reader String := do
  let cs ← many do
    if (← peek?) = some quote then return none
    some <$> character quote
  let _ ← next
  return String.ofList cs

/-- Passes over a backslash at the end of a line with all blanks and line ends after it. -/
def lineJoin : Reader Bool := do
  let start ← get
  if ← has "\\" then
    blanks
    if ← newline then
      let _ ← many do
        if ← newline then return some ()
        match ← peek? with
        | some c => if isBlank c then some <$> blanks else return none
        | none => return none
      return true
  set start
  return false

/-- What comes next in a string over several lines. -/
def piece (quote : Char) : Reader (List Char) := do
  if quote = '"' then
    if ← lineJoin then return []
  if ← newline then return ['\n']
  return [← character quote]

/-- The rest of a string over several lines after its three opening quotes.  A line end right after
them does not count, and of up to five quotes in a row the last three close the string. -/
def severalLines (quote : Char) : Reader String := do
  let _ ← newline
  let pieces ← many do
    let rest ← get
    let quotes := rest.takeWhile (· = quote)
    if 3 ≤ quotes.length then return none
    else if quotes.isEmpty then some <$> piece quote
    else some <$> takeWhile (· = quote)
  let quotes ← takeWhile (· = quote)
  if 5 < quotes.length then refuse
  return String.ofList (pieces.flatten ++ quotes.drop 3)

/-- A string with given quotes. -/
def string (quote : Char) : Reader String := do
  if ← has (String.ofList [quote, quote, quote]) then severalLines quote
  else
    let _ ← next
    oneLine quote

/-! ### Keys -/

def isBare (c : Char) : Bool := c.isAlphanum || c = '_' || c = '-'

/-- One part of a key. -/
def simpleKey : Reader String := do
  match ← peek? with
  | some '"' =>
    let _ ← next
    oneLine '"'
  | some '\'' =>
    let _ ← next
    oneLine '\''
  | _ =>
    let cs ← takeWhile isBare
    if cs.isEmpty then refuse
    return String.ofList cs

/-- The greatest depth of tables and arrays. -/
def depthLimit : Nat := 79

/-- The parts of a key before the last, and the last. -/
def key : Reader (List String × String) := do
  let part : Reader String := do
    blanks
    let k ← simpleKey
    blanks
    return k
  let first ← part
  let others ← many do
    if ← has "." then some <$> part else return none
  let parts := first :: others
  if depthLimit < parts.length then refuse
  return (parts.dropLast, others.getLastD first)

end Reader

end Guardianship.Toml
