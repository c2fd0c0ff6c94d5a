import Guardianship.Decimal.Binary64
import Guardianship.Toml.Reader

/-!
# Numbers and dates in settings

Whole numbers have 64 bits with a sign and may be written to the base of two, eight, ten or sixteen.
Floating point values and dates occur in no settings, but a text that holds one has to write it as
it is written everywhere.
-/

namespace Guardianship.Toml.Reader

/-! ### Digits -/

/-- One or more digits, with single underscores between them. -/
def digits (p : Char → Bool) : Reader (List Char) := do
  let first ← one p
  let others ← many do
    if ← has "_" then some <$> one p
    else
      match ← peek? with
      | some c => if p c then some <$> next else return none
      | none => return none
  return first :: others

def valueTo (base : Nat) (ds : List Char) : Nat :=
  ds.foldl (fun n c => base * n + (Hex.charValue? c).getD 0) 0

/-- A number of digits without underscores. -/
def exactly (count : Nat) : Reader Nat := do
  let ds ← (List.replicate count ()).mapM fun _ => one Char.isDigit
  return valueTo 10 ds

/-! ### Numbers -/

/-- A sign, if there is one; true below zero. -/
def sign : Reader Bool := do
  if ← has "-" then return true
  let _ ← has "+"
  return false

/-- One more than the greatest whole number, and minus the least. -/
def integerBound : Nat := UInt64.size / 2

/-- A whole number within bounds. -/
def integerOf (negative : Bool) (n : Nat) : Reader Toml :=
  if negative then if n ≤ integerBound then return .integer (-(n : Int)) else refuse
  else if n < integerBound then return .integer n else refuse

/-- Digits without zeros in front. -/
def wholeDigits : Reader (List Char) := do
  if ← has "0" then return ['0']
  digits Char.isDigit

/-- The least number that is too large for floating point. -/
def floatBound : Nat := (2 * Binary64.mantissaBound - 1) <<< 970

/-- Digits with a point before the last `places`, times a power of ten, are not too large for
floating point. -/
def isFinite (ds : List Char) (power : Int) : Bool :=
  let significant := ds.dropWhile (· = '0')
  let size : Int := significant.length + power
  if significant.isEmpty || size < 309 then true
  else if 309 < size then false
  else
    let n := valueTo 10 significant
    if 0 ≤ power then n * Nat.pow 10 power.toNat < floatBound
    else n < floatBound * Nat.pow 10 (-power).toNat

/-- The power of ten of a number, if it has one. -/
def exponent : Reader (Option Int) := do
  unless ← hasAny ["e", "E"] do return none
  let below ← sign
  let n := valueTo 10 (← digits Char.isDigit)
  return some (if below then -(n : Int) else n)

/-- The rest of a number to the base of ten after its sign. -/
def decimal (negative : Bool) : Reader Toml := do
  let whole ← wholeDigits
  let fraction ← if ← has "." then some <$> digits Char.isDigit else pure none
  let power ← exponent
  if fraction.isNone ∧ power.isNone then integerOf negative (valueTo 10 whole)
  else
    let places := fraction.getD []
    if negative || isFinite (whole ++ places) (power.getD 0 - places.length) then return .float
    else refuse

def number : Reader Toml := do
  if ← has "0x" then
    integerOf false (valueTo 16 (← digits fun c => (Hex.charValue? c).isSome))
  else if ← has "0o" then integerOf false (valueTo 8 (← digits fun c => '0' ≤ c && c ≤ '7'))
  else if ← has "0b" then integerOf false (valueTo 2 (← digits fun c => c = '0' || c = '1'))
  else
    let negative ← sign
    if ← hasAny ["inf", "nan"] then return .float
    decimal negative

/-! ### Dates -/

def isLeap (year : Nat) : Bool := year % 4 = 0 && (year % 100 ≠ 0 || year % 400 = 0)

def daysIn (year month : Nat) : Nat :=
  if month = 2 then if isLeap year then 29 else 28
  else if month = 4 ∨ month = 6 ∨ month = 9 ∨ month = 11 then 30
  else 31

/-- A number of two digits within bounds. -/
def twoDigits (least greatest : Nat) : Reader Unit := do
  let n ← exactly 2
  unless least ≤ n ∧ n ≤ greatest do refuse

def day : Reader Unit := do
  let year ← exactly 4
  expect "-"
  let month ← exactly 2
  unless 1 ≤ month ∧ month ≤ 12 do refuse
  expect "-"
  twoDigits 1 (daysIn year month)

/-- A time of day; there may be a sixtieth second. -/
def time : Reader Unit := do
  twoDigits 0 23
  expect ":"
  twoDigits 0 59
  expect ":"
  twoDigits 0 60
  if ← has "." then
    let _ ← one Char.isDigit
    let _ ← takeWhile Char.isDigit

/-- How far a time is from that of the zero meridian. -/
def offset : Reader Unit := do
  if ← hasAny ["Z", "z"] then return
  if ← hasAny ["+", "-"] then
    twoDigits 0 23
    expect ":"
    twoDigits 0 59

/-- The text begins with a number of digits and a mark after them. -/
def startsWith (count : Nat) (mark : Char) (cs : List Char) : Bool :=
  (cs.take count).length = count && (cs.take count).all Char.isDigit && cs[count]? = some mark

/-- A time after a date, if there is one. -/
def timeOfDay : Reader Unit := do
  match ← get with
  | c :: rest =>
    if (c = 'T' || c = 't' || c = ' ') && startsWith 2 ':' rest then
      let _ ← next
      time
      offset
  | [] => return

def numberOrDate : Reader Toml := do
  let start ← get
  let isDay := startsWith 4 '-' start
  if isDay || startsWith 2 ':' start then
    if isDay then
      day
      timeOfDay
    else time
    let rest ← get
    return .date (String.ofList (start.take (start.length - rest.length)))
  else number

end Guardianship.Toml.Reader
