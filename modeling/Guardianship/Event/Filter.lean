import Guardianship.Event

/-!
# Which events are shown

A filter is a list of directives with commas between them.  One that is the name of a level shows
all events that matter as much or more; the others are about parts of a program, and there is only
one part here.  The last level counts.
-/

namespace Guardianship.Event

/-- How much an event of a level matters. -/
def weight : Level → Nat
  | .debug => 1
  | .info => 2
  | .warn => 3

/-- What the name of a level asks for: the least weight that is shown. -/
def leastWeight? (directive : String) : Option Nat :=
  match directive.toLower with
  | "off" | "0" | "error" | "1" => some 4
  | "warn" | "2" => some 3
  | "info" | "3" => some 2
  | "debug" | "4" => some 1
  | "trace" | "5" => some 0
  | _ => none

/-- The least weight that a filter asks for, if it names a level. -/
def filterWeight? (filter : String) : Option Nat :=
  ((filter.splitOn ",").filterMap leastWeight?).getLast?

/-- A filter shows an event.  Without a level it shows none of those there are. -/
def isShown (filter : String) (e : Event) : Bool :=
  (filterWeight? filter).getD 4 ≤ weight e.level

/-- An event on one line. -/
def line (e : Event) : String :=
  " ".intercalate
    (e.level.word :: e.message :: e.fields.map fun f => f.1 ++ "=" ++ f.2.compact)

end Guardianship.Event
