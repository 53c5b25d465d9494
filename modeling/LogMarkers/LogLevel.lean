import LogMarkers.Text.Blank

/-!
# Log levels

How the level of the log is read from the environment: a level's name in any case or its number,
with blanks around it; anything else means `info`.
-/

namespace LogMarkers

/-- How much is logged. -/
inductive LogLevel where
  | error
  | warn
  | info
  | debug
  | trace
  deriving DecidableEq, Repr

namespace LogLevel

/-- All levels, from the quietest on. -/
def all : List LogLevel := [error, warn, info, debug, trace]

/-- The name of a level. -/
def name : LogLevel → String
  | error => "error"
  | warn => "warn"
  | info => "info"
  | debug => "debug"
  | trace => "trace"

/-- The number of a level, `1` for the quietest. -/
def number (l : LogLevel) : Nat := all.idxOf l + 1

/-- Whether two texts differ at most in the case of ASCII letters. -/
def sameLetters (a b : String) : Bool := a.toList.map Char.toLower == b.toList.map Char.toLower

/-- The number that a text of digits stands for, leading zeros and one plus sign allowed. -/
def numberOf? (text : String) : Option Nat :=
  let digits := match text.toList with
    | '+' :: rest => rest
    | cs => cs
  if digits ≠ [] ∧ digits.all Char.isDigit then
    some (digits.foldl (fun n c => 10 * n + (c.toNat - 48)) 0)
  else none

/-- The level a text names. -/
def ofText? (text : String) : Option LogLevel :=
  match all.find? (fun l => numberOf? text == some l.number) with
  | some l => some l
  | none => all.find? (fun l => sameLetters text l.name)

/-- The level for a value of the environment. -/
def ofVariable (value : Option String) : LogLevel :=
  ((value.map Text.trim).bind ofText?).getD info

end LogLevel

end LogMarkers
