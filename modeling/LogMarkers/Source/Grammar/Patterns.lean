import LogMarkers.Source.Grammar.Types

/-!
# Patterns

Patterns are read and forgotten, except for ranges that are open on one side: among the elements of
a slice these need parentheses, so their line is kept until it is clear where they stand.
`patternBody` is a pattern without alternatives; `alternatives` is a pattern with them.
-/

namespace LogMarkers.Source.Grammar

open LogMarkers.Source.Parser

variable (g : Grammar)

/-- A bar that separates alternatives. -/
def bar : Look := fun trees =>
  Look.sign "|" trees && !Look.sign "||" trees && !Look.sign "|=" trees

/-- A pattern with alternatives; a bar may stand before the first. The line of the dots where it is
    nothing but a range that is open on one side. -/
def alternatives : Parser (Option Nat) := do
  let barred ← optSign "|"
  let first ← g.pattern
  let more ← whileLook bar (do
    sign "|"
    g.pattern) g.bound
  return if barred || !more.isEmpty then none else first

/-- The name of a field, or its position in a tuple; whether it is a name. -/
def fieldName : Parser Bool := do
  if ← peek .name then
    discard name
    return true
  else
    match (← get).trees with
    | .literal (.integer true) _ :: _ =>
      discard tree
      return false
    | _ => fail

/-! ## 1. Ranges -/

/-- Where the end of a range may be left out. -/
def noRangeEnd : Look := fun trees =>
  Look.nothing trees || Look.oneSign ["|", "=", ",", ";"] trees || Look.colon trees ||
    Look.word "if" trees

/-- The bound of a range; whether there is one. -/
def rangeBound : Parser Bool := do
  if ← peek noRangeEnd then return false
  if ← peek .literal then discard literal
  else if ← peek typePathStart then discard (g.qualifiedPath true)
  else if ← optWord "const" then discard g.attributedBlock
  else fail
  return true

/-- The dots of a range; whether they ask for an end. -/
def rangeDots : Parser Bool := do
  if ← optSign "..=" then return true
  else if ← optSign "..." then return true
  else
    sign ".."
    return false

/-- The dots of a range and its end: their line, and whether there is an end. -/
def rangeEnd : Parser (Nat × Bool) := do
  let start ← line
  let closed ← rangeDots
  let bounded ← g.rangeBound
  if closed && !bounded then fail
  return (start, bounded)

/-- A range after its first bound, if dots follow; their line where the range is open. -/
def rangeFrom : Parser (Option Nat) := do
  if ← peek (.sign "..") then
    let (start, bounded) ← g.rangeEnd
    return if bounded then none else some start
  else return none

/-- A range without a first bound: the line of its dots, unless they stand alone. -/
def rangeTo : Parser (Option Nat) := do
  if ← peek (.sign "...") then fail
  let (start, bounded) ← g.rangeEnd
  return if bounded then some start else none

/-! ## 2. Patterns with parts -/

/-- Patterns with commas between. -/
def patternList : Parser Unit := discard (listed g.alternatives g.bound)

/-- An element of a slice, which is no range that is open on one side. -/
def element : Parser Unit := do
  match ← g.alternatives with
  | some line => throw line
  | none => return ()

/-- The fields of a struct pattern; two dots end them. -/
def fieldPatterns : (n : Nat) → Parser Unit
  | 0 => fail
  | n + 1 => do
    if ← atEnd then return ()
    discard g.outerAttributes
    if ← optSign ".." then return ()
    let boxed ← optWord "box"
    let byRef ← optWord "ref"
    let mutable ← optWord "mut"
    if boxed || byRef || mutable then discard name
    else
      let named ← fieldName
      if !named || (← peek (.sign ":")) then
        sign ":"
        discard g.alternatives
    if ← atEnd then return ()
    sign ","
    fieldPatterns n

/-- A pattern that starts with a path: the path, a macro call, a struct, a tuple or a range. -/
def pathPattern : Parser (Option Nat) := do
  let form ← g.qualifiedPath true
  let bare := (form.map (·.bare)).getD false
  if bare && (← peek (.sign "!")) && !(← peek (.sign "!=")) then
    sign "!"
    discard anyGroup
    return none
  else if ← peek (.group .brace) then
    group .brace (g.fieldPatterns g.bound)
    return none
  else if ← peek (.group .paren) then
    group .paren g.patternList
    return none
  else g.rangeFrom

/-- The start of a pattern that is more than a single name. -/
def pathPatternStart : Look := fun trees =>
  (Look.name trees && Look.second (fun rest => Look.oneSign ["::", "!", ".."] rest ||
      Look.group .brace rest || Look.group .paren rest) trees) ||
    (Look.word "self" trees && Look.second (.sign "::") trees) ||
    Look.oneSign ["::", "<"] trees || Look.oneOf ["Self", "super", "crate"] trees

/-- A name that is bound, with the pattern after it if there is one. -/
def bindingPattern : Parser Unit := do
  discard (optWord "ref")
  discard (optWord "mut")
  if ← peek (.word "self") then discard anyWord else discard name
  if ← optSign "@" then discard g.pattern

/-- A pattern without alternatives. -/
def patternBody : Parser (Option Nat) := do
  if ← peek pathPatternStart then g.pathPattern
  else if ← optWord "_" then return none
  else if ← optWord "box" then
    discard g.pattern
    return none
  else if (← peek (.sign "-")) || (← peek .literal) || (← peek (.word "const")) then
    discard g.rangeBound
    g.rangeFrom
  else if (← peek (.oneOf ["ref", "mut", "self"])) || (← peek .name) then
    g.bindingPattern
    return none
  else if ← optSign "&" then
    discard (optWord "mut")
    discard g.pattern
    return none
  else if ← peek (.group .paren) then
    group .paren g.patternList
    return none
  else if ← peek (.group .bracket) then
    discard (group .bracket (listed g.element g.bound))
    return none
  else if ← peek (.sign "..") then g.rangeTo
  else fail

end LogMarkers.Source.Grammar
