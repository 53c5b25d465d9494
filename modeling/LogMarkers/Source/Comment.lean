import LogMarkers.Text.Blank

/-!
# Blanks and comments of a source text

Blanks and comments separate tokens. A comment runs to the end of its line or, between `/*` and
`*/`, over everything in between, comments inside included. Comments of four shapes document what
they stand at and are kept (`docComment?`). All functions take the rest of the text and its line.
-/

namespace LogMarkers.Source

open Text

/-- The line after a character. -/
def lineAfter (c : Char) (line : Nat) : Nat := if c = '\n' then line + 1 else line

/-- The line after some characters. -/
def lineAfterAll (cs : List Char) (line : Nat) : Nat := line + cs.count '\n'

/-- The rest of a line and what follows it; a carriage return before the newline is part of neither. -/
def cutLine : List Char → List Char × List Char
  | [] => ([], [])
  | '\n' :: rest => ([], '\n' :: rest)
  | '\r' :: '\n' :: rest => ([], '\n' :: rest)
  | c :: rest =>
    let (text, after) := cutLine rest
    (c :: text, after)

/-- A block comment: its characters and what follows; `depth` comments are open. -/
def cutBlock : Nat → List Char → Option (List Char × List Char)
  | _, [] => none
  | depth, '/' :: '*' :: rest =>
    (cutBlock (depth + 1) rest).map fun (text, after) => ('/' :: '*' :: text, after)
  | depth, '*' :: '/' :: rest =>
    if depth ≤ 1 then some (['*', '/'], rest)
    else (cutBlock (depth - 1) rest).map fun (text, after) => ('*' :: '/' :: text, after)
  | depth, c :: rest => (cutBlock depth rest).map fun (text, after) => (c :: text, after)

/-- What follows a comment that documents nothing. -/
def afterComment? (cs : List Char) (line : Nat) : Option (List Char × Nat) :=
  match cs with
  | '/' :: '/' :: '/' :: '/' :: rest => some ((cutLine rest).2, line)
  | '/' :: '/' :: '/' :: _ => none
  | '/' :: '/' :: '!' :: _ => none
  | '/' :: '/' :: rest => some ((cutLine rest).2, line)
  | '/' :: '*' :: '*' :: '/' :: rest => some (rest, line)
  | '/' :: '*' :: '*' :: '*' :: _ => block
  | '/' :: '*' :: '*' :: _ => none
  | '/' :: '*' :: '!' :: _ => none
  | '/' :: '*' :: _ => block
  | _ => none
where
  /-- What follows a block comment. -/
  block : Option (List Char × Nat) :=
    (cutBlock 0 cs).map fun (text, after) => (after, lineAfterAll text line)

/-- What follows one blank or one comment. -/
def afterBlank? (cs : List Char) (line : Nat) : Option (List Char × Nat) :=
  match afterComment? cs line with
  | some after => some after
  | none =>
    match cs with
    | c :: rest => if isSourceBlank c then some (rest, lineAfter c line) else none
    | [] => none

/-- What follows all blanks and comments; `n` bounds their number. -/
def skipBlanks : Nat → List Char → List Char
  | 0, cs => cs
  | n + 1, cs =>
    match afterBlank? cs 0 with
    | some (rest, _) => skipBlanks n rest
    | none => cs

/-- Whether every carriage return stands before a newline. -/
def pairedReturns : List Char → Bool
  | [] => true
  | '\r' :: '\n' :: rest => pairedReturns rest
  | c :: rest => c != '\r' && pairedReturns rest

/-- A comment that documents something. -/
structure DocComment where
  /-- Whether it documents what it stands in. -/
  inner : Bool
  text : List Char
  rest : List Char
  line : Nat

/-- The documenting comment at the front, with the line after it. -/
def docComment? (cs : List Char) (line : Nat) : Option DocComment := do
  let comment ← match cs with
    | '/' :: '/' :: '!' :: rest => some (ofLine true rest)
    | '/' :: '*' :: '!' :: _ => ofBlock true
    | '/' :: '/' :: '/' :: '/' :: _ => none
    | '/' :: '/' :: '/' :: rest => some (ofLine false rest)
    | '/' :: '*' :: '*' :: '*' :: _ => none
    | '/' :: '*' :: '*' :: _ => ofBlock false
    | _ => none
  if pairedReturns comment.text then some comment else none
where
  /-- The comment that fills the rest of a line. -/
  ofLine (inner : Bool) (rest : List Char) : DocComment :=
    let (text, after) := cutLine rest
    ⟨inner, text, after, line⟩
  /-- The comment between its delimiters. -/
  ofBlock (inner : Bool) : Option DocComment :=
    (cutBlock 0 cs).map fun (text, after) =>
      ⟨inner, (text.drop 3).take (text.length - 5), after, lineAfterAll text line⟩

end LogMarkers.Source
