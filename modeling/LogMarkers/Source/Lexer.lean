import LogMarkers.Source.Number

/-!
# From text to token trees

The whole text is cut into token trees before anything else is read. Delimiters have to match;
`Frame` holds what stands before an open one. Where no token starts, or a delimiter does not match,
the error is the line; a delimiter that is never closed is reported on its own line, the innermost
one first.
-/

namespace LogMarkers.Source

open Text

/-! ## 1. Words and signs -/

/-- The word at the front, raw or plain. -/
def anyWord? (cs : List Char) : Option (Identifier × List Char) :=
  match cs with
  | 'r' :: '#' :: rest => do
    let (ident, rest) ← named true rest
    if ident.text ∈ ["_", "super", "self", "Self", "crate"] then none else some (ident, rest)
  | _ => named false cs
where
  /-- The characters of a word. -/
  named (raw : Bool) : List Char → Option (Identifier × List Char)
    | [] => none
    | c :: rest =>
      if isStart c then
        (Identifier.ofChars? (c :: rest.takeWhile isContinue) raw).map
          (·, rest.dropWhile isContinue)
      else none

/-- Whether a literal in quotes starts here, well formed or not. -/
def startsQuoted : List Char → Bool
  | 'r' :: '"' :: _ | 'r' :: '#' :: '"' :: _ | 'r' :: '#' :: '#' :: _ => true
  | 'b' :: '"' :: _ | 'b' :: '\'' :: _ | 'b' :: 'r' :: '"' :: _ | 'b' :: 'r' :: '#' :: _ => true
  | 'c' :: '"' :: _ | 'c' :: 'r' :: '"' :: _ | 'c' :: 'r' :: '#' :: _ => true
  | _ => false

/-- The word at the front, unless a literal in quotes starts there. -/
def word? (cs : List Char) : Option (Identifier × List Char) :=
  if startsQuoted cs then none else anyWord? cs

/-- The characters of signs. -/
def signChars : List Char := "~!@#$%^&*-=+|;:,<.>/?'".toList

/-- Whether a sign starts here; comments are no signs. -/
def startsSign : List Char → Bool
  | '/' :: '/' :: _ | '/' :: '*' :: _ => false
  | c :: _ => signChars.contains c
  | [] => false

/-- Whether a quote before these characters starts a lifetime. -/
def startsLifetime (cs : List Char) : Bool :=
  match anyWord? cs with
  | none => false
  | some (_, '\'' :: _) => false
  | some (ident, '#' :: _) => ident.raw
  | some _ => true

/-- The sign or lifetime at the front. -/
def sign? (cs : List Char) (line : Nat) : Option (TokenTree × List Char) :=
  if startsSign cs then
    match cs with
    | '\'' :: rest =>
      if startsLifetime rest then
        match word? rest with
        | some (_, rest) => some (.lifetime line, rest)
        | none => some (.sign '\'' true line, rest)
      else none
    | c :: rest => some (.sign c (startsSign rest) line, rest)
    | [] => none
  else none

/-- The tree of one token at the front, what follows it and the line there. -/
def leaf? (cs : List Char) (line : Nat) : Option (TokenTree × List Char × Nat) :=
  match quoted? cs line with
  | some (literal, rest, after) => some (.literal literal line, rest, after)
  | none =>
    match number? cs line with
    | some (literal, rest, after) => some (.literal literal line, rest, after)
    | none =>
      match sign? cs line with
      | some (tree, rest) => some (tree, rest, line)
      | none => (word? cs).map fun (ident, rest) => (.word ident line, rest, line)

/-- What is written for a token that could not be read, in the text of trees that were printed
    before; it counts as a literal. -/
def unreadable : List Char := "(/*ERROR*/)".toList

/-- What follows these characters, if they stand at the front. -/
def afterText? (chars cs : List Char) : Option (List Char) :=
  if chars.isPrefixOf cs then some (cs.drop chars.length) else none

/-! ## 2. Groups -/

/-- The word that a documenting comment uses. -/
def docWord : Identifier :=
  ⟨"doc".toList, false, by decide, List.all_eq_true.mp (by decide)⟩

/-- The attribute that a documenting comment stands for. -/
def DocComment.trees (c : DocComment) (line : Nat) : List TokenTree :=
  let body := [.word docWord line, .sign '=' false line,
    .literal (.text (String.ofList c.text)) line]
  let bang := if c.inner then [.sign '!' false line] else []
  .sign '#' false line :: bang ++ [.group .bracket body line c.line]

/-- An open delimiter, its line, and the trees before it, last one first. -/
structure Frame where
  delimiter : Delimiter
  line : Nat
  before : List TokenTree

/-- Read trees to the end of the text: `frames` are open, `done` are the trees read since the
    innermost was opened, last one first, and `n` bounds the number of steps. -/
def readTrees : (n : Nat) → (frames : List Frame) → (done : List TokenTree) → List Char →
    (line : Nat) → Except Nat (List TokenTree)
  | 0, _, _, _, line => .error line
  | n + 1, frames, done, cs, line =>
    match afterBlank? cs line with
    | some (rest, after) => readTrees n frames done rest after
    | none =>
      match docComment? cs line with
      | some c => readTrees n frames ((c.trees line).reverse ++ done) c.rest c.line
      | none =>
        match afterText? unreadable cs with
        | some rest => readTrees n frames (.literal .other line :: done) rest line
        | none =>
          match cs with
          | [] =>
            match frames with
            | [] => .ok done.reverse
            | f :: _ => .error f.line
          | c :: rest =>
            match Delimiter.opened? c with
            | some d => readTrees n (⟨d, line, done⟩ :: frames) [] rest line
            | none =>
              match Delimiter.closed? c with
              | some d =>
                match frames with
                | [] => .error line
                | f :: frames =>
                  if f.delimiter = d then
                    readTrees n frames (.group d done.reverse f.line line :: f.before) rest line
                  else .error line
              | none =>
                match leaf? cs line with
                | some (tree, rest, after) => readTrees n frames (tree :: done) rest after
                | none => .error line

/-! ## 3. The start of a file -/

/-- The text without a byte order mark at its front. -/
def afterMark : List Char → List Char
  | c :: rest => if c.toNat = 0xFEFF then rest else c :: rest
  | [] => []

/-- The text without the line that names an interpreter; the newline stays. An inner attribute is
    no such line. -/
def afterInterpreter (cs : List Char) : List Char :=
  match cs with
  | '#' :: '!' :: rest =>
    match skipBlanks rest.length rest with
    | '[' :: _ => cs
    | _ => cs.dropWhile (· != '\n')
  | _ => cs

/-- The token trees of a source text, or the line where it cannot be cut. -/
def treesOf (text : String) : Except Nat (List TokenTree) :=
  let cs := afterMark (afterInterpreter (afterMark text.toList))
  readTrees (cs.length + 1) [] [] cs 1

end LogMarkers.Source
