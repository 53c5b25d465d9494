import LogMarkers.Json.Value
import LogMarkers.Text.Hex

/-!
# Reading JSON documents

A document is one value with blanks around it. The reader is by recursive descent on the characters;
`readValue` counts down the nesting it may still go into, and `parse?` starts it with the length of
the text, which no nesting exceeds.
-/

namespace LogMarkers.Json

open Text (hexValue?)

/-- The blanks of a document. -/
def isJsonBlank (c : Char) : Bool := c == ' ' || c == '\n' || c == '\t' || c == '\r'

/-- The text after its leading blanks. -/
def skipBlank (cs : List Char) : List Char := cs.dropWhile isJsonBlank

/-! ## 1. Texts -/

/-- A piece of a quoted text: a character, or a unit written as `\u` and four digits. -/
inductive Piece where
  | char (c : Char)
  | unit (n : Nat)

/-- The character that a backslash before `c` stands for. -/
def escaped? (c : Char) : Option Char :=
  if c = '"' then some '"'
  else if c = '\\' then some '\\'
  else if c = '/' then some '/'
  else if c = 'b' then some '\x08'
  else if c = 'f' then some '\x0c'
  else if c = 'n' then some '\n'
  else if c = 'r' then some '\r'
  else if c = 't' then some '\t'
  else none

/-- The pieces up to the closing quotation mark. -/
def readPieces : List Char → Option (List Piece × List Char)
  | [] => none
  | '"' :: rest => some ([], rest)
  | '\\' :: 'u' :: a :: b :: c :: d :: rest => do
    let n := (← hexValue? a) * 4096 + (← hexValue? b) * 256 + (← hexValue? c) * 16 + (← hexValue? d)
    let (pieces, after) ← readPieces rest
    return (.unit n :: pieces, after)
  | '\\' :: c :: rest => do
    let e ← escaped? c
    let (pieces, after) ← readPieces rest
    return (.char e :: pieces, after)
  | c :: rest =>
    if c = '\\' ∨ c.toNat < 0x20 then none
    else do
      let (pieces, after) ← readPieces rest
      return (.char c :: pieces, after)

/-- The characters the pieces stand for: a high surrogate needs a low one right after it, and a low
    one needs a high one right before. -/
def assemble : List Piece → Option (List Char)
  | [] => some []
  | .char c :: rest => (assemble rest).map (c :: ·)
  | .unit high :: .unit low :: rest =>
    if high < 0xD800 ∨ 0xE000 ≤ high then (assemble (.unit low :: rest)).map (Char.ofNat high :: ·)
    else if high < 0xDC00 ∧ 0xDC00 ≤ low ∧ low < 0xE000 then
      (assemble rest).map
        (Char.ofNat (0x10000 + (high - 0xD800) * 0x400 + (low - 0xDC00)) :: ·)
    else none
  | .unit n :: rest =>
    if n < 0xD800 ∨ 0xE000 ≤ n then (assemble rest).map (Char.ofNat n :: ·) else none

/-- A text after its opening quotation mark. -/
def readText (cs : List Char) : Option (Option String × List Char) := do
  let (pieces, rest) ← readPieces cs
  return ((assemble pieces).map String.ofList, rest)

/-! ## 2. Numbers -/

/-- The decimal digits at the front. -/
def takeDigits (cs : List Char) : List Char × List Char :=
  (cs.takeWhile Char.isDigit, cs.dropWhile Char.isDigit)

/-- The number that decimal digits stand for. -/
def digitsValue (digits : List Char) : Nat :=
  digits.foldl (fun n c => 10 * n + (c.toNat - 48)) 0

/-- The whole part: one zero, or digits that do not start with zero. -/
def readWhole (cs : List Char) : Option (Nat × List Char) :=
  match takeDigits cs with
  | ([], _) => none
  | ('0' :: _ :: _, _) => none
  | (digits, rest) => some (digitsValue digits, rest)

/-- The text after a fraction, if one is written; whether one was. -/
def skipFraction : List Char → Option (Bool × List Char)
  | '.' :: rest =>
    match takeDigits rest with
    | ([], _) => none
    | (_, after) => some (true, after)
  | cs => some (false, cs)

/-- The text after the sign of an exponent. -/
def skipSign : List Char → List Char
  | '+' :: rest => rest
  | '-' :: rest => rest
  | cs => cs

/-- The text after an exponent, if one is written; whether one was. -/
def skipExponent : List Char → Option (Bool × List Char)
  | c :: rest =>
    if c = 'e' ∨ c = 'E' then
      match takeDigits (skipSign rest) with
      | ([], _) => none
      | (_, after) => some (true, after)
    else some (false, c :: rest)
  | [] => some (false, [])

/-- A number; it is natural if it has no sign, no fraction and no exponent. -/
def readNumber (cs : List Char) : Option (Json × List Char) := do
  let (negative, cs) := match cs with
    | '-' :: rest => (true, rest)
    | _ => (false, cs)
  let (n, cs) ← readWhole cs
  let (fraction, cs) ← skipFraction cs
  let (exponent, cs) ← skipExponent cs
  return (.number (if negative || fraction || exponent then none else some n), cs)

/-! ## 3. Values -/

/-- The items of an array after its opening bracket and a first look that it is not empty; `n`
    bounds their number. -/
def readItems (value : List Char → Option (Json × List Char)) :
    Nat → List Char → Option (List Json × List Char)
  | 0, _ => none
  | n + 1, cs => do
    let (item, cs) ← value (skipBlank cs)
    match skipBlank cs with
    | ',' :: rest =>
      let (items, rest) ← readItems value n rest
      return (item :: items, rest)
    | ']' :: rest => return ([item], rest)
    | _ => none

/-- The members of an object after its opening brace and a first look that it is not empty; `n`
    bounds their number. -/
def readMembers (value : List Char → Option (Json × List Char)) :
    Nat → List Char → Option (List (Option String × Json) × List Char)
  | 0, _ => none
  | n + 1, cs => do
    match skipBlank cs with
    | '"' :: cs =>
      let (name, cs) ← readText cs
      match skipBlank cs with
      | ':' :: cs =>
        let (member, cs) ← value (skipBlank cs)
        match skipBlank cs with
        | ',' :: rest =>
          let (members, rest) ← readMembers value n rest
          return ((name, member) :: members, rest)
        | '\x7d' :: rest => return ([(name, member)], rest)
        | _ => none
      | _ => none
    | _ => none

/-- The value at the front, with at most `depth` levels of nesting. -/
def readValue : (depth : Nat) → List Char → Option (Json × List Char)
  | 0, _ => none
  | depth + 1, cs =>
    match cs with
    | 'n' :: 'u' :: 'l' :: 'l' :: rest => some (.null, rest)
    | 't' :: 'r' :: 'u' :: 'e' :: rest => some (.bool true, rest)
    | 'f' :: 'a' :: 'l' :: 's' :: 'e' :: rest => some (.bool false, rest)
    | '"' :: rest => (readText rest).map fun (value, after) => (.text value, after)
    | '[' :: rest =>
      match skipBlank rest with
      | ']' :: after => some (.array [], after)
      | inside =>
        (readItems (readValue depth) inside.length inside).map fun (items, after) =>
          (.array items, after)
    | '\x7b' :: rest =>
      match skipBlank rest with
      | '\x7d' :: after => some (.object [], after)
      | inside =>
        (readMembers (readValue depth) inside.length inside).map fun (members, after) =>
          (.object members, after)
    | cs => readNumber cs

/-- The value of a document. -/
def parse? (text : String) : Option Json := do
  let cs := text.toList
  let (value, rest) ← readValue (cs.length + 1) (skipBlank cs)
  if skipBlank rest = [] then some value else none

end LogMarkers.Json
