import LogMarkers.Source.Comment
import LogMarkers.Source.Token
import LogMarkers.Text.Hex

/-!
# Literals in quotes

Texts, texts of bytes and zero-terminated texts, each plain or raw, and single characters and bytes.
The end of a plain text is found first, a backslash protecting the character after it
(`untilQuote?`); then its escapes are read (`decode?`). A raw text ends at a quote with as many number
signs as it started with.
-/

namespace LogMarkers.Source

open Text

/-- What a text in quotes is made of. -/
inductive TextForm where
  | chars
  | bytes
  /-- Characters other than zero. -/
  | zeroEnded
  deriving DecidableEq, Repr

/-- Whether a character may stand for itself. -/
def TextForm.allows : TextForm → Char → Bool
  | chars, _ => true
  | bytes, c => decide (c.toNat < 0x80)
  | zeroEnded, c => c != '\x00'

/-! ## 1. Escapes -/

/-- The character with this number, if there is one. -/
def charOf? (n : Nat) : Option Char := if n.isValidChar then some (Char.ofNat n) else none

/-- The digits of `\u` after the opening brace; `count` digits make `value` so far. -/
def bracedEscape? : (count value : Nat) → List Char → Option (Char × List Char)
  | _, _, [] => none
  | count, value, c :: rest =>
    if c = '_' ∧ 0 < count then bracedEscape? count value rest
    else if c = '\x7d' ∧ 0 < count then (charOf? value).map (·, rest)
    else
      match hexValue? c with
      | some digit => if count = 6 then none else bracedEscape? (count + 1) (16 * value + digit) rest
      | none => none

/-- The character of two hexadecimal digits: below 128 in a text of characters, and not zero in a
    text that ends with zero. -/
def hexEscape? (form : TextForm) (a b : Char) : Option Char := do
  let n := 16 * (← hexValue? a) + (← hexValue? b)
  if form = .chars ∧ 0x80 ≤ n ∨ form = .zeroEnded ∧ n = 0 then none else some (Char.ofNat n)

/-- The character an escape stands for, after its backslash, and what follows. -/
def escape? (form : TextForm) : List Char → Option (Char × List Char)
  | 'n' :: rest => some ('\n', rest)
  | 'r' :: rest => some ('\r', rest)
  | 't' :: rest => some ('\t', rest)
  | '\\' :: rest => some ('\\', rest)
  | '\'' :: rest => some ('\'', rest)
  | '"' :: rest => some ('"', rest)
  | '0' :: rest => if form = .zeroEnded then none else some ('\x00', rest)
  | 'x' :: a :: b :: rest => (hexEscape? form a b).map (·, rest)
  | 'u' :: '\x7b' :: rest =>
    if form = .bytes then none
    else do
      let (c, rest) ← bracedEscape? 0 0 rest
      if form = .zeroEnded ∧ c = '\x00' then none else some (c, rest)
  | _ => none

/-- What follows the blanks after a backslash at the end of a line. -/
def afterContinuation? : List Char → Option (List Char)
  | '\r' :: '\n' :: rest => afterContinuation? rest
  | '\r' :: _ => none
  | '\n' :: rest => afterContinuation? rest
  | ' ' :: rest => afterContinuation? rest
  | '\t' :: rest => afterContinuation? rest
  | cs => some cs

/-- The characters that the inside of a plain text stands for; `n` bounds their number. -/
def decode? (form : TextForm) : Nat → List Char → Option (List Char)
  | 0, _ => none
  | _ + 1, [] => some []
  | n + 1, '\r' :: '\n' :: rest => (decode? form n rest).map ('\n' :: ·)
  | n + 1, '\\' :: rest =>
    match rest with
    | '\n' :: _ | '\r' :: _ => (afterContinuation? rest).bind (decode? form n)
    | _ => do
      let (c, rest) ← escape? form rest
      return c :: (← decode? form n rest)
  | n + 1, c :: rest =>
    if c = '\r' ∨ !form.allows c then none else (decode? form n rest).map (c :: ·)

/-! ## 2. Texts -/

/-- The characters before the closing quote and what follows it. -/
def untilQuote? : List Char → Option (List Char × List Char)
  | [] => none
  | '"' :: rest => some ([], rest)
  | '\\' :: c :: rest => (untilQuote? rest).map fun (text, after) => ('\\' :: c :: text, after)
  | c :: rest => (untilQuote? rest).map fun (text, after) => (c :: text, after)

/-- The characters before a quote with `hashes` number signs, and what follows. -/
def untilRawQuote? (form : TextForm) (hashes : Nat) : List Char → Option (List Char × List Char)
  | [] => none
  | '\r' :: '\n' :: rest =>
    (untilRawQuote? form hashes rest).map fun (text, after) => ('\r' :: '\n' :: text, after)
  | c :: rest =>
    if c = '"' ∧ rest.take hashes = List.replicate hashes '#' then some ([], rest.drop hashes)
    else if c = '\r' ∨ !form.allows c then none
    else (untilRawQuote? form hashes rest).map fun (text, after) => (c :: text, after)

/-- A literal with what follows it and the line there. -/
abbrev Scanned := Literal × List Char × Nat

/-- What follows the letters that may stand right after a literal. -/
def afterLetters : List Char → List Char
  | c :: rest => if isStart c then rest.dropWhile isContinue else c :: rest
  | [] => []

/-- The literal of a text in this form. -/
def TextForm.literal (form : TextForm) (text : List Char) : Literal :=
  if form = .chars then .text (String.ofList text) else .other

/-- A plain text after its opening quote. -/
def plainText? (form : TextForm) (cs : List Char) (line : Nat) : Option Scanned := do
  let (inside, rest) ← untilQuote? cs
  let text ← decode? form (inside.length + 1) inside
  return (form.literal text, afterLetters rest, lineAfterAll inside line)

/-- A raw text after its opening letters. -/
def rawText? (form : TextForm) (cs : List Char) (line : Nat) : Option Scanned :=
  let hashes := (cs.takeWhile (· == '#')).length
  match cs.drop hashes with
  | '"' :: rest =>
    if hashes ≤ 255 then do
      let (text, rest) ← untilRawQuote? form hashes rest
      return (form.literal text, afterLetters rest, lineAfterAll text line)
    else none
  | _ => none

/-! ## 3. Single characters -/

/-- A single character after its opening quote. -/
def singleChar? (form : TextForm) (cs : List Char) (line : Nat) : Option Scanned := do
  let (c, rest) ← match cs with
    | '\\' :: rest => (escape? form rest).map fun (_, rest) => (' ', rest)
    | c :: rest => if form.allows c then some (c, rest) else none
    | [] => none
  match rest with
  | '\'' :: rest => some (.other, afterLetters rest, lineAfter c line)
  | _ => none

/-- The literal in quotes at the front. -/
def quoted? (cs : List Char) (line : Nat) : Option Scanned :=
  match cs with
  | '"' :: rest => plainText? .chars rest line
  | 'r' :: rest => rawText? .chars rest line
  | 'b' :: '"' :: rest => plainText? .bytes rest line
  | 'b' :: 'r' :: rest => rawText? .bytes rest line
  | 'c' :: '"' :: rest => plainText? .zeroEnded rest line
  | 'c' :: 'r' :: rest => rawText? .zeroEnded rest line
  | 'b' :: '\'' :: rest => singleChar? .bytes rest line
  | '\'' :: rest => singleChar? .chars rest line
  | _ => none

end LogMarkers.Source
