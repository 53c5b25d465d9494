import LogMarkers.Source.Token
import LogMarkers.Source.Item

/-!
# Parsers on token trees

A parser takes trees from the front of a sequence or fails with a line: the line of the tree it
cannot take, or, at the end of a group, the line of its closing delimiter. The end of the whole text
counts as line 1.

A group whose content is not used up stops nothing; the first such place is noted in `leftover` and
fails the text if nothing else does (`Parser.finish`).
-/

namespace LogMarkers.Source

/-- Where a parser stands. -/
structure Cursor where
  trees : List TokenTree
  /-- The line reported at the end of the trees. -/
  endLine : Nat
  /-- The line of the first tree that a finished group did not use. -/
  leftover : Option Nat := none

/-- The line at the front. -/
def Cursor.line (c : Cursor) : Nat :=
  match c.trees with
  | tree :: _ => tree.line
  | [] => c.endLine

/-- A parser of `α`; failures are lines. -/
abbrev Parser (α : Type) := StateT Cursor (Except Nat) α

/-! ## 1. Looking at the front -/

/-- Words that are no names, unless written raw. -/
def reservedWords : List String :=
  ["_", "abstract", "as", "async", "await", "become", "box", "break", "const", "continue", "crate",
    "do", "dyn", "else", "enum", "extern", "false", "final", "fn", "for", "if", "impl", "in", "let",
    "loop", "macro", "match", "mod", "move", "mut", "override", "priv", "pub", "ref", "return",
    "Self", "self", "static", "struct", "super", "trait", "true", "try", "type", "typeof", "unsafe",
    "unsized", "use", "virtual", "where", "while", "yield"]

/-- Whether an identifier can name something. -/
def isName (i : Identifier) : Bool := i.raw || !reservedWords.contains i.text

/-- Questions about the trees at the front. -/
abbrev Look := List TokenTree → Bool

namespace Look

/-- Nothing is left. -/
def nothing : Look := List.isEmpty

/-- This word, written plainly. -/
def word (text : String) : Look
  | .word i _ :: _ => i.isWord text
  | _ => false

/-- Any word. -/
def anyWord : Look
  | .word _ _ :: _ => true
  | _ => false

/-- A word that can be a name. -/
def name : Look
  | .word i _ :: _ => isName i
  | _ => false

/-- A lifetime. -/
def lifetime : Look
  | .lifetime _ :: _ => true
  | _ => false

/-- These characters of a sign, each joined to the next. -/
def signChars : List Char → Look
  | [], _ => true
  | [c], .sign d _ _ :: _ => c == d
  | c :: cs, .sign d joint _ :: rest => c == d && joint && signChars cs rest
  | _, _ => false

/-- A sign that starts like this. -/
def sign (text : String) : Look := signChars text.toList

/-- A group in this delimiter. -/
def group (delimiter : Delimiter) : Look
  | .group d _ _ _ :: _ => d == delimiter
  | _ => false

/-- A group in any delimiter. -/
def anyGroup : Look
  | .group _ _ _ _ :: _ => true
  | _ => false

/-- A number. -/
def number : Look
  | .literal (.integer _) _ :: _ | .literal (.fraction _ _) _ :: _ => true
  | _ => false

/-- A literal: also a truth value, and a number after a minus sign. -/
def literal : Look := fun trees =>
  match trees with
  | .literal _ _ :: _ => true
  | .word i _ :: _ => i.isWord "true" || i.isWord "false"
  | .sign c _ _ :: rest => c == '-' && number rest
  | _ => false

/-- A text in quotes. -/
def text : Look
  | .literal (.text _) _ :: _ => true
  | _ => false

/-- The question about the trees after the first one. -/
def second (look : Look) : Look := fun trees => look (trees.drop 1)

/-- The question about the trees after the first two. -/
def third (look : Look) : Look := fun trees => look (trees.drop 2)

/-- One of these words. -/
def oneOf (texts : List String) : Look := fun trees => texts.any (word · trees)

/-- One of these signs. -/
def oneSign (texts : List String) : Look := fun trees => texts.any (sign · trees)

/-- A point that starts no range. -/
def point : Look := fun trees => sign "." trees && !sign ".." trees

/-- A colon that starts no separator of a path. -/
def colon : Look := fun trees => sign ":" trees && !sign "::" trees

/-- A name or another word a path can start with, or the separator before it. -/
def pathStart : Look := fun trees =>
  name trees || oneOf ["self", "super", "crate"] trees || sign "::" trees

end Look

/-! ## 2. Single trees -/

namespace Parser

/-- The line at the front. -/
def line : Parser Nat := do return (← get).line

/-- Fail at the front. -/
def fail {α : Type} : Parser α := do throw (← line)

/-- The answer to a question about the front. -/
def peek (look : Look) : Parser Bool := do return look (← get).trees

/-- Whether nothing is left. -/
def atEnd : Parser Bool := peek .nothing

/-- Take the tree at the front. -/
def tree : Parser TokenTree := do
  let c ← get
  match c.trees with
  | [] => fail
  | tree :: rest =>
    set { c with trees := rest }
    return tree

/-- Take a tree of which `look` holds. -/
def expect (look : Look) : Parser Unit := do
  if ← peek look then discard tree else fail

/-- Take a tree if `look` holds of it; whether it was taken. -/
def optional (look : Look) : Parser Bool := do
  if ← peek look then
    discard tree
    return true
  else return false

/-- This word. -/
def word (text : String) : Parser Unit := expect (.word text)

/-- This word, if it stands there. -/
def optWord (text : String) : Parser Bool := optional (.word text)

/-- Any word. -/
def anyWord : Parser Name := do
  match ← tree with
  | .word ident line => return ⟨ident, line⟩
  | other => throw other.line

/-- A name. -/
def name : Parser Name := do
  if ← peek .name then anyWord else fail

/-- A name or an underscore. -/
def nameOrUnderscore : Parser Name := do
  if ← peek (.word "_") then anyWord else name

/-- This sign. -/
def sign (text : String) : Parser Unit := do
  if ← peek (.sign text) then
    modify fun c => { c with trees := c.trees.drop text.length }
  else fail

/-- This sign, if it stands there. -/
def optSign (text : String) : Parser Bool := do
  if ← peek (.sign text) then
    sign text
    return true
  else return false

/-- A lifetime. -/
def lifetime : Parser Unit := expect .lifetime

/-- A literal, with what it stands for if it is a text. -/
def literal : Parser (Option String) := do
  if ← peek .literal then
    discard (optSign "-")
    match ← tree with
    | .literal (.text value) _ => return some value
    | _ => return none
  else fail

/-! ## 3. Groups and attempts -/

/-- Fail if the text has been read but a group was not used up. -/
def finish {α : Type} (a : α) (c : Cursor) : Except Nat α :=
  match c.leftover with
  | some line => .error line
  | none => .ok a

/-- Read the content of a group in this delimiter with `p`, and what belongs to it after the group
    with `rest`. The content is finished after both. -/
def groupThen {α β : Type} (delimiter : Delimiter) (p : Parser α) (rest : α → Parser β) :
    Parser β := do
  if ← peek (.group delimiter) then
    match ← tree with
    | .group _ content _ closeLine =>
      let c ← get
      match p ⟨content, closeLine, c.leftover⟩ with
      | .error line => throw line
      | .ok (a, inside) =>
        set { c with leftover := inside.leftover }
        let b ← rest a
        let unused := inside.trees.head?.map (·.line)
        modify fun after => { after with leftover := after.leftover <|> unused }
        return b
    | _ => fail
  else fail

/-- Read the content of a group in this delimiter with `p`. -/
def group {α : Type} (delimiter : Delimiter) (p : Parser α) : Parser α :=
  groupThen delimiter p pure

/-- Pass over a group in any delimiter; which one it was. -/
def anyGroup : Parser Delimiter := do
  if ← peek .anyGroup then
    match ← tree with
    | .group delimiter _ _ _ => return delimiter
    | _ => fail
  else fail

/-- What `p` reads, or nothing with everything left as it was. -/
def attempt {α : Type} (p : Parser α) : Parser (Option α) := fun c =>
  match p c with
  | .ok (a, after) => .ok (some a, after)
  | .error _ => .ok (none, c)

/-- Whether `p` succeeds here; nothing is taken. -/
def succeeds {α : Type} (p : Parser α) : Parser Bool := fun c =>
  match p c with
  | .ok _ => .ok (true, c)
  | .error _ => .ok (false, c)

/-! ## 4. Repetition

Every repetition has a bound `n` on its length, which no text reaches.
-/

/-- `p` until nothing is left. -/
def untilEnd {α : Type} (p : Parser α) : (n : Nat) → Parser (List α)
  | 0 => fail
  | n + 1 => do
    if ← atEnd then return []
    let a ← p
    return a :: (← untilEnd p n)

/-- `p` with separators between, until `stop` holds; a separator may stand before the end. -/
def enclosed {α : Type} (stop : Look) (separator : String) (p : Parser α) :
    (n : Nat) → Parser (List α)
  | 0 => fail
  | n + 1 => do
    if ← peek stop then return []
    let a ← p
    if ← peek stop then return [a]
    sign separator
    return a :: (← enclosed stop separator p n)

/-- `p` with commas between, until nothing is left. -/
def listed {α : Type} (p : Parser α) (n : Nat) : Parser (List α) := enclosed .nothing "," p n

/-- `p` as long as separators follow; where `stop` holds nothing more is read. -/
def chained {α : Type} (stop : Look) (separator : String) (p : Parser α) :
    (n : Nat) → Parser (List α)
  | 0 => fail
  | n + 1 => do
    if ← peek stop then return []
    let a ← p
    if ← optSign separator then return a :: (← chained stop separator p n)
    else return [a]

/-- `p` as long as `look` holds. -/
def whileLook {α : Type} (look : Look) (p : Parser α) : (n : Nat) → Parser (List α)
  | 0 => fail
  | n + 1 => do
    if ← peek look then
      let a ← p
      return a :: (← whileLook look p n)
    else return []

end Parser

end LogMarkers.Source
