import LogMarkers.Text.Identifier

/-!
# Token trees

A source text is a sequence of token trees: words, lifetimes, single signs, literals, and groups in
matching delimiters. Every tree knows the line it starts on. A sign of several characters is written
as signs that are joined to the next one; a comment that documents something is the attribute it
stands for.
-/

namespace LogMarkers

/-- The three kinds of brackets. -/
inductive Delimiter where
  | paren
  | bracket
  | brace
  deriving DecidableEq, Repr

/-- What a literal is, as far as it matters where it may stand. -/
inductive Literal where
  /-- A text in quotes, with what it stands for. -/
  | text (value : String)
  /-- A whole number; whether it can be a position in a tuple. -/
  | integer (position : Bool)
  /-- A number with a point or an exponent; whether nothing but positions stands around its
      point. -/
  | fraction (endsInPoint positions : Bool)
  /-- A character, or a text of bytes. -/
  | other
  deriving DecidableEq, Repr

/-- A token, or a group of token trees. -/
inductive TokenTree where
  | word (ident : Identifier) (line : Nat)
  | lifetime (line : Nat)
  /-- One character of a sign; `joint` where the next character is one too. -/
  | sign (char : Char) (joint : Bool) (line : Nat)
  | literal (value : Literal) (line : Nat)
  | group (delimiter : Delimiter) (content : List TokenTree) (line closeLine : Nat)

/-- The line a tree starts on. -/
def TokenTree.line : TokenTree → Nat
  | word _ line | lifetime line | sign _ _ line | literal _ line | group _ _ line _ => line

/-- The delimiter a character opens. -/
def Delimiter.opened? (c : Char) : Option Delimiter :=
  if c = '(' then some paren
  else if c = '[' then some bracket
  else if c = '\x7b' then some brace
  else none

/-- The delimiter a character closes. -/
def Delimiter.closed? (c : Char) : Option Delimiter :=
  if c = ')' then some paren
  else if c = ']' then some bracket
  else if c = '\x7d' then some brace
  else none

end LogMarkers
