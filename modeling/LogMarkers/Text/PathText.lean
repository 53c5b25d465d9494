/-!
# Paths as text: names separated by `::`

Module paths, symbol identities and attribute spellings are texts whose names are separated by a
double colon. This file fixes how such a text is cut and how names are put together:

* `split` cuts at every separator, searching from the left, and keeps empty pieces;
* `segments` is `split` without the empty pieces;
* `cutLast?` cuts at the last separator, searching from the right, so that of three colons in a
  row the last two are the separator;
* `join` puts the separator between names.

The work is done on lists of characters by structural recursion.
-/

namespace LogMarkers.PathText

/-! ## 1. On characters -/

/-- The pieces between the separators, searching from the left. -/
def splitChars : List Char → List (List Char)
  | [] => [[]]
  | ':' :: ':' :: rest => [] :: splitChars rest
  | c :: rest =>
    match splitChars rest with
    | [] => [[c]]
    | piece :: pieces => (c :: piece) :: pieces

/-- What stands before and after the last separator. -/
def cutLastChars? : List Char → Option (List Char × List Char)
  | [] => none
  | c :: rest =>
    match cutLastChars? rest with
    | some (before, after) => some (c :: before, after)
    | none =>
      match c, rest with
      | ':', ':' :: after => some ([], after)
      | _, _ => none

/-- The text without the separators it starts with. -/
def trimChars : List Char → List Char
  | ':' :: ':' :: rest => trimChars rest
  | cs => cs

/-- Every separator replaced by a dot, searching from the left. -/
def dotChars : List Char → List Char
  | ':' :: ':' :: rest => '.' :: dotChars rest
  | c :: rest => c :: dotChars rest
  | [] => []

/-! ## 2. On texts -/

/-- The pieces between the separators, empty ones included. -/
def split (text : String) : List String := (splitChars text.toList).map String.ofList

/-- The names of a path: its non-empty pieces. -/
def segments (text : String) : List String := (split text).filter (· ≠ "")

/-- Names with a separator between each two. -/
def join : List String → String
  | [] => ""
  | [name] => name
  | name :: names => name ++ "::" ++ join names

/-- What stands before and after the last separator, if there is one. -/
def cutLast? (text : String) : Option (String × String) :=
  (cutLastChars? text.toList).map fun (before, after) => (String.ofList before, String.ofList after)

/-- What stands after the last separator; the whole text without one. -/
def last (text : String) : String :=
  match cutLast? text with
  | some (_, after) => after
  | none => text

/-- Whether the text starts with a separator. -/
def startsWithSeparator (text : String) : Bool :=
  match text.toList with
  | ':' :: ':' :: _ => true
  | _ => false

/-- The text without the separators it starts with. -/
def trimStart (text : String) : String := String.ofList (trimChars text.toList)

/-- The text with a dot for every separator. -/
def dotted (text : String) : String := String.ofList (dotChars text.toList)

/-- `name` inside `scope`; just `name` where the scope is the empty path. -/
def within (scope name : String) : String :=
  if scope = "" then name else scope ++ "::" ++ name

@[simp] theorem within_empty (name : String) : within "" name = name := rfl

@[simp] theorem join_nil : join [] = "" := rfl

@[simp] theorem join_singleton (name : String) : join [name] = name := rfl

end LogMarkers.PathText
