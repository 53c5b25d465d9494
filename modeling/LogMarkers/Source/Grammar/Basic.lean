import LogMarkers.Source.Parser

/-!
# The grammar as a record of parsers

The parts of the grammar refer to each other: a type holds expressions, an expression holds types,
statements and patterns, statements hold items. Every part is written against a `Grammar`, a record
of the others, and the records are tied together by levels: the parsers of one level call those of
the level below.
-/

namespace LogMarkers.Source

/-- What of a type decides how reading goes on. -/
inductive TypeForm where
  /-- A path that starts with no type in angle brackets. -/
  | path (path : SourcePath)
  /-- A type in parentheses. -/
  | paren (inner : TypeForm)
  /-- A single bound that is no path; whether its last token is a closing brace. -/
  | bound (endsInBrace : Bool)
  /-- Any other type; whether its last token is a closing brace. -/
  | other (endsInBrace : Bool)

/-- The path of a plain path type, possibly in parentheses. -/
def TypeForm.path? : TypeForm → Option SourcePath
  | path p => some p
  | paren inner => inner.path?
  | bound _ | other _ => none

/-- Whether the last token of the type is a closing brace. -/
def TypeForm.endsInBrace : TypeForm → Bool
  | other endsInBrace | bound endsInBrace => endsInBrace
  | path _ | paren _ => false

/-- Where a bound stands, which decides what it may hold. -/
inductive BoundPlace where
  /-- On a parameter, an associated type or a trait, or in a condition. -/
  | declaration
  /-- After `impl`, where a type is known by its bounds only. -/
  | hidden
  /-- In the type of a trait object, or in another name for bounds. -/
  | object
  deriving DecidableEq

/-- Whether a bound can list the parameters that are captured. -/
def BoundPlace.allowsCaptures (place : BoundPlace) : Bool := place == .hidden

/-- Whether a bound can ask for a trait that works on constants. -/
def BoundPlace.allowsConst (place : BoundPlace) : Bool := place != .object

/-- What of one or more bounds decides how reading goes on. -/
structure BoundForm where
  /-- One of them is a trait. -/
  hasTrait : Bool
  /-- The last token is a closing brace. -/
  endsInBrace : Bool

/-- What of an expression decides how reading goes on. -/
structure ExprForm where
  /-- Ends a statement or a match arm by itself. -/
  blockLike : Bool := false
  /-- Its last token is a closing brace. -/
  endsInBrace : Bool := false
  /-- A call of a macro with its arguments in braces. -/
  bracedCall : Bool := false
  /-- A range. -/
  range : Bool := false
  /-- Two sides with a comparison between them. -/
  comparison : Bool := false

/-- Whether a statement of this expression has to be ended by a semicolon. -/
def ExprForm.needsSemicolon (e : ExprForm) : Bool := !(e.blockLike || e.bracedCall)

/-- The parsers of one level. -/
structure Grammar where
  /-- The bound on repetitions. -/
  bound : Nat
  /-- A type; whether a sum of bounds is allowed. -/
  type : (sums : Bool) → Parser TypeForm
  /-- A bound of a type. -/
  bounded : BoundPlace → Parser BoundForm
  /-- A pattern without alternatives: the line of its dots where it is a range that is open on one
      side. -/
  pattern : Parser (Option Nat)
  /-- An expression; whether a struct literal is allowed. -/
  expr : (literals : Bool) → Parser ExprForm
  /-- An expression without binary operators. -/
  operand : (literals : Bool) → Parser ExprForm
  /-- One arm of a match. -/
  arm : Parser Unit
  /-- The content of a block. -/
  statements : Parser Unit
  /-- An item after its outer attributes. -/
  item : List Attribute → Parser Item
  /-- The content of an attribute. -/
  attributeContent : Parser Attribute
  /-- The tree of a `use` declaration; nothing where one of its paths starts at the root of all
      crates inside a group, which is allowed if `rooted`. -/
  useTree : (rooted : Bool) → Parser (Option UseTree)

/-- The level at which nothing can be read any more. -/
def Grammar.empty : Grammar where
  bound := 0
  type _ := .fail
  bounded _ := .fail
  pattern := .fail
  expr _ := .fail
  operand _ := .fail
  arm := .fail
  statements := .fail
  item _ := .fail
  attributeContent := .fail
  useTree _ := .fail

namespace Grammar

open LogMarkers.Source.Parser

variable (g : Grammar)

/-! ## 1. Paths of attributes, macros and visibilities -/

/-- The names of a path without arguments. -/
def simpleNames : (n : Nat) → Parser (List Identifier)
  | 0 => fail
  | n + 1 => do
    if (← peek .name) || (← peek (.oneOf ["super", "self", "Self", "crate"])) then
      let first ← anyWord
      if ← optSign "::" then return first.ident :: (← simpleNames n)
      else return [first.ident]
    else fail

/-- A path without arguments. -/
def simplePath : Parser SourcePath := do
  let leadingColon ← optSign "::"
  return ⟨leadingColon, ← simpleNames g.bound⟩

/-! ## 2. Attributes -/

/-- The path of an attribute. -/
def attributePath : Parser SourcePath := do
  if ← peek (.word "unsafe") then return ⟨false, [(← anyWord).ident]⟩
  else g.simplePath

/-- The attributes that these trees list, if they are a list of attributes. -/
def attributesIn? (trees : List TokenTree) : Option (List Attribute) :=
  match listed g.attributeContent g.bound ⟨trees, 0, none⟩ with
  | .ok (attributes, c) => if c.leftover.isNone then some attributes else none
  | .error _ => none

/-- What an attribute with arguments is: under a condition, the attributes after the condition. -/
def withArguments (path : SourcePath) (arguments : List TokenTree) : Attribute :=
  if path.isWord "cfg_attr" then
    match g.attributesIn? arguments with
    | some attributes => .conditional (attributes.drop 1)
    | none => .plain path
  else .plain path

/-- The value of an attribute. -/
def attributeValue : Parser (Option String) := do
  let value ← attempt do
    let value ← literal
    if ← atEnd then return value else fail
  match value with
  | some value => return value
  | none =>
    if (← peek (.sign "#")) && (← peek (.second (.group .bracket))) then fail
    else
      discard (g.expr true)
      return none

/-- The content of an attribute. -/
def attributeBody : Parser Attribute := do
  let path ← g.attributePath
  match (← get).trees with
  | .group _ arguments _ _ :: _ =>
    discard tree
    return g.withArguments path arguments
  | _ =>
    if (← peek (.sign "=")) && !(← peek (.oneSign ["==", "=>"])) then
      sign "="
      return .assigned path (← g.attributeValue)
    else return .plain path

/-- The attributes before something. -/
def outerAttributes : Parser (List Attribute) :=
  whileLook (.sign "#") (do
    sign "#"
    group .bracket g.attributeContent) g.bound

/-- The attributes at the start of something, about the whole of it. -/
def innerAttributes : Parser (List Attribute) :=
  whileLook (fun trees => Look.sign "#" trees && Look.second (.sign "!") trees) (do
    sign "#"
    sign "!"
    group .bracket g.attributeContent) g.bound

/-! ## 3. Visibility, macros and blocks -/

/-- The restriction of a visibility; fails where the parentheses mean something else. -/
def restriction : Parser Unit := do
  let restricted ← group .paren do
    if ← peek (.oneOf ["crate", "self", "super"]) then
      discard anyWord
      atEnd
    else if ← optWord "in" then
      discard g.simplePath
      return true
    else return false
  if restricted then return () else fail

/-- A visibility; whether one is written. -/
def visibility : Parser Bool := do
  if ← optWord "pub" then
    match (← get).trees with
    | .group .paren (.word i _ :: _) _ _ :: _ =>
      if i.isWord "in" then g.restriction else discard (attempt g.restriction)
    | _ => pure ()
    return true
  else return false

/-- The call of a macro: its path, an exclamation mark and a group. -/
def macroCall : Parser Delimiter := do
  discard g.simplePath
  sign "!"
  anyGroup

/-- The call of a macro as an item or member: without braces it ends in a semicolon. -/
def macroItem : Parser Unit := do
  if (← g.macroCall) != .brace then sign ";"

/-- The start of a type or expression that is built into the language. -/
def builtInStart : Look := fun trees =>
  Look.word "builtin" trees && Look.second (.sign "#") trees

/-- A type or expression that is built into the language: its name and its arguments. -/
def builtIn : Parser Unit := do
  word "builtin"
  sign "#"
  discard name
  expect (.group .paren)

/-- A block without attributes of its own. -/
def block : Parser Unit := group .brace g.statements

/-- A block that can start with attributes of its own, which are the result. -/
def attributedBlock : Parser (List Attribute) :=
  group .brace do
    let attributes ← g.innerAttributes
    g.statements
    return attributes

end Grammar

end LogMarkers.Source
