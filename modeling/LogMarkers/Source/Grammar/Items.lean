import LogMarkers.Source.Grammar.Expressions

/-!
# Items

The declarations of a source file. Which kind of item follows is decided by looking ahead past the
visibility; items that the language reserves but gives no meaning are read and count as `other`.
The attributes inside a body follow those before the item.
-/

namespace LogMarkers.Source.Grammar

open LogMarkers.Source.Parser

variable (g : Grammar)

/-! ## 1. Functions -/

/-- A parameter that is the receiver, and not the start of a path: its line. -/
def receiver : Parser Nat := do
  let borrowed ← optSign "&"
  if borrowed then discard (optional .lifetime)
  discard (optWord "mut")
  let selfLine ← line
  word "self"
  if ← peek (.sign "::") then fail
  if !borrowed then
    if ← optSign ":" then discard (g.type true)
  return selfLine

/-- The parameters of a function. Only the first can be the receiver, and nothing follows the dots
    of a variable number. -/
def functionParameters : (n : Nat) → (first : Bool) → Parser Unit
  | 0, _ => fail
  | n + 1, first => do
    if ← atEnd then return ()
    discard g.outerAttributes
    if ← optSign "..." then
      if !(← atEnd) then sign ","
      return ()
    match ← attempt g.receiver with
    | some selfLine => if !first then throw selfLine
    | none =>
      if (← peek .name) && (← peek (.second (.sign "<"))) then discard (g.type true)
      else
        discard g.pattern
        sign ":"
        if ← optSign "..." then
          if !(← atEnd) then sign ","
          return ()
        discard (g.type true)
    if ← atEnd then return ()
    sign ","
    functionParameters n false

/-- The words before `fn`. -/
def functionWords (mayBeSafe : Bool) : Parser Unit := do
  discard (optWord "const")
  discard (optWord "async")
  let safe ← if mayBeSafe then optWord "safe" else pure false
  if !safe then discard (optWord "unsafe")
  foreignLanguage

/-- Whether a function starts here. -/
def functionAhead (mayBeSafe : Bool) : Parser Bool :=
  succeeds do
    functionWords mayBeSafe
    word "fn"

/-- A function up to its body: its name. -/
def signature (mayBeSafe : Bool) : Parser Name := do
  functionWords mayBeSafe
  word "fn"
  let declared ← name
  discard g.parameters
  groupThen .paren (g.functionParameters g.bound true) fun _ => do
    discard (g.returnType true)
    discard g.conditions
  return declared

/-! ## 2. Types and constants -/

/-- The start of fields that stand in place of the type of an unnamed field. -/
def innerFieldsAhead : Look := fun trees =>
  Look.word "struct" trees || (Look.word "union" trees && Look.second (.group .brace) trees)

/-- A field of a struct or union in braces; in place of its type an unnamed field can have fields of
    its own, which `inner` reads. -/
def namedField (inner : Parser (List Field)) : Parser Field := do
  let start ← line
  let attributes ← g.outerAttributes
  discard g.visibility
  let unnamed ← peek (.word "_")
  let declared ← nameOrUnderscore
  sign ":"
  if unnamed && (← peek innerFieldsAhead) then
    discard anyWord
    discard inner
  else discard (g.type true)
  return ⟨some declared.ident, attributes, start⟩

/-- A field of a tuple struct. -/
def tupleField : Parser Field := do
  let start ← line
  let attributes ← g.outerAttributes
  discard g.visibility
  discard (g.type true)
  return ⟨none, attributes, start⟩

/-- Fields in braces, with fields inside them `n` levels deep. -/
def fieldsWithin : (n : Nat) → Parser (List Field)
  | 0 => fail
  | n + 1 => group .brace (listed (g.namedField (fieldsWithin n)) g.bound)

/-- Fields in braces. -/
def namedFields : Parser (List Field) := g.fieldsWithin g.bound

/-- Fields in parentheses. -/
def tupleFields : Parser (List Field) := group .paren (listed g.tupleField g.bound)

/-- The rest of a struct after its parameters. -/
def structBody : Parser (List Field) := do
  let conditioned ← g.conditions
  if !conditioned && (← peek (.group .paren)) then
    let fields ← g.tupleFields
    discard g.conditions
    sign ";"
    return fields
  else if ← peek (.group .brace) then g.namedFields
  else
    sign ";"
    return []

/-- A variant of an enum. -/
def variant : Parser Unit := do
  discard g.outerAttributes
  discard g.visibility
  discard name
  if ← peek (.group .brace) then discard g.namedFields
  else if ← peek (.group .paren) then discard g.tupleFields
  if ← optSign "=" then discard (g.expr true)

/-- A constant after the word for it: its name, whether it has a value, and whether it is as plain
    as the language accepts it, without parameters and conditions. -/
def constant : Parser (Name × Bool × Bool) := do
  let declared ← nameOrUnderscore
  let parameters ← g.parameters
  sign ":"
  discard (g.type true)
  let valued ← optSign "="
  if valued then discard (g.expr true)
  let conditioned ← g.conditions
  sign ";"
  return (declared, valued, parameters.isNone && !conditioned)

/-- Where the conditions of a type alias stand. -/
inductive ConditionPlace where
  | beforeValue
  | afterValue
  | either
  deriving DecidableEq

/-- A type alias after its visibility: its name, and its type if it has one and no bounds. -/
def typeAlias (place : ConditionPlace) : Parser (Name × Option TypeForm) := do
  word "type"
  let declared ← name
  discard g.parameters
  let isEnd : Look := fun trees => Look.word "where" trees || Look.oneSign ["=", ";"] trees
  let bounds ← optSign ":"
  if bounds then discard (enclosed isEnd "+" (g.bounded .declaration) g.bound)
  let before ← if place = .afterValue then pure false else g.conditions
  let target ← do
    if ← optSign "=" then pure (some (← g.type true)) else pure none
  if place != .beforeValue && !before then discard g.conditions
  sign ";"
  return (declared, if bounds then none else target)

/-! ## 3. Members -/

/-- A member of an `impl` block; nothing where it is neither a method nor a constant. -/
def implMember : Parser (Option Member) := do
  let attributes ← g.outerAttributes
  let visible ← g.visibility
  let preferred ← do
    if (← peek (.word "default")) && !(← peek (.second (.sign "!"))) then optWord "default"
    else pure false
  if ← functionAhead false then
    let declared ← g.signature false
    if ← optSign ";" then return none
    let inner ← g.attributedBlock
    return some ⟨.method, declared, attributes ++ inner⟩
  else if ← optWord "const" then
    let (declared, valued, plain) ← g.constant
    return if valued && plain then some ⟨.constant, declared, attributes⟩ else none
  else if ← peek (.word "type") then
    discard (g.typeAlias .afterValue)
    return none
  else if !visible && !preferred && (← peek .pathStart) then
    g.macroItem
    return none
  else fail

/-- A member of a trait; nothing where it is neither a method nor a constant. -/
def traitMember : Parser (Option Member) := do
  let attributes ← g.outerAttributes
  let visible ← g.visibility
  let preferred ← optWord "default"
  let reserved := visible || preferred
  if ← functionAhead false then
    let declared ← g.signature false
    let inner ← do
      if ← peek (.group .brace) then g.attributedBlock
      else
        sign ";"
        pure []
    return if reserved then none else some ⟨.method, declared, attributes ++ inner⟩
  else if ← optWord "const" then
    let (declared, _, plain) ← g.constant
    return if plain && !reserved then some ⟨.constant, declared, attributes⟩ else none
  else if ← peek (.word "type") then
    discard (g.typeAlias .afterValue)
    return none
  else if !reserved && (← peek .pathStart) then
    g.macroItem
    return none
  else fail

/-- A member of a block of foreign declarations. -/
def foreignMember : Parser Unit := do
  discard g.outerAttributes
  let visible ← g.visibility
  if ← functionAhead true then
    discard (g.signature true)
    if ← peek (.group .brace) then discard g.attributedBlock else sign ";"
  else if (← peek (.word "static")) || ((← peek (.oneOf ["unsafe", "safe"])) &&
      (← peek (.second (.word "static")))) then
    unless ← optWord "static" do
      discard tree
      word "static"
    discard (optWord "mut")
    discard name
    sign ":"
    discard (g.type true)
    if ← optSign "=" then discard (g.expr true)
    sign ";"
  else if ← peek (.word "type") then discard (g.typeAlias .either)
  else if !visible && (← peek .pathStart) then g.macroItem
  else fail

/-- The content of a block of members: the attributes inside it and the members. -/
def memberBlock {α : Type} (p : Parser α) : Parser (List Attribute × List α) :=
  group .brace do
    let inner ← g.innerAttributes
    return (inner, ← untilEnd p g.bound)

/-! ## 4. Traits and implementations -/

/-- The rest of a trait after its parameters. -/
def traitBody (declared : Name) (attributes : List Attribute) : Parser Item := do
  let isEnd : Look := fun trees => Look.word "where" trees || Look.group .brace trees
  if ← optSign ":" then discard (enclosed isEnd "+" (g.bounded .declaration) g.bound)
  discard g.conditions
  let (inner, members) ← g.memberBlock g.traitMember
  return .trait declared (attributes ++ inner) (members.filterMap id)

/-- A trait, or another name for bounds, which counts as `other`. -/
def traitItem (attributes : List Attribute) : Parser Item := do
  let isUnsafe ← optWord "unsafe"
  let isAuto ← optWord "auto"
  word "trait"
  let declared ← name
  discard g.parameters
  if !isUnsafe && !isAuto && (← peek (.sign "=")) then
    sign "="
    let isEnd : Look := fun trees => Look.word "where" trees || Look.sign ";" trees
    discard (enclosed isEnd "+" (g.bounded .object) g.bound)
    discard g.conditions
    sign ";"
    return .other
  else g.traitBody declared attributes

/-- Whether a type can be the trait of an implementation. -/
def isTraitPath : TypeForm → Bool
  | .path _ => true
  | _ => false

/-- An implementation after its visibility. One that the language reserves counts as `other`: with a
    visibility, for constants, or of something that is no trait. -/
def implItem (visible : Bool) (attributes : List Attribute) : Parser Item := do
  discard (optWord "default")
  discard (optWord "unsafe")
  word "impl"
  if ← peek parametersAhead then discard g.parameters
  let constant ← do
    if (← peek (.sign "?")) && (← peek (.second (.word "const"))) then discard (optSign "?")
    optWord "const"
  let start ← line
  let negative ← do
    if (← peek (.sign "!")) && !(← peek (.second (.group .brace))) then optSign "!" else pure false
  let firstLine ← line
  let first ← g.type true
  let (selfType, selfLine, reserved) ← do
    if ← optWord "for" then
      let selfLine ← line
      pure (← g.type true, selfLine, !isTraitPath first)
    else if negative then throw start
    else pure (first, firstLine, false)
  discard g.conditions
  let (inner, members) ← g.memberBlock g.implMember
  if visible || constant || reserved then return .other
  else return .impl selfType.path? selfLine (attributes ++ inner) (members.filterMap id)

/-! ## 5. Imports -/

/-- The trees of a group of imports; nothing where one of them starts at the root of all crates. -/
def useGroup (rooted : Bool) : (n : Nat) → Parser (Option (List UseTree))
  | 0 => fail
  | n + 1 => do
    if ← atEnd then return some []
    let atRoot ← if rooted then optSign "::" else pure false
    let tree ← g.useTree (rooted && !atRoot)
    let trees ← do
      if ← atEnd then pure (some [])
      else
        sign ","
        useGroup rooted n
    return if atRoot then none else
      match tree, trees with
      | some tree, some trees => some (tree :: trees)
      | _, _ => none

/-- The tree of a `use` declaration. -/
def useTreeBody (rooted : Bool) : Parser (Option UseTree) := do
  if (← peek .name) || (← peek (.oneOf ["self", "super", "crate", "try"])) then
    let first ← anyWord
    if ← optSign "::" then return (← g.useTree false).map (.path first.ident ·)
    else if ← optWord "as" then return some (.rename first.ident (← nameOrUnderscore).ident)
    else return some (.name first.ident)
  else if ← optSign "*" then return some .glob
  else if ← peek (.group .brace) then
    return (← group .brace (g.useGroup rooted g.bound)).map .group
  else fail

/-- A `use` declaration after its visibility. -/
def useItem : Parser Item := do
  word "use"
  let leadingColon ← optSign "::"
  let tree ← g.useTree !leadingColon
  sign ";"
  match tree with
  | some tree => return .imports leadingColon tree
  | none => return .other

/-! ## 6. Items -/

/-- The word after `unsafe` decides what follows it. -/
def unsafeItem (visible : Bool) (attributes : List Attribute) (moduleItem : Parser Item)
    (foreignItem : Parser Item) : Parser Item := do
  if (← peek (.second (.word "trait"))) ||
      ((← peek (.second (.word "auto"))) && (← peek (.third (.word "trait")))) then
    g.traitItem attributes
  else if ← peek (.second (.word "impl")) then g.implItem visible attributes
  else if ← peek (.second (.word "extern")) then foreignItem
  else if ← peek (.second (.word "mod")) then moduleItem
  else
    word "unsafe"
    fail

/-- A module after its visibility. -/
def moduleItem (attributes : List Attribute) : Parser Item := do
  discard (optWord "unsafe")
  word "mod"
  let declared ← if ← peek (.word "try") then anyWord else name
  if ← optSign ";" then return .fileModule declared attributes
  else
    let (inner, items) ← g.memberBlock do
      g.item (← g.outerAttributes)
    return .inlineModule declared (attributes ++ inner) items

/-- A block of foreign declarations, which has no visibility; `visibleAt` is the line of one. -/
def foreignItem (visibleAt : Option Nat) : Parser Item := do
  match visibleAt with
  | some line => throw line
  | none =>
    discard (optWord "unsafe")
    foreignLanguage
    discard (g.memberBlock g.foreignMember)
    return .other

/-- An item that starts with `extern`. -/
def externItem (visibleAt : Option Nat) : Parser Item := do
  if ← peek (.second (.word "crate")) then
    word "extern"
    word "crate"
    let declared ← if ← peek (.word "self") then anyWord else name
    let rename ← do
      if ← optWord "as" then pure (some (← nameOrUnderscore).ident) else pure none
    sign ";"
    return .externCrate declared.ident rename
  else if (← peek (.second (.group .brace))) ||
      ((← peek (.second .text)) && (← peek (.third (.group .brace)))) then
    g.foreignItem visibleAt
  else
    word "extern"
    if ← peek .text then discard literal
    fail

/-- A static after its visibility; without a type or a value it counts as `other`. -/
def staticItem (attributes : List Attribute) : Parser Item := do
  word "static"
  discard (optWord "mut")
  let declared ← name
  if ← optSign "=" then
    discard (g.expr true)
    sign ";"
    return .other
  else
    sign ":"
    discard (g.type true)
    if ← optSign ";" then return .other
    sign "="
    discard (g.expr true)
    sign ";"
    return .static declared attributes

/-- A function; without a body it counts as `other`. -/
def functionItem (attributes : List Attribute) : Parser Item := do
  let declared ← g.signature false
  if ← optSign ";" then return .other
  return .function declared (attributes ++ (← g.attributedBlock))

/-- The definition of a macro by a pattern. -/
def macroDefinition : Parser Item := do
  word "macro"
  discard name
  discard (optional (.group .paren))
  expect (.group .brace)
  return .other

/-- The call of a macro, possibly one that defines a name. -/
def macroCallItem : Parser Item := do
  discard g.simplePath
  sign "!"
  if (← peek .name) || (← peek (.word "try")) then discard anyWord
  if (← anyGroup) != .brace then sign ";"
  return .other

/-- An item after its outer attributes. -/
def itemBody (attributes : List Attribute) : Parser Item := do
  let start ← line
  let visible ← g.visibility
  let visibleAt := if visible then some start else none
  if ← functionAhead false then g.functionItem attributes
  else if ← peek (.word "extern") then g.externItem visibleAt
  else if ← peek (.word "use") then g.useItem
  else if ← peek (.word "static") then g.staticItem attributes
  else if ← optWord "const" then
    let (declared, valued, plain) ← g.constant
    return if valued && plain then .const declared attributes else .other
  else if ← peek (.word "unsafe") then
    g.unsafeItem visible attributes (g.moduleItem attributes) (g.foreignItem visibleAt)
  else if ← peek (.word "mod") then g.moduleItem attributes
  else if ← peek (.word "type") then
    match ← g.typeAlias .beforeValue with
    | (declared, some target) => return .typeAlias declared target.path?
    | (_, none) => return .other
  else if ← optWord "struct" then
    let declared ← name
    let parameters ← g.parameters
    return .struct declared (isGeneric parameters) attributes (← g.structBody)
  else if ← optWord "enum" then
    let declared ← name
    let parameters ← g.parameters
    discard g.conditions
    discard (group .brace (listed g.variant g.bound))
    return .enum declared (isGeneric parameters) attributes
  else if (← peek (.word "union")) && (← peek (.second .name)) then
    word "union"
    let declared ← name
    let parameters ← g.parameters
    discard g.conditions
    return .union declared (isGeneric parameters) attributes (← g.namedFields)
  else if (← peek (.word "trait")) ||
      ((← peek (.word "auto")) && (← peek (.second (.word "trait")))) then
    g.traitItem attributes
  else if (← peek (.word "impl")) ||
      ((← peek (.word "default")) && !(← peek (.second (.sign "!")))) then
    g.implItem visible attributes
  else if ← peek (.word "macro") then macroDefinition
  else if !visible && (← peek .pathStart) then g.macroCallItem
  else fail

end LogMarkers.Source.Grammar
