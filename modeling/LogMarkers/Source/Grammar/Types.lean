import LogMarkers.Source.Grammar.Basic

/-!
# Types, bounds and parameters

Paths with arguments, types, bounds, and the parameter lists and `where` clauses built from them. A
path in a type takes arguments right after a name; a path in an expression takes them after a double
colon only, since there the sign is a comparison. Arguments in parentheses belong to bounds: a type
that is a plain path has none.
-/

namespace LogMarkers.Source

/-- A path that was read, with where its arguments stand. -/
structure PathForm where
  path : SourcePath
  /-- No name has arguments. -/
  bare : Bool
  /-- The last name has none. -/
  lastBare : Bool

namespace Grammar

open LogMarkers.Source.Parser

variable (g : Grammar)

/-! ## 1. Arguments -/

/-- The start of a list of arguments right after a name. -/
def openAngle : Look := fun trees =>
  Look.sign "<" trees && !Look.sign "<=" trees && !Look.sign "<<=" trees

/-- The start of a list of arguments after a double colon. -/
def colonAngle : Look := fun trees => Look.sign "::" trees && Look.third (.sign "<") trees

/-- A constant that is an argument or the default of a parameter. -/
def constArgument : Parser Unit := do
  if ← peek .literal then discard literal
  else if ← peek .name then discard name
  else if ← peek (.group .brace) then discard g.attributedBlock
  else fail

/-- One parameter; whether it is a type or a constant. -/
def parameter : Parser Bool := do
  discard g.outerAttributes
  if ← optional .lifetime then
    if ← optSign ":" then
      discard (chained (.oneSign [",", ">"]) "+" lifetime g.bound)
    return false
  else if ← peek .name then
    discard name
    if ← optSign ":" then
      discard (chained (.oneSign [",", ">", "="]) "+" (g.bounded .declaration) g.bound)
    if ← optSign "=" then discard (g.type true)
    return true
  else if ← optWord "const" then
    discard name
    sign ":"
    discard (g.type true)
    if ← optSign "=" then g.constArgument
    return true
  else fail

/-- The parameters that a type or bound is quantified over, if `for` stands there. -/
def quantifier : Parser Bool := do
  if ← optWord "for" then
    sign "<"
    discard (enclosed (.sign ">") "," g.parameter g.bound)
    sign ">"
    return true
  else return false

/-- What a function gives back, if it is written; whether its last token is a closing brace. -/
def returnType (sums : Bool) : Parser Bool := do
  if ← optSign "->" then return (← g.type sums).endsInBrace else return false

/-- Arguments in parentheses, as of the traits of functions; whether the last token is a closing
    brace. -/
def callArguments : Parser Bool := do
  discard (group .paren (listed (g.type true) g.bound))
  g.returnType false

/-- Whether a type can be given a value or bounds inside a list of arguments. -/
def isAssociated : TypeForm → Bool
  | .path ⟨false, [_]⟩ => true
  | _ => false

/-- One argument in angle brackets. -/
def genericArgument : Parser Unit := do
  if (← peek .lifetime) && !(← peek (.second (.sign "+"))) then lifetime
  else if (← peek .literal) || (← peek (.group .brace)) then g.constArgument
  else
    let form ← g.type true
    if isAssociated form then
      if ← optSign "=" then
        if (← peek .literal) || (← peek (.group .brace)) then g.constArgument
        else discard (g.type true)
      else if ← optSign ":" then
        discard (chained (.oneSign [",", ">"]) "+" (g.bounded .declaration) g.bound)

/-- Arguments in angle brackets. -/
def genericArguments : Parser Unit := do
  discard (optSign "::")
  sign "<"
  discard (enclosed (.sign ">") "," g.genericArgument g.bound)
  sign ">"

/-! ## 2. Paths -/

/-- One name of a path with its arguments; whether it has some. -/
def segment (inExpr : Bool) : Parser (Identifier × Bool) := do
  if ← peek (.oneOf ["super", "self", "crate", "try"]) then return ((← anyWord).ident, false)
  let first ← if ← peek (.word "Self") then anyWord else name
  if (!inExpr && (← peek openAngle)) || (← peek colonAngle) then
    g.genericArguments
    return (first.ident, true)
  else return (first.ident, false)

/-- The names that follow in a path; a group in parentheses ends it. -/
def moreSegments (inExpr : Bool) : (n : Nat) → Parser (List (Identifier × Bool))
  | 0 => fail
  | n + 1 => do
    if (← peek (.sign "::")) && !(← peek (.third (.group .paren))) then
      sign "::"
      let next ← g.segment inExpr
      return next :: (← moreSegments inExpr n)
    else return []

/-- The form of a path with these names. -/
def pathForm (leadingColon : Bool) (segments : List (Identifier × Bool)) : PathForm where
  path := ⟨leadingColon, segments.map (·.1)⟩
  bare := segments.all (!·.2)
  lastBare := (segments.getLast?.map (!·.2)).getD true

/-- A path with arguments. -/
def plainPath (inExpr : Bool) : Parser PathForm := do
  let leadingColon ← optSign "::"
  let first ← g.segment inExpr
  let rest ← g.moreSegments inExpr g.bound
  return pathForm leadingColon (first :: rest)

/-- The names after a type in angle brackets. -/
def segmentsAfterType (inExpr : Bool) : (n : Nat) → Parser Unit
  | 0 => fail
  | n + 1 => do
    sign "::"
    discard (g.segment inExpr)
    if ← peek (.sign "::") then segmentsAfterType inExpr n

/-- A path that can start with a type in angle brackets; the path is absent where it does. -/
def qualifiedPath (inExpr : Bool) : Parser (Option PathForm) := do
  if ← optSign "<" then
    discard (g.type true)
    if ← optWord "as" then discard (g.plainPath false)
    sign ">"
    g.segmentsAfterType inExpr g.bound
    return none
  else return some (← g.plainPath inExpr)

/-! ## 3. Bounds -/

/-- The parameters that a hidden type captures; the line they start on. -/
def captures : Parser Nat := do
  let start ← line
  word "use"
  sign "<"
  discard (enclosed (.sign ">") "," (do
    if ← peek (.word "Self") then discard anyWord
    else if ← peek .lifetime then lifetime
    else discard name) g.bound)
  sign ">"
  return start

/-- The mark of a trait that works on constants, where the place allows it; whether it is there. -/
def constMark (place : BoundPlace) : Parser Bool := do
  let start ← line
  let marked ← do
    if ← peek (.group .bracket) then
      group .bracket (word "const")
      pure true
    else optWord "const"
  if marked && !place.allowsConst then throw start
  return marked

/-- Arguments in parentheses after the path of a trait, if its last name has no others; whether the
    last token is a closing brace. -/
def traitArguments (form : PathForm) : Parser Bool := do
  if form.lastBare &&
      ((← peek (.group .paren)) ||
        ((← peek (.sign "::")) && (← peek (.third (.group .paren))))) then
    discard (optSign "::")
    g.callArguments
  else return false

/-- A trait with what may stand before it. One that is not required to hold is not quantified. Of
    parentheses around it (`inParens`) only those around a marked trait count as its end. -/
def traitBound (place : BoundPlace) (inParens : Bool) : Parser BoundForm := do
  let quantifiedFirst ← g.quantifier
  let marked ← constMark place
  let start ← line
  let relaxed ← optSign "?"
  let quantified ← if relaxed && !quantifiedFirst then g.quantifier else pure quantifiedFirst
  let form ← g.plainPath false
  let endsInBrace ← g.traitArguments form
  if relaxed && quantified then throw start
  return ⟨true, endsInBrace && !(inParens && marked)⟩

/-- A bound: a lifetime, captured parameters, or a trait, possibly in parentheses. -/
def boundBody (place : BoundPlace) : Parser BoundForm := do
  if ← optional .lifetime then return ⟨false, false⟩
  else if ← peek (.word "use") then
    let start ← g.captures
    if place.allowsCaptures then return ⟨false, false⟩ else throw start
  else if ← peek (.group .paren) then group .paren (g.traitBound place true)
  else g.traitBound place false

/-- The start of a further bound. -/
def moreBounds (place : BoundPlace) : Look := fun trees =>
  Look.anyWord trees || Look.oneSign ["::", "?"] trees || Look.lifetime trees ||
    Look.group .paren trees || (place.allowsConst && Look.group .bracket trees)

/-- Bounds, with plus signs between them if `sums`; a plus sign may stand at the end. -/
def boundSum (place : BoundPlace) (sums : Bool) : (n : Nat) → Parser BoundForm
  | 0 => fail
  | n + 1 => do
    let first ← g.bounded place
    if sums && (← peek (.sign "+")) then
      sign "+"
      if ← peek (moreBounds place) then
        let rest ← boundSum place sums n
        return ⟨first.hasTrait || rest.hasTrait, rest.endsInBrace⟩
      else return first
    else return first

/-- The bounds of a type, of which one at least is a trait; `start` is the line it starts on. -/
def boundType (place : BoundPlace) (sums : Bool) (start : Nat) : Parser TypeForm := do
  let form ← g.boundSum place sums g.bound
  if form.hasTrait then return .other form.endsInBrace else throw start

/-- Bounds added to a type that is the first of them. -/
def addedBounds : Parser TypeForm := do
  sign "+"
  if ← peek (moreBounds .object) then
    return .other (← g.boundSum .object true g.bound).endsInBrace
  else return .other false

/-- Bounds added to a first one in parentheses, one after each plus sign; a single one stays a
    bound. -/
def requiredBounds : (n : Nat) → (first : TypeForm) → Parser TypeForm
  | 0, _ => fail
  | n + 1, first => do
    if ← optSign "+" then
      let next ← g.bounded .object
      requiredBounds n (.other next.endsInBrace)
    else return first

/-! ## 4. Types -/

/-- Whether a type can be the first of several bounds. -/
def isBound : TypeForm → Bool
  | .path _ | .bound _ => true
  | _ => false

/-- The content of parentheses where a type stands: nothing, one type, several, or a bound. -/
def parenContent : Parser TypeForm := do
  if ← atEnd then return .other false
  else if ← peek .lifetime then return .paren (← g.boundType .object true (← line))
  else if ← peek (.sign "?") then
    return .bound (← g.traitBound .object true).endsInBrace
  else
    let first ← g.type true
    if ← optSign "," then
      discard (listed (g.type true) g.bound)
      return .other false
    else return .paren first

/-- A type in parentheses, a tuple, or a sum of bounds that starts with parentheses. -/
def parenType (sums : Bool) : Parser TypeForm :=
  groupThen .paren g.parenContent fun form => do
    match form with
    | .bound _ => g.requiredBounds g.bound form
    | .paren first =>
      if sums && isBound first && (← peek (.sign "+")) then g.requiredBounds g.bound first
      else return form
    | _ => return form

/-- The dots of a variable number of parameters, possibly after a name. -/
def variadicAhead : Look := fun trees =>
  Look.sign "..." trees || ((Look.name trees || Look.word "_" trees) &&
    Look.second (.sign ":") trees && Look.third (.sign "...") trees)

/-- A receiver that can be changed. -/
def mutableSelf : Look := fun trees => Look.word "mut" trees && Look.second (.word "self") trees

/-- The parameter of a function type: a type, possibly after a name. Only the first can be the
    receiver. -/
def functionTypeParameter (first : Bool) : Parser Unit := do
  let mutable := first && (← peek mutableSelf)
  if mutable then word "mut"
  let receiver := first && (← peek (.word "self"))
  let named := (receiver || (← peek .name) || (← peek (.word "_"))) && (← peek (.second .colon))
  if named then
    discard anyWord
    sign ":"
  if first && !(named && receiver) && (← peek mutableSelf) then
    word "mut"
    word "self"
  else if mutable && !named then word "self"
  else discard (g.type true)

/-- The parameters of a function type; dots for a variable number end them. -/
def functionTypeParameters : (n : Nat) → (first : Bool) → Parser Unit
  | 0, _ => fail
  | n + 1, first => do
    if ← atEnd then return ()
    discard g.outerAttributes
    if ← peek variadicAhead then
      unless ← peek (.sign "...") do
        discard anyWord
        sign ":"
      sign "..."
      discard (optSign ",")
      return ()
    g.functionTypeParameter first
    if ← atEnd then return ()
    sign ","
    functionTypeParameters n false

/-- The language of a function, if `extern` stands there. -/
def foreignLanguage : Parser Unit := do
  if ← optWord "extern" then
    if ← peek .text then discard literal

/-- A function type. -/
def functionType : Parser TypeForm := do
  discard (optWord "unsafe")
  foreignLanguage
  word "fn"
  let endsInBrace ← groupThen .paren (g.functionTypeParameters g.bound true) fun _ =>
    g.returnType false
  return .other endsInBrace

/-- The start of the path of a type. -/
def typePathStart : Look := fun trees =>
  Look.name trees || Look.oneOf ["super", "self", "Self", "crate"] trees ||
    Look.oneSign ["::", "<"] trees

/-- A type that starts with a path: the path, the call of a macro, or a sum of bounds. -/
def pathType (sums quantified : Bool) : Parser TypeForm := do
  match ← g.qualifiedPath false with
  | none => return .other false
  | some form =>
    if (← peek (.sign "!")) && !(← peek (.sign "!=")) && form.bare then
      sign "!"
      return .other ((← anyGroup) == .brace)
    else if sums && (← peek (.sign "+")) then g.addedBounds
    else if quantified then return .bound false
    else return .path form.path

/-- A type. -/
def typeBody (sums : Bool) : Parser TypeForm := do
  let start ← line
  let quantified ← g.quantifier
  if quantified then
    unless ← peek (fun trees => Look.name trees ||
        Look.oneOf ["fn", "unsafe", "extern", "super", "self", "Self", "crate"] trees) do fail
  if ← peek (.group .paren) then g.parenType sums
  else if ← peek (.oneOf ["fn", "unsafe", "extern"]) then g.functionType
  else if ← peek builtInStart then
    builtIn
    return .other false
  else if ← peek typePathStart then g.pathType sums quantified
  else if ← optWord "dyn" then
    discard (optSign "*")
    g.boundType .object sums start
  else if ← peek (.group .bracket) then
    group .bracket do
      discard (g.type true)
      if ← optSign ";" then discard (g.expr true)
    return .other false
  else if ← optSign "*" then
    unless ← optWord "const" do word "mut"
    return .other (← g.type false).endsInBrace
  else if ← optSign "&" then
    discard (optional .lifetime)
    discard (optWord "mut")
    return .other (← g.type false).endsInBrace
  else if ← optSign "!" then return .other false
  else if ← optWord "impl" then g.boundType .hidden sums start
  else if ← optWord "_" then return .other false
  else if ← peek .lifetime then g.boundType .object true start
  else fail

/-! ## 5. Parameters and conditions -/

/-- Whether angle brackets hold parameters and not the start of a path. -/
def parametersAhead : Look := fun trees =>
  Look.sign "<" trees && (Look.second (.oneSign [">", "#"]) trees ||
    Look.second (.word "const") trees ||
    (Look.second (fun rest => Look.lifetime rest || Look.name rest) trees &&
      Look.third (fun rest => Look.oneSign [">", ",", "="] rest || Look.colon rest) trees))

/-- One parameter of a declaration, which can be left unnamed. -/
def declaredParameter : Parser Bool := do
  discard g.outerAttributes
  if ← optWord "_" then return true else g.parameter

/-- Parameters in angle brackets, if they are written: whether each is a type or a constant. -/
def parameters : Parser (Option (List Bool)) := do
  if ← optSign "<" then
    let kinds ← enclosed (.sign ">") "," g.declaredParameter g.bound
    sign ">"
    return some kinds
  else return none

/-- Whether parameters hold a type or a constant. -/
def isGeneric (parameters : Option (List Bool)) : Bool := (parameters.getD []).any id

/-- The end of a list of conditions or bounds. -/
def conditionsEnd : Look := fun trees =>
  Look.nothing trees || Look.group .brace trees || Look.oneSign [",", ";", "="] trees ||
    Look.colon trees

/-- One condition of a `where` clause. -/
def condition : Parser Unit := do
  if (← peek .lifetime) && (← peek (.second (.sign ":"))) then
    lifetime
    sign ":"
    discard (chained conditionsEnd "+" lifetime g.bound)
  else
    discard g.quantifier
    discard (g.type true)
    sign ":"
    discard (chained conditionsEnd "+" (g.bounded .declaration) g.bound)

/-- A `where` clause, which has no parameters of its own; whether one is written. -/
def conditions : Parser Bool := do
  if ← optWord "where" then
    if ← peek parametersAhead then fail
    discard (chained conditionsEnd "," g.condition g.bound)
    return true
  else return false

end Grammar

end LogMarkers.Source
