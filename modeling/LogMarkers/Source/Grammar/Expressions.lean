import LogMarkers.Source.Grammar.Patterns
import LogMarkers.Source.Operator

/-!
# Expressions and statements

Expressions are read and forgotten, except for what decides where they end (`ExprForm`). Operators
are read by precedence: `climb` takes those that bind at least as tightly as asked for, and the
right side of each takes those that bind it more tightly (`tighten`). Two rules go beyond
precedence: a range is the left side of nothing, and comparisons are not chained.
-/

namespace LogMarkers.Source.Grammar

open LogMarkers.Source.Parser

variable (g : Grammar)

/-! ## 1. Operators -/

/-- Where the end of a range may be left out in an expression. -/
def openRange (literals : Bool) : Look := fun trees =>
  Look.nothing trees || Look.point trees || (!literals && Look.group .brace trees) ||
    Look.word "as" trees ||
    Look.oneSign [",", ";", "?", "=", "+", "/", "%", "^", ">", "<=", "!=", "-=", "*=", "&=", "|=",
      "<<="] trees

/-- What must not follow a cast without parentheses. -/
def afterCast : Look := fun trees =>
  Look.point trees || Look.sign "?" trees || Look.group .bracket trees || Look.group .paren trees

/-- The right side of an operator, extended by `climb` as long as operators follow that bind more
    tightly; assignments bind to the right. -/
def tighten (climb : Precedence → ExprForm → Parser ExprForm) (left : Precedence) :
    (n : Nat) → ExprForm → Parser ExprForm
  | 0, _ => fail
  | n + 1, form => do
    let next := Operator.precedenceAhead (← get).trees
    let tighter := decide (left.rank < next.rank) || (left == .assignment && next == .assignment)
    if tighter && !form.range then tighten climb left n (← climb next form) else return form

/-- The right side of an operator of this precedence. -/
def rightSide (literals : Bool) (climb : Precedence → ExprForm → Parser ExprForm)
    (left : Precedence) : Parser ExprForm := do
  let first ← g.operand literals
  tighten climb left g.bound first

/-- The dots of a range and its end, which can be left out where nothing asks for it. -/
def rangeTail (literals : Bool) (climb : Precedence → ExprForm → Parser ExprForm) :
    Parser ExprForm := do
  if ← peek (.sign "...") then fail
  let closed ← optSign "..="
  if !closed then sign ".."
  if !closed && (← peek (openRange literals)) then return { range := true }
  else
    let last ← g.rightSide literals climb .range
    return { range := true, endsInBrace := last.endsInBrace }

/-- An operator with what stands on its right: the form of the expression it makes. -/
def applied (literals : Bool) (climb : Precedence → ExprForm → Parser ExprForm) :
    Operator → Parser ExprForm
  | .binary text precedence => do
    sign text
    let right ← g.rightSide literals climb precedence
    return { endsInBrace := right.endsInBrace, comparison := precedence == .comparison }
  | .assign => do
    sign "="
    let right ← g.rightSide literals climb .assignment
    return { endsInBrace := right.endsInBrace }
  | .range => g.rangeTail literals climb
  | .cast => do
    word "as"
    let target ← g.type false
    if ← peek afterCast then fail
    return { endsInBrace := target.endsInBrace }

/-- The operators after a left side that bind at least as tightly as `base`, with their right
    sides. -/
def climb (literals : Bool) : (n : Nat) → (base : Precedence) → ExprForm → Parser ExprForm
  | 0, _, _ => fail
  | n + 1, base, left => do
    match Operator.ahead? (← get).trees with
    | none => return left
    | some operator =>
      if left.range || decide (operator.precedence.rank < base.rank) then return left
      if left.comparison && operator.precedence == .comparison then fail
      climb literals n base (← g.applied literals (climb literals n) operator)

/-- Everything that follows a first operand in an expression. -/
def afterOperand (literals : Bool) (first : ExprForm) : Parser ExprForm :=
  g.climb literals g.bound .jump first

/-- An expression. -/
def exprBody (literals : Bool) : Parser ExprForm := do
  g.afterOperand literals (← g.operand literals)

/-! ## 2. Blocks -/

/-- A condition: no struct literal, so that the block after it is not taken for one. -/
def test : Parser Unit := discard (g.expr false)

/-- The form of an expression that is a block. -/
def blockForm : ExprForm := { blockLike := true, endsInBrace := true }

/-- `if` with its branches. -/
def ifExpr : (n : Nat) → Parser Unit
  | 0 => fail
  | n + 1 => do
    word "if"
    g.test
    g.block
    if ← optWord "else" then
      if ← peek (.word "if") then ifExpr n else g.block

/-- The start of a closure that is quantified over parameters. -/
def quantifiedClosure : Look := fun trees =>
  Look.word "for" trees && Look.second parametersAhead trees

/-- The start of an expression that is a block. -/
def blockStart : Look := fun trees =>
  Look.oneOf ["if", "while", "loop", "match", "unsafe"] trees ||
    (Look.word "for" trees && !quantifiedClosure trees) ||
    (Look.oneOf ["try", "const"] trees && Look.second (.group .brace) trees) ||
    Look.group .brace trees || Look.lifetime trees

/-- A loop or block that can have a label. -/
def labelled : Parser Unit := do
  if ← optWord "while" then
    g.test
    discard g.attributedBlock
  else if ← optWord "for" then
    discard g.alternatives
    word "in"
    g.test
    discard g.attributedBlock
  else if ← optWord "loop" then discard g.attributedBlock
  else if ← peek (.group .brace) then discard g.attributedBlock
  else fail

/-- An expression that is a block. -/
def blockExpr : Parser ExprForm := do
  if ← peek (.word "if") then g.ifExpr g.bound
  else if ← optWord "match" then
    g.test
    group .brace do
      discard g.innerAttributes
      discard (untilEnd g.arm g.bound)
  else if ← optWord "try" then g.block
  else if ← peek (.oneOf ["unsafe", "const"]) then
    discard tree
    discard g.attributedBlock
  else
    if ← peek .lifetime then
      lifetime
      sign ":"
    g.labelled
  return blockForm

/-! ## 3. Expressions without operators -/

/-- Arguments of a call. -/
def callList : Parser Unit := discard (group .paren (listed (g.expr true) g.bound))

/-- A field or method by name or position. -/
def namedMember : Parser Unit := do
  if ← optWord "await" then return ()
  let named ← fieldName
  if named then
    let arguments ← peek (.sign "::")
    if arguments then g.genericArguments
    if arguments || (← peek (.group .paren)) then g.callList

/-- What follows the point: a field, a method call, or `await`. Two positions with a point between
    are one token. -/
def member : Parser Unit := do
  match (← get).trees with
  | .literal (.fraction endsInPoint positions) _ :: _ =>
    if !positions then fail
    discard tree
    if endsInPoint then g.namedMember
  | _ => g.namedMember

/-- What may follow an expression: calls, fields, methods, indices and question marks. -/
def trailers : (n : Nat) → ExprForm → Parser ExprForm
  | 0, _ => fail
  | n + 1, form => do
    if ← peek (.group .paren) then
      g.callList
      trailers n {}
    else if (← peek .point) && !form.range then
      sign "."
      g.member
      trailers n {}
    else if ← peek (.group .bracket) then
      discard (group .bracket (g.expr true))
      trailers n {}
    else if (← peek (.sign "?")) && !form.range then
      sign "?"
      trailers n {}
    else return form

/-- The start of an expression after `return`, `break` or `yield`. -/
def exprStart : Look := fun trees =>
  (Look.anyWord trees && !Look.word "as" trees) || Look.anyGroup trees || Look.literal trees ||
    (Look.sign "!" trees && !Look.sign "!=" trees) ||
    (Look.sign "-" trees && !Look.oneSign ["-=", "->"] trees) ||
    (Look.sign "*" trees && !Look.sign "*=" trees) ||
    (Look.sign "|" trees && !Look.sign "|=" trees) ||
    (Look.sign "&" trees && !Look.sign "&=" trees) ||
    (Look.sign "<" trees && !Look.oneSign ["<=", "<<="] trees) ||
    Look.oneSign ["..", "::", "#"] trees || Look.lifetime trees

/-- The value of a jump, if there is one. -/
def jumpValue (allowed : Bool) : Parser ExprForm := do
  if allowed && (← peek exprStart) then
    let value ← g.expr true
    return { endsInBrace := value.endsInBrace }
  else return {}

/-- The start of a closure. -/
def closureStart : Look := fun trees =>
  Look.sign "|" trees || Look.oneOf ["move", "static"] trees || quantifiedClosure trees ||
    (Look.word "const" trees && !Look.second (.group .brace) trees) ||
    (Look.word "async" trees && Look.second (fun rest =>
      Look.sign "|" rest || Look.word "move" rest) trees)

/-- A parameter of a closure. -/
def closureParameter : Parser Unit := do
  discard g.outerAttributes
  discard g.pattern
  if ← optSign ":" then discard (g.type true)

/-- A closure. -/
def closure (literals : Bool) : Parser ExprForm := do
  discard g.quantifier
  for modifier in ["const", "static", "async", "move"] do
    discard (optWord modifier)
  sign "|"
  discard (enclosed (.sign "|") "," g.closureParameter g.bound)
  sign "|"
  if ← optSign "->" then
    discard (g.type true)
    g.block
    return { endsInBrace := true }
  else
    let body ← g.expr literals
    return { endsInBrace := body.endsInBrace }

/-- The fields of a struct literal; two dots end them. -/
def fieldValues : (n : Nat) → Parser Unit
  | 0 => fail
  | n + 1 => do
    if ← atEnd then return ()
    if ← optSign ".." then
      if !(← atEnd) then discard (g.expr true)
      return ()
    discard g.outerAttributes
    let named ← fieldName
    if !named || (← peek (.sign ":")) then
      sign ":"
      discard (g.expr true)
    if ← atEnd then return ()
    sign ","
    fieldValues n

/-- An expression that starts with a path: the path, a macro call, or a struct literal. -/
def pathExpr (literals : Bool) : Parser ExprForm := do
  let form ← g.qualifiedPath true
  let bare := (form.map (·.bare)).getD false
  if bare && (← peek (.sign "!")) && !(← peek (.sign "!=")) then
    sign "!"
    let braced := (← anyGroup) == .brace
    return { endsInBrace := braced, bracedCall := braced }
  else if literals && (← peek (.group .brace)) then
    group .brace (g.fieldValues g.bound)
    return { endsInBrace := true }
  else return {}

/-- The start of an expression that starts with a path. -/
def pathExprStart : Look := fun trees =>
  typePathStart trees ||
    (Look.word "try" trees && Look.second (.oneSign ["!", "::"]) trees)

/-- An expression in parentheses, or several with commas. -/
def parenContentExpr : Parser Unit := discard (listed (g.expr true) g.bound)

/-- The content of an array: values with commas, or a value and how often it is repeated. -/
def arrayContent : Parser Unit := do
  if ← atEnd then return ()
  discard (g.expr true)
  if ← optSign ";" then discard (g.expr true)
  else if ← atEnd then return ()
  else
    sign ","
    g.parenContentExpr

/-- A jump out of a loop or block. Its value is no loop or block with a label. -/
def breakExpr (literals : Bool) : Parser ExprForm := do
  word "break"
  if (← peek .lifetime) && (← peek (.second (.sign ":"))) then
    let start ← line
    discard (g.expr true)
    throw start
  discard (optional .lifetime)
  g.jumpValue (literals || !(← peek (.group .brace)))

/-- A pattern that is tested in a condition. -/
def letExpr (literals : Bool) : Parser ExprForm := do
  word "let"
  discard g.alternatives
  sign "="
  let first ← g.operand literals
  let value ← g.climb literals g.bound .comparison first
  return { endsInBrace := value.endsInBrace }

/-- The smallest expressions. -/
def atom (literals : Bool) : Parser ExprForm := do
  if ← peek .literal then
    discard literal
    return {}
  else if (← peek (.word "async")) && (← peek (.second fun rest => Look.group .brace rest ||
      (Look.word "move" rest && Look.second (.group .brace) rest))) then
    word "async"
    discard (optWord "move")
    g.block
    return { endsInBrace := true }
  else if ← peek closureStart then g.closure literals
  else if ← peek builtInStart then
    builtIn
    return {}
  else if ← peek pathExprStart then g.pathExpr literals
  else if ← peek (.group .paren) then
    group .paren g.parenContentExpr
    return {}
  else if ← peek (.word "break") then g.breakExpr literals
  else if ← optWord "continue" then
    discard (optional .lifetime)
    return {}
  else if ← peek (.oneOf ["return", "yield"]) then
    discard tree
    g.jumpValue true
  else if ← optWord "become" then
    let value ← g.expr true
    return { endsInBrace := value.endsInBrace }
  else if ← peek (.group .bracket) then
    group .bracket g.arrayContent
    return {}
  else if ← peek (.word "let") then g.letExpr literals
  else if ← peek blockStart then g.blockExpr
  else if ← peek (.sign "..") then g.rangeTail literals (g.climb literals g.bound)
  else if ← optWord "_" then return {}
  else fail

/-- An expression without binary operators. Attributes do not stand before a range. -/
def operandBody (literals : Bool) : Parser ExprForm := do
  let attributes ← g.outerAttributes
  if ← optSign "&" then
    if (← peek (.word "raw")) && (← peek (.second (.oneOf ["mut", "const"]))) then
      discard tree
      discard tree
    else discard (optWord "mut")
    let value ← g.operand literals
    return { endsInBrace := value.endsInBrace }
  else if ← peek (.oneSign ["*", "!", "-"]) then
    discard tree
    let value ← g.operand literals
    return { endsInBrace := value.endsInBrace }
  else
    let start ← line
    let form ← g.trailers g.bound (← g.atom literals)
    if form.range && !attributes.isEmpty then throw start
    return form

/-! ## 4. Statements -/

/-- An expression that ends early if it is a block that nothing is asked of. -/
def earlyExpr : Parser ExprForm := do
  discard g.outerAttributes
  if ← peek blockStart then
    let form ← g.blockExpr
    if (← peek .point) || (← peek (.sign "?")) then
      g.afterOperand true (← g.trailers g.bound form)
    else return form
  else g.afterOperand true (← g.operandBody true)

/-- One arm of a match. -/
def armBody : Parser Unit := do
  discard g.outerAttributes
  discard g.alternatives
  if ← optWord "if" then discard (g.expr true)
  sign "=>"
  let body ← g.earlyExpr
  if !body.blockLike && !(← atEnd) then sign ","
  else discard (optSign ",")

/-- A declaration of variables. -/
def letStatement : Parser Unit := do
  word "let"
  discard g.pattern
  if ← optSign ":" then discard (g.type true)
  if ← optSign "=" then
    let value ← g.expr true
    if !value.endsInBrace then
      if ← optWord "else" then g.block
  sign ";"

/-- The start of an item among statements. -/
def itemStart : Look := fun trees =>
  Look.oneOf ["pub", "extern", "use", "fn", "mod", "type", "struct", "enum", "trait", "impl",
    "macro"] trees ||
    (Look.word "crate" trees && !Look.second (.sign "::") trees) ||
    (Look.word "static" trees && Look.second (fun rest =>
      Look.word "mut" rest || Look.name rest) trees) ||
    (Look.word "const" trees && !Look.second (fun rest => Look.group .brace rest ||
      Look.oneOf ["static", "move"] rest || Look.sign "|" rest ||
      (Look.word "async" rest &&
        !Look.second (.oneOf ["unsafe", "extern", "fn"]) rest)) trees) ||
    (Look.word "unsafe" trees && !Look.second (.group .brace) trees) ||
    (Look.word "async" trees && Look.second (.oneOf ["unsafe", "extern", "fn"]) trees) ||
    (Look.word "union" trees && Look.second .name trees) ||
    (Look.word "auto" trees && Look.second (.word "trait") trees) ||
    (Look.word "default" trees && Look.second (.oneOf ["unsafe", "impl"]) trees)

/-- What the call of a macro at the start of a statement is. -/
inductive CallStatement where
  /-- A call that defines something, which is an item. -/
  | definition
  /-- A call in braces, which is a whole statement. -/
  | braced
  /-- The start of an expression, or no call at all. -/
  | expression
  deriving DecidableEq

/-- What starts with a macro call at the front. -/
def callStatement : Parser CallStatement := fun c =>
  match g.simplePath c with
  | .error _ => .ok (.expression, c)
  | .ok (_, after) =>
    let trees := after.trees
    if !Look.sign "!" trees then .ok (.expression, c)
    else if Look.second (fun rest => Look.name rest || Look.word "try" rest) trees then
      .ok (.definition, c)
    else if Look.second (.group .brace) trees &&
        !Look.third (fun rest => Look.point rest || Look.sign "?" rest) trees then
      .ok (.braced, c)
    else .ok (.expression, c)

/-- A statement; whether something has to follow before the next one can start. -/
def statement : Parser Bool := do
  let attributes ← g.outerAttributes
  let call ← g.callStatement
  if call = .braced then
    discard g.macroCall
    discard (optSign ";")
    return false
  else if ← peek (.word "let") then
    g.letStatement
    return false
  else if call = .definition || (← peek itemStart) then
    discard (g.item attributes)
    return false
  else
    let form ← g.earlyExpr
    if ← optSign ";" then return false else return form.needsSemicolon

/-- The content of a block; `n` bounds the number of statements. -/
def statementList : (n : Nat) → Parser Unit
  | 0 => fail
  | n + 1 => do
    discard (whileLook (.sign ";") (sign ";") g.bound)
    if ← atEnd then return ()
    let unfinished ← g.statement
    if ← atEnd then return ()
    if unfinished then fail
    statementList n

end LogMarkers.Source.Grammar
