import LogMarkers.Source.Quoted

/-!
# Numbers

A number with a point or an exponent is tried first, then a whole number in one of four bases. Both
may be followed by letters. A point counts only where neither another point nor a name follows it,
so that ranges and calls on numbers are left alone. Numbers that can be positions in a tuple are
marked as such (`Whole.isPosition`); two of them with a point between are one number with a point.
-/

namespace LogMarkers.Source

open Text

/-! ## 1. Whole numbers -/

/-- A whole number and what follows its digits. -/
structure Whole where
  value : Nat
  rest : List Char

/-- The digits of a whole number in a base, after those that make up `value`; a decimal digit the
    base does not have is refused, and at least one digit is needed. -/
def digits? (base : Nat) (seen : Bool) (value : Nat) : List Char → Option Whole
  | [] => if seen then some ⟨value, []⟩ else none
  | c :: rest =>
    if c = '_' then digits? base seen value rest
    else
      match hexValue? c with
      | some digit =>
        if digit < base then digits? base true (value * base + digit) rest
        else if isDigit c then none
        else if seen then some ⟨value, c :: rest⟩ else none
      | none => if seen then some ⟨value, c :: rest⟩ else none

/-- A whole number without the letters after it. -/
def whole? : List Char → Option Whole
  | '0' :: 'x' :: rest => digits? 16 false 0 rest
  | '0' :: 'o' :: rest => digits? 8 false 0 rest
  | '0' :: 'b' :: rest => digits? 2 false 0 rest
  | c :: rest => if isDigit c then digits? 10 false 0 (c :: rest) else none
  | [] => none

/-- Positions in a tuple are below this number. -/
def positionBound : Nat := 4294967296

/-- Whether a literal can end before these characters. -/
def atWordEnd : List Char → Bool
  | c :: _ => !isContinue c
  | [] => true

/-- Whether the number can be a position in a tuple: small enough, and without letters after it. -/
def Whole.isPosition (w : Whole) : Bool := decide (w.value < positionBound) && atWordEnd w.rest

/-! ## 2. Points and exponents -/

/-- The digits of a number may be divided by underscores. -/
def isDigitOrUnderscore (c : Char) : Bool := isDigit c || c == '_'

/-- Where a number with a point or an exponent ends. -/
structure Fraction where
  endsInPoint : Bool
  /-- What stands around the point can be positions. -/
  positions : Bool
  rest : List Char

/-- What follows one sign at most. -/
def afterSign : List Char → List Char
  | c :: rest => if c = '+' ∨ c = '-' then rest else c :: rest
  | [] => []

/-- What follows an exponent after its letter: one sign at most, and a digit at least. -/
def afterExponent? (cs : List Char) : Option (List Char) :=
  match (afterSign (cs.dropWhile (· == '_'))).dropWhile (· == '_') with
  | c :: rest => if isDigit c then some (rest.dropWhile isDigitOrUnderscore) else none
  | [] => none

/-- What follows an exponent, if one stands at the front. -/
def exponent? : List Char → Option (List Char)
  | e :: rest => if e = 'e' ∨ e = 'E' then afterExponent? rest else none
  | [] => none

/-- The end of a number after its point, and after a whole number that may be a position. The
    letters after the point count as part of a position in another base. -/
def afterPoint (position : Bool) (cs : List Char) : Fraction :=
  match digits? 10 false 0 cs with
  | some w =>
    let positions := position && (whole? cs).any (·.isPosition)
    ⟨false, positions, (exponent? w.rest).getD w.rest⟩
  | none => ⟨true, position, cs⟩

/-- The end of a number with a point or an exponent. A point before another point or a name is none
    of the number. -/
def fraction? (cs : List Char) : Option Fraction := do
  guard (cs.head?.any isDigit)
  let w ← digits? 10 false 0 cs
  match w.rest with
  | '.' :: after =>
    if after.head?.any fun d => d == '.' || isStart d then none
    else some (afterPoint w.isPosition after)
  | rest => (exponent? rest).map (⟨false, false, ·⟩)

/-! ## 3. Numbers -/

/-- The number at the front. -/
def number? (cs : List Char) (line : Nat) : Option Scanned :=
  match fraction? cs with
  | some f =>
    let rest := afterLetters f.rest
    if atWordEnd rest then some (.fraction f.endsInPoint f.positions, rest, line) else integer
  | none => integer
where
  /-- The whole number at the front. -/
  integer : Option Scanned := do
    let w ← whole? cs
    let rest := afterLetters w.rest
    if atWordEnd rest then some (.integer w.isPosition, rest, line) else none

end LogMarkers.Source
