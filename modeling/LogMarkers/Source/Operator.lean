import LogMarkers.Source.Parser

/-!
# Operators

The operators that may follow an operand, and how tightly they bind. `Precedence` lists the levels
from the loosest on; `Operator.ahead?` finds the operator at the front.
-/

namespace LogMarkers.Source

/-- How tightly an operator binds, from the loosest on. -/
inductive Precedence where
  /-- Closures and jumps, which take everything that follows. -/
  | jump
  | assignment
  | range
  | disjunction
  | conjunction
  /-- A pattern tested with `let`. -/
  | binding
  | comparison
  | bitOr
  | bitXor
  | bitAnd
  | shift
  | sum
  | product
  | cast
  deriving DecidableEq, Repr

/-- The place of a precedence in their order. -/
def Precedence.rank : Precedence → Nat
  | jump => 0
  | assignment => 1
  | range => 2
  | disjunction => 3
  | conjunction => 4
  | binding => 5
  | comparison => 6
  | bitOr => 7
  | bitXor => 8
  | bitAnd => 9
  | shift => 10
  | sum => 11
  | product => 12
  | cast => 13

/-- What may follow an operand to make a larger expression. -/
inductive Operator where
  /-- A sign with an operand on its right. -/
  | binary (text : String) (precedence : Precedence)
  /-- The sign that gives a value to its left side. -/
  | assign
  /-- The dots of a range. -/
  | range
  /-- The word before the type of a cast. -/
  | cast

namespace Operator

/-- How tightly the operator binds. -/
def precedence : Operator → Precedence
  | binary _ precedence => precedence
  | assign => .assignment
  | range => .range
  | cast => .cast

/-- The signs with an operand on each side, longer ones before those they start with. -/
def signs : List (String × Precedence) :=
  [("+=", .assignment), ("-=", .assignment), ("*=", .assignment), ("/=", .assignment),
    ("%=", .assignment), ("^=", .assignment), ("&=", .assignment), ("|=", .assignment),
    ("<<=", .assignment), (">>=", .assignment), ("&&", .conjunction), ("||", .disjunction),
    ("<<", .shift), (">>", .shift), ("==", .comparison), ("<=", .comparison),
    ("!=", .comparison), (">=", .comparison), ("+", .sum), ("-", .sum), ("*", .product),
    ("/", .product), ("%", .product), ("^", .bitXor), ("&", .bitAnd), ("|", .bitOr),
    ("<", .comparison), (">", .comparison)]

/-- The operator at the front. -/
def ahead? (trees : List TokenTree) : Option Operator :=
  match signs.find? fun (text, _) => Look.sign text trees with
  | some (text, precedence) => some (binary text precedence)
  | none =>
    if Look.sign "=" trees && !Look.sign "=>" trees then some assign
    else if Look.sign ".." trees then some range
    else if Look.word "as" trees then some cast
    else none

/-- How tightly the operator at the front binds; the loosest where there is none. -/
def precedenceAhead (trees : List TokenTree) : Precedence :=
  ((ahead? trees).map precedence).getD .jump

end Operator

end LogMarkers.Source
