/-!
# Rounding

Quotients of natural numbers rounded to the nearest one, ties to the even one (`roundDiv`), and on
top of it the two roundings a printed duration goes through: to a binary number of 53 digits
(`Binary.round`) and to three decimal places (`fixed3`).
-/

namespace LogMarkers.Decimal

/-- The natural number nearest to `n / d`, the even one of two that are equally near. -/
def roundDiv (n d : Nat) : Nat :=
  let q := n / d
  let r := n % d
  if 2 * r < d then q
  else if d < 2 * r then q + 1
  else if q % 2 = 0 then q else q + 1

/-- A number with three decimal places. -/
def fixed3 (n d : Nat) : String :=
  let thousandths := roundDiv (1000 * n) d
  let places := thousandths % 1000
  let digit (k : Nat) : Char := Char.ofNat (48 + k)
  toString (thousandths / 1000) ++ "." ++
    String.ofList [digit (places / 100), digit (places / 10 % 10), digit (places % 10)]

end LogMarkers.Decimal

namespace LogMarkers

/-- The number `digits · 2 ^ up / 2 ^ down`. -/
structure Binary where
  digits : Nat
  up : Nat
  down : Nat

namespace Binary

/-- The numerator and the denominator. -/
def ratio (b : Binary) : Nat × Nat := (b.digits <<< b.up, 1 <<< b.down)

/-- `n / d` times `2 ^ down / 2 ^ up`, rounded, with the inverse factor. -/
def roundAt (n d up down : Nat) : Binary :=
  ⟨Decimal.roundDiv (n <<< down) (d <<< up), up, down⟩

/-- The binary number of 53 digits nearest to `n / d`, ties to an even last digit. With `a` and `b`
    the numbers of binary places of `n` and `d`, the quotient times `2 ^ (b + 53 - a)` has a whole
    part of 53 or of 54 digits; in the second case one place less is taken. -/
def round (n d : Nat) : Binary :=
  if n = 0 then ⟨0, 0, 0⟩
  else
    let up := n.log2 - (d.log2 + 53)
    let down := d.log2 + 53 - n.log2
    if (n <<< down) / (d <<< up) < 1 <<< 53 then roundAt n d up down
    else if down = 0 then roundAt n d (up + 1) 0
    else roundAt n d up (down - 1)

/-- The rounded sum. -/
def add (x y : Binary) : Binary :=
  let (a, b) := x.ratio
  let (c, d) := y.ratio
  round (a * d + c * b) (b * d)

/-- The rounded product with a natural number. -/
def scale (x : Binary) (k : Nat) : Binary :=
  let (a, b) := x.ratio
  round (a * k) b

end Binary

end LogMarkers
