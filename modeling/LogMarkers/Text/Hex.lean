/-!
# Hexadecimal digits

The value of a digit, in either case, the lower case digit of a value, and bytes as digits.
-/

namespace LogMarkers.Text

/-- The value of a hexadecimal digit. -/
def hexValue? (c : Char) : Option Nat :=
  if '0' ≤ c ∧ c ≤ '9' then some (c.toNat - 48)
  else if 'a' ≤ c ∧ c ≤ 'f' then some (c.toNat - 87)
  else if 'A' ≤ c ∧ c ≤ 'F' then some (c.toNat - 55)
  else none

/-- A number below sixteen as a lower case digit. -/
def hexChar (n : Nat) : Char := if n < 10 then Char.ofNat (48 + n) else Char.ofNat (87 + n)

/-- Bytes, two lower case digits each. -/
def hex (bytes : List UInt8) : String :=
  String.ofList (bytes.flatMap fun b => [hexChar (b.toNat / 16), hexChar (b.toNat % 16)])

/-- Reading back the digit of a value gives the value. -/
theorem hexValue?_hexChar : ∀ n < 16, hexValue? (hexChar n) = some n := by decide

end LogMarkers.Text
