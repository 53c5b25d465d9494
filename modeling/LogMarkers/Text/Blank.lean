/-!
# Blank characters

The characters with the Unicode property `White_Space`, and trimming by it. Source text has two
more blanks, the direction marks, which only its lexer skips (`isSourceBlank`).
-/

namespace LogMarkers.Text

/-- The characters with the property `White_Space`. -/
def isBlank (c : Char) : Bool :=
  let n := c.toNat
  (0x09 ≤ n && n ≤ 0x0D) || n == 0x20 || n == 0x85 || n == 0xA0 || n == 0x1680 ||
    (0x2000 ≤ n && n ≤ 0x200A) || n == 0x2028 || n == 0x2029 || n == 0x202F || n == 0x205F ||
    n == 0x3000

/-- Blanks between the tokens of a source text: white space and the two direction marks. -/
def isSourceBlank (c : Char) : Bool :=
  isBlank c || c.toNat == 0x200E || c.toNat == 0x200F

/-- The text without the blanks at both ends. -/
def trim (text : String) : String :=
  String.ofList ((text.toList.dropWhile isBlank).reverse.dropWhile isBlank).reverse

example : trim " \t é x\u3000\n" = "é x" := by cbv

end LogMarkers.Text
