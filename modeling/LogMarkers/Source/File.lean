import LogMarkers.Source.Grammar.Items
import LogMarkers.Source.Lexer

/-!
# Source files

The items of a source text. The levels of the grammar are tied together here; a text has fewer
nested parts than characters, so the level of its first item is a multiple of its length.
-/

namespace LogMarkers.Source

/-- The grammar of a level, its parsers calling those of the level below. -/
def Grammar.level : Nat → Grammar
  | 0 => .empty
  | n + 1 =>
    { bound := n
      type := fun sums c => (level n).typeBody sums c
      bounded := fun place c => (level n).boundBody place c
      pattern := fun c => (level n).patternBody c
      expr := fun literals c => (level n).exprBody literals c
      operand := fun literals c => (level n).operandBody literals c
      arm := fun c => (level n).armBody c
      statements := fun c => (level n).statementList n c
      item := fun attributes c => (level n).itemBody attributes c
      attributeContent := fun c => (level n).attributeBody c
      useTree := fun rooted c => (level n).useTreeBody rooted c }

/-- The content of a file: attributes about the file, then items. -/
def fileItems (g : Grammar) : Parser (List Item) := do
  discard g.innerAttributes
  Parser.untilEnd (do g.item (← g.outerAttributes)) g.bound

/-- The items of a source text, or the line where reading stops. -/
def itemsOf (text : String) : Except Nat (List Item) := do
  let trees ← treesOf text
  let (items, c) ← fileItems (.level (4 * text.length + 16)) ⟨trees, 1, none⟩
  Parser.finish items c

end LogMarkers.Source
