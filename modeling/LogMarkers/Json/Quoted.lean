import LogMarkers.Text.Hex

/-!
# Quoted texts

How a text stands in a JSON document: between quotation marks, with a backslash before quotation
marks and backslashes, and an escape for every character below U+20. Nothing else is escaped.
-/

namespace LogMarkers.Json

open Text (hexChar)

/-- The characters that stand for `c` between quotation marks. -/
def escapeChar (c : Char) : List Char :=
  if c = '"' then ['\\', '"']
  else if c = '\\' then ['\\', '\\']
  else if c = '\x08' then ['\\', 'b']
  else if c = '\t' then ['\\', 't']
  else if c = '\n' then ['\\', 'n']
  else if c = '\x0c' then ['\\', 'f']
  else if c = '\r' then ['\\', 'r']
  else if c.toNat < 0x20 then
    ['\\', 'u', '0', '0', hexChar (c.toNat / 16), hexChar (c.toNat % 16)]
  else [c]

/-- The characters of a text between quotation marks. -/
def escapeChars (cs : List Char) : List Char := cs.flatMap escapeChar

/-- A text as it stands in a document. -/
def quote (text : String) : String := "\"" ++ String.ofList (escapeChars text.toList) ++ "\""

end LogMarkers.Json
