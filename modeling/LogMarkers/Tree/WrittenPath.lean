import LogMarkers.Text.PathText

/-!
# Paths as written

A path in an attribute, a `use` declaration or a type, before any name is resolved: its names and
whether it starts at the root of all crates (a leading double colon). `ofSpelling` reads a spelling
and `spelling` writes one; surplus separators are dropped on reading.
-/

namespace LogMarkers

/-- A path as it stands in the source. -/
structure WrittenPath where
  segments : List String
  leadingColon : Bool := false
  deriving DecidableEq, Repr, Inhabited

namespace WrittenPath

/-- Read a spelling such as `::a::b`; empty names are dropped. -/
def ofSpelling (text : String) : WrittenPath :=
  { segments := PathText.segments (PathText.trimStart text)
    leadingColon := PathText.startsWithSeparator text }

/-- The spelling of the path. -/
def spelling (p : WrittenPath) : String :=
  let joined := PathText.join p.segments
  if p.leadingColon then "::" ++ joined else joined

end WrittenPath

end LogMarkers
