import LogMarkers.Failure
import LogMarkers.Source.File
import LogMarkers.Table

/-!
# The sources of a crate

A crate is a table of source files by module path, the root of the crate being the empty path. A
source set is *accepted* when every file can be read (`SourceSet.parse`).
-/

namespace LogMarkers

/-- One source file. -/
structure SourceFile where
  /-- The path that reports name. -/
  fileName : String
  text : String
  deriving DecidableEq, Repr

/-- The source files of a crate by module path. -/
abbrev SourceSet := Table String SourceFile

/-- A source file that has been read. -/
structure ParsedFile where
  module : String
  fileName : String
  items : List Item

/-- Read a source file. -/
def SourceFile.parse (f : SourceFile) (module : String) : Except Failure ParsedFile :=
  match Source.itemsOf f.text with
  | .ok items => .ok ⟨module, f.fileName, items⟩
  | .error line => .error (.unparsable f.fileName line "unexpected token")

/-- Read all source files, in the order of their modules; the first that cannot be read fails. -/
def SourceSet.parse (s : SourceSet) : Except Failure (List ParsedFile) :=
  s.entries.mapM fun (module, file) => file.parse module

/-- The names of the files, in the order of their modules. -/
def SourceSet.fileNames (s : SourceSet) : List String := s.values.map (·.fileName)

/-- What a reading gives is what it succeeds with. -/
theorem eq_ok_of_toOption {ε α : Type} {x : Except ε α} {a : α} (h : x.toOption = some a) :
    x = .ok a := by
  cases x with
  | error e => cases h
  | ok b =>
    cases h
    rfl

end LogMarkers
