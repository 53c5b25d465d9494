import LogMarkers.Text.Identifier
import LogMarkers.Tree.WrittenPath

/-!
# Items of a source file

What a source file declares, as far as it can carry a marker, own a member or bind a name. Bodies,
types and expressions are read and forgotten; of a type only its path is kept, if it is a plain path.
All names are identifiers, so they are neither empty nor contain a separator.
-/

namespace LogMarkers

/-- An identifier with the line it stands on. -/
structure Name where
  ident : Identifier
  line : Nat
  deriving DecidableEq

/-- What the name is without the mark of a raw identifier. -/
def Name.text (n : Name) : String := n.ident.text

/-- A path of names. -/
structure SourcePath where
  leadingColon : Bool
  names : List Identifier
  deriving DecidableEq

namespace SourcePath

/-- The path with the texts of its names. -/
def written (p : SourcePath) : WrittenPath := ⟨p.names.map (·.text), p.leadingColon⟩

/-- Whether the path is one plainly written word. -/
def isWord (p : SourcePath) (word : String) : Bool :=
  match p.names with
  | [name] => !p.leadingColon && name.isWord word
  | _ => false

end SourcePath

/-- An attribute. -/
inductive Attribute where
  /-- A path, with or without arguments. -/
  | plain (path : SourcePath)
  /-- A path that is given a value, which is kept if it is a text. -/
  | assigned (path : SourcePath) (value : Option String)
  /-- The attributes that `cfg_attr` adds under a condition. -/
  | conditional (attributes : List Attribute)

/-- The paths of an attribute; conditions are taken to hold. -/
def Attribute.paths : Attribute → List WrittenPath
  | plain path => [path.written]
  | assigned path _ => [path.written]
  | conditional attributes => attributes.flatMap paths

/-- The paths of several attributes, in order. -/
def attributePaths (attributes : List Attribute) : List WrittenPath :=
  attributes.flatMap (·.paths)

/-- The tree of a `use` declaration. -/
inductive UseTree where
  /-- A name before the rest of the path. -/
  | path (first : Identifier) (rest : UseTree)
  | name (last : Identifier)
  | rename (last newName : Identifier)
  /-- Everything. -/
  | glob
  | group (trees : List UseTree)

/-- A field of a struct or a union. -/
structure Field where
  /-- Absent for the fields of a tuple. -/
  name : Option Identifier
  attributes : List Attribute
  /-- The line of its first token, attributes included. -/
  line : Nat

/-- What a member of an `impl` block or a trait is. -/
inductive MemberKind where
  | method
  | constant
  deriving DecidableEq, Repr

/-- A member of an `impl` block or a trait. -/
structure Member where
  kind : MemberKind
  name : Name
  attributes : List Attribute

/-- An item of a source file. -/
inductive Item where
  | struct (name : Name) (generic : Bool) (attributes : List Attribute) (fields : List Field)
  | union (name : Name) (generic : Bool) (attributes : List Attribute) (fields : List Field)
  | enum (name : Name) (generic : Bool) (attributes : List Attribute)
  | trait (name : Name) (attributes : List Attribute) (members : List Member)
  /-- An `impl` block with the path and the first line of its self type. -/
  | impl (selfType : Option SourcePath) (line : Nat) (attributes : List Attribute)
    (members : List Member)
  | function (name : Name) (attributes : List Attribute)
  | const (name : Name) (attributes : List Attribute)
  | static (name : Name) (attributes : List Attribute)
  /-- Another name for a type, with its path if it is a plain one. -/
  | typeAlias (name : Name) (target : Option SourcePath)
  /-- A module with its items. -/
  | inlineModule (name : Name) (attributes : List Attribute) (items : List Item)
  /-- A module whose items are in another file. -/
  | fileModule (name : Name) (attributes : List Attribute)
  | imports (leadingColon : Bool) (tree : UseTree)
  | externCrate (name : Identifier) (rename : Option Identifier)
  /-- Anything else. -/
  | other

end LogMarkers
