import LogMarkers.Crate.Import
import LogMarkers.Crate.Sources
import LogMarkers.Scope.Model

/-!
# From sources to a tree with scopes

Every source file becomes a root of the tree. Items that can carry a marker, and what owns their
members, become nodes; what binds a name is noted in the scope of the module. Bodies of functions
are not entered.

* `Lowering` is what has been built so far; a node is always added together with its module.
* `Lowering.items` goes through the items of one module by recursion on them.
* `SourceSet.lower` reads all sources and goes through them in the order of their modules.
-/

namespace LogMarkers

/-- A crate: its tree and its scopes. -/
structure LoweredCrate where
  tree : Tree
  scopes : ScopeIndex

/-- What the crate says about its attributes and declarations. -/
def LoweredCrate.model (c : LoweredCrate) : SemanticModel := c.scopes.model c.tree

/-- Where items stand. -/
structure Place where
  module : String
  file : String

/-- The place of the items of an inline module. -/
def Place.inside (p : Place) (name : String) : Place := ⟨PathText.within p.module name, p.file⟩

/-- The content of a node at a place. -/
def Place.content (p : Place) (kind : NodeKind) (name : Option String)
    (attributes : List Attribute) (line : Nat) : NodeContent where
  kind := kind
  name := name
  attributes := attributePaths attributes
  location := some ⟨p.file, line⟩

/-- A tree and scopes under construction. -/
structure Lowering where
  builder : TreeBuilder := .empty
  scopes : ScopeIndex := {}

namespace Lowering

/-! ## 1. Nodes and names -/

/-- Add a node and note the module it stands in. -/
def leaf (l : Lowering) (module : String) (content : NodeContent) : Lowering where
  builder := l.builder.leaf content
  scopes := l.scopes.recordNode l.builder.nextId module

/-- Add a node that others follow inside, and note the module it stands in. -/
def openNode (l : Lowering) (module : String) (content : NodeContent) : Lowering where
  builder := l.builder.openNode content
  scopes := l.scopes.recordNode l.builder.nextId module

/-- Close the innermost open node. -/
def close (l : Lowering) : Lowering := { l with builder := l.builder.close }

/-- Create the scope of a module. -/
def addModule (l : Lowering) (module : String) : Lowering :=
  { l with scopes := l.scopes.addModule module }

/-- Declare a name. -/
def declare (l : Lowering) (module name : String) (kind : ItemKind) : Lowering :=
  { l with scopes := l.scopes.declare module name kind }

/-- Declare a type. Lifetimes can be left out where the type is named, other parameters cannot. -/
def declareType (l : Lowering) (module name : String) (generic : Bool) : Lowering :=
  let l := l.declare module name .nominal
  if generic then { l with scopes := l.scopes.recordGeneric module name } else l

/-! ## 2. Members -/

/-- Add the fields of a type; the fields of a tuple are named by their position. -/
def fields (p : Place) : (position : Nat) → List Field → Lowering → Lowering
  | _, [], l => l
  | i, f :: rest, l =>
    let name := (f.name.map (·.text)).getD (toString i)
    fields p (i + 1) rest (l.leaf p.module (p.content .field name f.attributes f.line))

/-- The kind of node of a member. -/
def memberNode : MemberKind → NodeKind
  | .method => .method
  | .constant => .associatedConst

/-- Add the members of an `impl` block or a trait. -/
def members (p : Place) : List Member → Lowering → Lowering
  | [], l => l
  | m :: rest, l =>
    members p rest
      (l.leaf p.module (p.content (memberNode m.kind) m.name.text m.attributes m.name.line))

/-! ## 3. Items -/

mutual

/-- Add one item. -/
def item (p : Place) : Item → Lowering → Lowering
  | .struct name generic attributes fs, l =>
    let l := l.declareType p.module name.text generic
    let l := l.openNode p.module (p.content .struct name.text attributes name.line)
    (fields p 0 fs l).close
  | .union name generic attributes fs, l =>
    let l := l.declareType p.module name.text generic
    let l := l.openNode p.module (p.content .union name.text attributes name.line)
    (fields p 0 fs l).close
  | .enum name generic attributes, l =>
    let l := l.declareType p.module name.text generic
    l.leaf p.module (p.content .enum name.text attributes name.line)
  | .trait name attributes ms, l =>
    let l := l.declare p.module name.text .nominal
    let l := l.openNode p.module (p.content .trait name.text attributes name.line)
    (members p ms l).close
  | .impl selfType line attributes ms, l =>
    let target := selfType.map (·.written)
    let id := l.builder.nextId
    let l := l.openNode p.module
      (p.content .impl (target.bind (·.segments.getLast?)) attributes line)
    let l := match target with
      | some target => { l with scopes := l.scopes.recordImplTarget id target }
      | none => l
    (members p ms l).close
  | .function name attributes, l =>
    let l := l.declare p.module name.text .value
    l.leaf p.module (p.content .function name.text attributes name.line)
  | .const name attributes, l =>
    let l := l.declare p.module name.text .value
    l.leaf p.module (p.content .const name.text attributes name.line)
  | .static name attributes, l =>
    let l := l.declare p.module name.text .value
    l.leaf p.module (p.content .static name.text attributes name.line)
  | .typeAlias name target, l =>
    l.declare p.module name.text
      (match target with
        | some path => .typeAlias path.written
        | none => .nominal)
  | .inlineModule name attributes contained, l =>
    let inner := p.inside name.text
    let l := (l.declare p.module name.text .submodule).addModule inner.module
    let l := l.openNode p.module (p.content .inlineModule name.text attributes name.line)
    (items inner contained l).close
  | .fileModule name _, l => l.declare p.module name.text .submodule
  | .imports leadingColon tree, l =>
    { l with scopes := l.scopes.addImports p.module leadingColon (tree.imports []) }
  | .externCrate name rename, l =>
    match rename with
    | some newName =>
      if newName.text = "_" then l
      else { l with scopes := l.scopes.addImport p.module newName.text ⟨[name.text], true⟩ }
    | none => l
  | .other, l => l

/-- Add items one after the other. -/
def items (p : Place) : List Item → Lowering → Lowering
  | [], l => l
  | i :: rest, l => items p rest (item p i l)

end

/-- Add a source file. -/
def file (l : Lowering) (f : ParsedFile) : Lowering :=
  let l := l.addModule f.module
  let l := l.openNode f.module
    { kind := .sourceFile, name := if f.module = "" then none else some f.module }
  (items ⟨f.module, f.fileName⟩ f.items l).close

/-- The crate that has been built. -/
def finish (l : Lowering) : LoweredCrate := ⟨l.builder.tree, l.scopes⟩

end Lowering

/-- The crate of source files that have been read. -/
def lowerFiles (files : List ParsedFile) : LoweredCrate :=
  (files.foldl Lowering.file {}).finish

/-- The crate of a source set, if every file can be read. -/
def SourceSet.lower (s : SourceSet) : Except Failure LoweredCrate := s.parse.map lowerFiles

end LogMarkers
