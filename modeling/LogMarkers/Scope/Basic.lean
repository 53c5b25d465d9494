import LogMarkers.Table
import LogMarkers.Tree.Basic

/-!
# Scopes

What is known about the names of a crate: for every module the items it declares, the names it
imports and the modules it imports everything from, and for every node of the tree the module it
stands in. A module is named by its path from the root, which is the empty path.
-/

namespace LogMarkers

/-- What a declared name stands for. -/
inductive ItemKind where
  /-- A module inside the module. -/
  | submodule
  /-- A struct, an enum, a union, a trait, or an alias of a type that is no plain path. -/
  | nominal
  /-- Another name for a path. -/
  | typeAlias (target : WrittenPath)
  /-- A function, a constant or a static. -/
  | value
  deriving DecidableEq, Repr

/-- The names of one module. -/
structure ModuleScope where
  items : Table String ItemKind := .empty
  /-- The imported path by the name it is imported as. -/
  imports : Table String WrittenPath := .empty
  /-- The paths everything is imported from. -/
  globs : List WrittenPath := []
  deriving DecidableEq

/-- The scopes of all modules, and what is noted about the nodes of the tree. -/
structure ScopeIndex where
  modules : Table String ModuleScope := .empty
  /-- The module each node stands in; the root where nothing is noted. -/
  nodeModules : Table NodeId String := .empty
  /-- The self type of each `impl` block. -/
  implTargets : Table NodeId WrittenPath := .empty
  /-- The canonical paths, joined, of the types with type or const parameters. -/
  genericTypes : List String := []
  deriving DecidableEq

/-! ## 1. Module paths -/

/-- The word that starts canonical paths of the crate itself. -/
def crateWord : String := "crate"

/-- The canonical path of a module. -/
def modulePath (module : String) : List String := crateWord :: PathText.segments module

/-- The canonical path of a name declared in a module. -/
def itemPath (module name : String) : List String := modulePath module ++ [name]

/-- The module around a module; the root has none. -/
def parentModule? (module : String) : Option String :=
  if module = "" then none
  else
    match PathText.cutLast? module with
    | some (parent, _) => some parent
    | none => some ""

namespace ScopeIndex

/-! ## 2. Looking up -/

/-- The scope of a module. -/
def scope? (x : ScopeIndex) (module : String) : Option ModuleScope := x.modules.get? module

/-- What a name declared in a module stands for. -/
def item? (x : ScopeIndex) (module name : String) : Option ItemKind :=
  (x.scope? module).bind (·.items.get? name)

/-- The path a module imports under a name. -/
def import? (x : ScopeIndex) (module name : String) : Option WrittenPath :=
  (x.scope? module).bind (·.imports.get? name)

/-- Whether a path is a module: it has a scope, or its parent declares a module of its name. -/
def isModule (x : ScopeIndex) (module : String) : Bool :=
  x.modules.contains module ||
    match PathText.cutLast? module with
    | some (parent, name) => x.item? parent name == some .submodule
    | none => x.item? "" module == some .submodule

/-- The module a node stands in. -/
def moduleOf (x : ScopeIndex) (i : NodeId) : String := (x.nodeModules.get? i).getD ""

/-- Whether a canonical path is that of a type with parameters. -/
def isGeneric (x : ScopeIndex) (path : List String) : Bool :=
  x.genericTypes.contains (PathText.join path)

/-! ## 3. Noting -/

/-- Change the scope of a module, which is created where it is missing. -/
def alterScope (x : ScopeIndex) (module : String) (f : ModuleScope → ModuleScope) : ScopeIndex :=
  { x with modules := x.modules.alter module {} f }

/-- Create the scope of a module where it is missing. -/
def addModule (x : ScopeIndex) (module : String) : ScopeIndex := x.alterScope module id

/-- Declare a name; a later declaration replaces an earlier one. -/
def declare (x : ScopeIndex) (module name : String) (kind : ItemKind) : ScopeIndex :=
  x.alterScope module fun s => { s with items := s.items.insert name kind }

/-- Import a path under a name; a later import replaces an earlier one. -/
def addImport (x : ScopeIndex) (module name : String) (target : WrittenPath) : ScopeIndex :=
  x.alterScope module fun s => { s with imports := s.imports.insert name target }

/-- Import everything from a path. -/
def addGlob (x : ScopeIndex) (module : String) (target : WrittenPath) : ScopeIndex :=
  x.alterScope module fun s => { s with globs := s.globs ++ [target] }

/-- Note the module a node stands in. -/
def recordNode (x : ScopeIndex) (i : NodeId) (module : String) : ScopeIndex :=
  { x with nodeModules := x.nodeModules.insert i module }

/-- Note the self type of an `impl` block. -/
def recordImplTarget (x : ScopeIndex) (i : NodeId) (target : WrittenPath) : ScopeIndex :=
  { x with implTargets := x.implTargets.insert i target }

/-- Note that a type has type or const parameters. -/
def recordGeneric (x : ScopeIndex) (module name : String) : ScopeIndex :=
  { x with genericTypes := PathText.join (itemPath module name) :: x.genericTypes }

end ScopeIndex

end LogMarkers
