import LogMarkers.Scope.Basic
import LogMarkers.Source.Item

/-!
# What a `use` declaration imports

The tree of a `use` declaration is a list of imports, one per leaf, in the order of the source: a
name that is bound to a path, or everything of a path. `self` stands for the path it is written
after; a leaf renamed to an underscore imports nothing.
-/

namespace LogMarkers

/-- One import. -/
inductive Import where
  /-- A name for a path. -/
  | binding (newName : String) (target : List String)
  /-- Everything of a path. -/
  | everything (source : List String)
  deriving DecidableEq, Repr

/-- The path of a leaf after the names before it. -/
def leafPath (before : List String) (name : Identifier) : List String :=
  if name.text = "self" then before else before ++ [name.text]

/-- The imports of a tree that stands after some names. -/
def UseTree.imports (before : List String) : UseTree → List Import
  | .path first rest => rest.imports (before ++ [first.text])
  | .name last =>
    match (leafPath before last).getLast? with
    | some newName => [.binding newName (leafPath before last)]
    | none => []
  | .rename last newName =>
    if newName.text = "_" then [] else [.binding newName.text (leafPath before last)]
  | .glob => [.everything before]
  | .group trees => trees.flatMap (·.imports before)

/-- Note one import in the scope of a module. -/
def Import.addTo (i : Import) (scope : ModuleScope) (leadingColon : Bool) : ModuleScope :=
  match i with
  | .binding newName target =>
    { scope with imports := scope.imports.insert newName ⟨target, leadingColon⟩ }
  | .everything source => { scope with globs := scope.globs ++ [⟨source, leadingColon⟩] }

/-- Note imports in the scope of a module, one after the other. -/
def ModuleScope.addImports (scope : ModuleScope) (leadingColon : Bool) (imports : List Import) :
    ModuleScope :=
  imports.foldl (fun s i => i.addTo s leadingColon) scope

/-- Note imports in a module, one after the other; the first of them creates the scope where it is
    missing. -/
def ScopeIndex.addImports (x : ScopeIndex) (module : String) (leadingColon : Bool)
    (imports : List Import) : ScopeIndex :=
  imports.foldl (fun x i => x.alterScope module (i.addTo · leadingColon)) x

end LogMarkers
