import LogMarkers.Scope.Resolve
import LogMarkers.Symbol

/-!
# The semantic model of a crate

What a tree and its scopes say about attributes and declarations. An attribute denotes what its
path resolves to in the module of its node. A struct, enum, union or trait declares its name in its
module; an `impl` block stands for its self type, if that is a type of the crate.
-/

namespace LogMarkers

namespace ScopeIndex

/-- The symbol of a name declared in a module. -/
def declaredIn (x : ScopeIndex) (module name : String) : DeclaredSymbol where
  name := name
  container := .ofPath module
  generic := x.isGeneric (itemPath module name)

/-- The symbol with a canonical path; only paths of the crate below its root are symbols of it. -/
def symbolAt? (x : ScopeIndex) (path : List String) : Option DeclaredSymbol :=
  match path with
  | first :: second :: rest =>
    if first = crateWord then
      some {
        name := (second :: rest).getLast (List.cons_ne_nil _ _)
        container := .ofPath (PathText.join (second :: rest).dropLast)
        generic := x.isGeneric path }
    else none
  | _ => none

/-- The symbol an attribute path denotes for a node. -/
def attributeSymbol? (x : ScopeIndex) (i : NodeId) (path : WrittenPath) : Option SymbolPath :=
  (x.resolve (x.moduleOf i) path).map .ofSegments

/-- The symbol a node declares. -/
def nodeSymbol? (x : ScopeIndex) (i : NodeId) (n : Node) : Option DeclaredSymbol :=
  match n.kind with
  | .struct | .enum | .union | .trait => n.name.map (x.declaredIn (x.moduleOf i))
  | .impl => do
    let target ← x.implTargets.get? i
    let path ← x.resolve (x.moduleOf i) target
    x.symbolAt? path
  | _ => none

/-- The model of a tree with these scopes. -/
def model (x : ScopeIndex) (t : Tree) : SemanticModel where
  attribute? i k := do
    let n ← t.node? i
    let path ← n.attributes[k]?
    x.attributeSymbol? i path
  declared? i := do
    let n ← t.node? i
    x.nodeSymbol? i n

end ScopeIndex

end LogMarkers
