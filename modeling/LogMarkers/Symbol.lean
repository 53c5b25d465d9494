import LogMarkers.Tree.Basic

/-!
# Symbols and what is known about them

Markers are recognised by what their attributes denote, never by how they are spelled. A
`SemanticModel` answers the two questions the search asks of a crate: which symbol an attribute
names, and which symbol a declaration declares. `SymbolTable` is a model given by its answers.
-/

namespace LogMarkers

/-- The canonical identity of a symbol: `crate::…` inside the crate, otherwise the name of the
    crate it comes from first. -/
structure SymbolPath where
  text : String
  deriving DecidableEq, Repr, Inhabited

namespace SymbolPath

/-- The identity with these names. -/
def ofSegments (segments : List String) : SymbolPath := ⟨PathText.join segments⟩

/-- The last name of the identity. -/
def name (p : SymbolPath) : String := PathText.last p.text

end SymbolPath

/-- The namespace that contains a declared symbol. -/
inductive Namespace where
  /-- The root of the crate. -/
  | global
  /-- A module below the root, its names joined. -/
  | named (path : String)
  deriving DecidableEq, Repr

/-- The namespace as a module path, empty for the root. -/
def Namespace.path : Namespace → String
  | .global => ""
  | .named path => path

/-- The namespace of a module path. -/
def Namespace.ofPath (path : String) : Namespace := if path = "" then .global else .named path

@[simp] theorem Namespace.path_ofPath (path : String) : (ofPath path).path = path := by
  unfold ofPath
  split <;> simp_all [Namespace.path]

/-- What a declaration declares. -/
structure DeclaredSymbol where
  name : String
  container : Namespace
  /-- Declared with type or const parameters, which an extension cannot spell. -/
  generic : Bool := false
  deriving DecidableEq, Repr

/-- The same symbol, declared with parameters. -/
def DeclaredSymbol.withGenerics (s : DeclaredSymbol) : DeclaredSymbol := { s with generic := true }

/-- What a crate says about its attributes and declarations. -/
structure SemanticModel where
  /-- The symbol that the attribute of a node at an index denotes. -/
  attribute? : NodeId → Nat → Option SymbolPath
  /-- The symbol a node declares; for an `impl` block, the symbol of its self type. -/
  declared? : NodeId → Option DeclaredSymbol

/-- A model given by lists of answers, of which the last one counts. -/
structure SymbolTable where
  attributes : List ((NodeId × Nat) × SymbolPath) := []
  declarations : List (NodeId × DeclaredSymbol) := []

/-- The model a table stands for. -/
def SymbolTable.model (t : SymbolTable) : SemanticModel where
  attribute? i k := t.attributes.reverse.lookup (i, k)
  declared? i := t.declarations.reverse.lookup i

end LogMarkers
