import LogMarkers.Diagnostic
import LogMarkers.Marker

/-!
# From a marked declaration to a finding

One declaration is resolved on its own. The attributes that denote registered markers are taken in
order (`markersOn`); the first that may stand on the declaration counts, the others are reported
(`weigh`). The member or declaration it asks for belongs to the nearest enclosing type or `impl`
block (`Tree.owner?`), and the result is a `Target`: who is extended, by what, on whose behalf.
-/

namespace LogMarkers

/-- What is to be generated. -/
inductive Augmentation where
  /-- Something for the owner itself. -/
  | declaration
  /-- Something for one named member of the owner. -/
  | member (name : String) (role : MemberRole)
  deriving DecidableEq, Repr

namespace Augmentation

/-- The member's name. -/
def memberName? : Augmentation → Option String
  | declaration => none
  | member name _ => some name

/-- The kind of marker that asks for it. -/
def kind : Augmentation → MarkerKind
  | declaration => .declaration
  | member _ role => .member role

end Augmentation

/-- What is to be generated for whom; nothing here refers to the tree it was found in. -/
structure Target where
  /-- Absent where neither the model nor the tree names the owner. -/
  ownerName : Option String
  /-- The module path of the owner, empty for the root. -/
  ownerNamespace : String
  augmentation : Augmentation
  marker : SymbolPath
  location : Option Location
  deriving DecidableEq, Repr

/-- A target together with the node that owns it. -/
structure Finding where
  owner : NodeId
  target : Target
  deriving DecidableEq, Repr

/-- What resolving one declaration yields. -/
structure Resolution where
  finding : Option Finding := none
  diagnostics : List Diagnostic := []
  deriving DecidableEq, Repr

/-! ## 1. The owner -/

/-- The first owner scope in a chain of ancestors, nearest first, unless a boundary comes before. -/
def Tree.ownerAmong (t : Tree) : List NodeId → Option (NodeId × Node)
  | [] => none
  | i :: rest =>
    match t.node? i with
    | none => none
    | some n =>
      if n.kind.isOwnerScope then some (i, n)
      else if n.kind.isScopeBoundary then none
      else t.ownerAmong rest

/-- The node itself where it is an owner scope, else the nearest one around it. -/
def Tree.owner? (t : Tree) (i : NodeId) : Option (NodeId × Node) :=
  match t.node? i with
  | none => none
  | some n => if n.kind.isOwnerScope then some (i, n) else t.ownerAmong (t.ancestors i)

/-! ## 2. The markers of a declaration -/

/-- The registered markers that the attributes of a node denote, in the order of the attributes. -/
def markersOn (model : SemanticModel) (registry : Registry) (i : NodeId) (n : Node) :
    List Marker :=
  (List.range n.attributes.length).filterMap fun k => (model.attribute? i k).bind registry.find?

/-- The report on a marker that does not fit the kind of declaration. -/
def misplaced (n : Node) (m : Marker) : Diagnostic where
  cause := .misplacedMarker
  message := "`" ++ m.identity.text ++ "` cannot be applied to a " ++ n.kind.word ++ " declaration"
  location := n.location

/-- The report on a marker after the one that counts. -/
def conflicting (n : Node) (first m : Marker) : Diagnostic where
  cause := .conflictingMarkers
  message := "`" ++ m.identity.text ++ "` is ignored because `" ++ first.identity.text ++
    "` already applies to this declaration"
  location := n.location

/-- Go through the markers of a node: the first fitting one counts (`first` is the one found so
    far), every other one is reported in its place. -/
def weigh (n : Node) : Option Marker → List Marker → Option Marker × List Diagnostic
  | first, [] => (first, [])
  | first, m :: ms =>
    if m.appliesTo n.kind then
      match first with
      | none => weigh n (some m) ms
      | some f =>
        let (chosen, reports) := weigh n first ms
        (chosen, conflicting n f m :: reports)
    else
      let (chosen, reports) := weigh n first ms
      (chosen, misplaced n m :: reports)

/-- What a marker asks for on a node; a member marker needs the node's name. -/
def Marker.augmentation? (m : Marker) (n : Node) : Option Augmentation :=
  match m.kind with
  | .declaration => some .declaration
  | .member role => n.name.map fun name => .member name role

/-! ## 3. Resolving a declaration -/

/-- The marker and the declaration as a message names them. -/
def markedText (n : Node) (m : Marker) : String :=
  "`" ++ m.identity.text ++ "` on `" ++ n.name.getD "_" ++ "`"

/-- The report on a declaration that no type or `impl` block encloses. -/
def ownerMissing (n : Node) (m : Marker) : Diagnostic where
  cause := .ownerNotFound
  message := markedText n m ++ " has no enclosing type or impl to extend"
  location := n.location

/-- The report on an owner with parameters. -/
def ownerGeneric (n : Node) (m : Marker) (s : DeclaredSymbol) : Diagnostic where
  cause := .genericOwner
  message := markedText n m ++ " is ignored because `" ++ s.name ++ "` is generic"
  location := n.location

/-- The name of an owner: what the model says it declares, else what a type declaration is called.
    The spelled self type of an `impl` block alone names nothing. -/
def ownerName? (owner : Node) (declared : Option DeclaredSymbol) : Option String :=
  match declared with
  | some s => some s.name
  | none => if owner.kind.isTypeDeclaration then owner.name else none

/-- The finding of a marker that counts, or the reason why there is none. -/
def findTarget (t : Tree) (model : SemanticModel) (i : NodeId) (n : Node) (m : Marker)
    (augmentation : Augmentation) : Except Diagnostic Finding :=
  match t.owner? i with
  | none => .error (ownerMissing n m)
  | some (owner, ownerNode) =>
    let declared := model.declared? owner
    match declared.filter (·.generic) with
    | some s => .error (ownerGeneric n m s)
    | none =>
      .ok
        { owner := owner
          target :=
            { ownerName := ownerName? ownerNode declared
              ownerNamespace := (declared.map (·.container.path)).getD ""
              augmentation := augmentation
              marker := m.identity
              location := n.location } }

/-- Resolve one declaration: at most one finding, and a report for every marker that leads to
    none. -/
def resolve (t : Tree) (model : SemanticModel) (registry : Registry) (i : NodeId) : Resolution :=
  match t.node? i with
  | none => {}
  | some n =>
    let (chosen, reports) := weigh n none (markersOn model registry i n)
    match chosen with
    | none => { diagnostics := reports }
    | some m =>
      match m.augmentation? n with
      | none => { diagnostics := reports }
      | some augmentation =>
        match findTarget t model i n m augmentation with
        | .error report => { diagnostics := reports ++ [report] }
        | .ok finding => { finding := some finding, diagnostics := reports }

/-- The targets of a list of findings, absent ones dropped, in order. -/
def collect (findings : List (Option Finding)) : List Target :=
  (findings.filterMap id).map (·.target)

end LogMarkers
