import LogMarkers.Renderer

/-!
# Emission: one artifact per owner

Targets are grouped by owner and every group becomes one artifact, or only reports.

* The owners are taken in increasing order, an unnamed owner before the named ones of its namespace
  (`ownerKeys`); a group holds the targets of its owner in input order (`groups`).
* A group fails as a unit: an unnamed owner or two snippets of one name cost this group its
  artifact and nothing else (`emitGroup`).
-/

namespace LogMarkers

/-! ## 1. Owners -/

/-- What the targets of one group share. -/
structure OwnerKey where
  space : String
  owner : Option String
  deriving DecidableEq, Repr

/-- The owner of a target. -/
def Target.key (t : Target) : OwnerKey := ⟨t.ownerNamespace, t.ownerName⟩

namespace OwnerKey

/-- An absent name comes before every present one. -/
def nameBefore : Option String → Option String → Bool
  | none, some _ => true
  | some a, some b => decide (a < b)
  | _, none => false

/-- Owners are ordered by namespace, then by name. -/
def before (a b : OwnerKey) : Bool :=
  decide (a.space < b.space) || (a.space == b.space && nameBefore a.owner b.owner)

/-- Add an owner to an increasing list of owners, unless it is there. -/
def insert (k : OwnerKey) : List OwnerKey → List OwnerKey
  | [] => [k]
  | k' :: rest =>
    if k.before k' then k :: k' :: rest
    else if k = k' then k' :: rest
    else k' :: insert k rest

end OwnerKey

/-- The distinct owners of a list of targets, in increasing order. -/
def ownerKeys (targets : List Target) : List OwnerKey :=
  targets.foldr (fun t keys => OwnerKey.insert t.key keys) []

/-- All targets of one owner. -/
structure Group where
  key : OwnerKey
  targets : List Target
  deriving DecidableEq, Repr

/-- The targets by owner: owners in increasing order, targets in input order. -/
def groups (targets : List Target) : List Group :=
  (ownerKeys targets).map fun k => ⟨k, targets.filter (·.key = k)⟩

/-! ## 2. Names that are defined twice -/

/-- The report on a snippet whose name was defined before. -/
def duplicateMember (qualified : String) (ident : String) (first : Option Location)
    (t : Target) : Diagnostic where
  cause := .duplicateGeneratedMember
  message := "generated member `" ++ ident ++ "` would be defined twice" ++
    match first with
    | some l => " (first defined for " ++ l.text ++ ")"
    | none => ""
  owner := some qualified
  location := t.location

/-- One report at every snippet whose name an earlier one has; `seen` holds the names so far with
    the places they were first defined for. -/
def collisions (qualified : String) :
    List (String × Option Location) → List (Target × Snippet) → List Diagnostic
  | _, [] => []
  | seen, (t, s) :: rest =>
    match seen.lookup s.ident with
    | some first => duplicateMember qualified s.ident first t :: collisions qualified seen rest
    | none => collisions qualified ((s.ident, t.location) :: seen) rest

/-! ## 3. Emitting -/

/-- Artifacts and reports. -/
structure Emission where
  artifacts : List Artifact := []
  diagnostics : List Diagnostic := []
  deriving DecidableEq, Repr

/-- The report on the targets of an owner without a name. -/
def unnamedOwner (targets : List Target) : Diagnostic where
  cause := .unnamedOwner
  message := toString targets.length ++
    " finding(s) belong to an owner whose name could not be determined"
  location := targets.head?.bind (·.location)

/-- What one group becomes. -/
def emitGroup (renderer : Renderer) (suffix : String) (g : Group) : Emission :=
  match g.key.owner with
  | none => { diagnostics := [unnamedOwner g.targets] }
  | some owner =>
    let snippets := g.targets.map fun t => renderer.snippet owner t.augmentation
    match collisions (qualifiedOwner g.key.space owner) [] (g.targets.zip snippets) with
    | [] =>
      let text := renderer.extension g.key.space owner snippets
      { artifacts := [.ofOwner g.key.space owner suffix text] }
    | reports => { diagnostics := reports }

/-- What a list of targets becomes: its groups one after the other. -/
def emit (renderer : Renderer) (suffix : String) (targets : List Target) : Emission :=
  let parts := (groups targets).map (emitGroup renderer suffix)
  { artifacts := parts.flatMap (·.artifacts), diagnostics := parts.flatMap (·.diagnostics) }

end LogMarkers
