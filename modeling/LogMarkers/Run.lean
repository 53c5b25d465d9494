import LogMarkers.Decimal.Rounding
import LogMarkers.Emission
import LogMarkers.Settings

/-!
# Runs

A run takes a tree and its model through three stages: every candidate is resolved, the findings
are collected, the targets are emitted.

* `Generator` holds what does not depend on the tree; its settings are checked, which is part of
  the type.
* A run that can be given up asks a question at every node, after resolution and after emission:
  `Polls` is the sequence of answers. `Generator.execute` follows the answers, and `Generator.run`
  is the run in which every answer is no.
* `Trip` names moments at which a run is given up from outside, and `Trip.polls` gives the answers
  the run then gets.
-/

namespace LogMarkers

/-! ## 1. Counters and times -/

/-- The counters of a run and the nanoseconds of its stages. -/
structure Stats where
  nodesVisited : Nat := 0
  candidates : Nat := 0
  findings : Nat := 0
  artifacts : Nat := 0
  diagnostics : Nat := 0
  parallel : Bool := false
  stageTimes : Table String Nat := .empty
  deriving DecidableEq

namespace Stats

/-- Note the time of a stage; a stage noted again has the later time. -/
def recordStage (s : Stats) (stage : String) (nanos : Nat) : Stats :=
  { s with stageTimes := s.stageTimes.insert stage nanos }

/-- The time of all stages together. -/
def totalNanos (s : Stats) : Nat := s.stageTimes.values.foldl (· + ·) 0

/-- The number of nanoseconds in a second. -/
def nanosPerSecond : Nat := 1000000000

/-- Milliseconds with three places, by way of seconds as a binary number of 53 digits. -/
def milliseconds (nanos : Nat) : String :=
  let whole := Binary.round (nanos / nanosPerSecond) 1
  let seconds := whole.add (Binary.round (nanos % nanosPerSecond) nanosPerSecond)
  let (n, d) := (seconds.scale 1000).ratio
  Decimal.fixed3 n d ++ "ms"

/-- The counters and times for a reader. -/
def report (s : Stats) : String :=
  "=== Autolog Generation Report ===\n\n" ++
    "Nodes visited: " ++ toString s.nodesVisited ++ "\n" ++
    "Candidates: " ++ toString s.candidates ++ "\n" ++
    "Findings: " ++ toString s.findings ++ "\n" ++
    "Artifacts: " ++ toString s.artifacts ++ "\n" ++
    "Diagnostics: " ++ toString s.diagnostics ++ "\n" ++
    "Mode: " ++ (if s.parallel then "parallel" else "sequential") ++ "\n" ++
    "\nStage Execution Times:\n" ++
    String.join (s.stageTimes.entries.map fun (stage, nanos) =>
      "  " ++ stage ++ ": " ++ milliseconds nanos ++ "\n") ++
    "  total: " ++ milliseconds s.totalNanos ++ "\n"

end Stats

/-! ## 2. Generators -/

/-- What a run produces. -/
structure Output where
  /-- One extension per owner, in the order of the owners. -/
  artifacts : List Artifact := []
  /-- The reports of resolution in node order, then those of emission. -/
  diagnostics : List Diagnostic := []
  stats : Stats := {}
  deriving DecidableEq

/-- Whether a report is an error. -/
def Output.hasErrors (o : Output) : Bool := o.diagnostics.any (·.isError)

/-- The artifact with this name. -/
def Output.artifact? (o : Output) (id : String) : Option Artifact := o.artifacts.find? (·.id == id)

/-- What is fixed for all runs: checked settings, markers and texts. -/
structure Generator where
  settings : RunSettings
  registry : Registry
  renderer : Renderer
  accepted : settings.check = .ok ()

/-- The generator with these settings, if they are acceptable. -/
def Generator.new (settings : RunSettings) (registry : Registry)
    (renderer : Renderer := .standard) : Except Failure Generator :=
  match h : settings.check with
  | .ok () => .ok ⟨settings, registry, renderer, h⟩
  | .error e => .error e

namespace Generator

/-- The definitions of the markers; they depend on no tree. -/
def markerDeclarations (g : Generator) : Artifact :=
  .ofMarkers g.settings.markersId (g.renderer.markerDeclarations g.registry)

/-- Whether a tree of this size is resolved in parallel. -/
def isParallel (g : Generator) (size : Nat) : Bool :=
  g.settings.parallel && decide (g.settings.parallelThreshold ≤ size)

/-! ## 3. Running -/

/-- The answers to the questions whether the run is given up: the question at node `i` has the
    number `i`, the two after the stages follow the last node. -/
abbrev Polls := Nat → Bool

/-- The resolutions of the candidates among the given nodes, in order; a node at which the run is
    given up is passed over. Nodes may be resolved in parallel (`isParallel`), and then too what
    comes of them is listed in the order of the nodes, so there is one definition for both ways; a
    run tells them apart only in its counters. -/
def resolveAll (g : Generator) (t : Tree) (model : SemanticModel) (given : Polls) :
    List NodeId → List Resolution
  | [] => []
  | i :: rest =>
    let later := g.resolveAll t model given rest
    if given i then later
    else
      match t.node? i with
      | none => later
      | some n =>
        if Tree.isCandidate n then resolve t model g.registry i :: later else later

/-- The result of finished resolutions: findings collected, targets emitted, everything counted. -/
def finish (g : Generator) (t : Tree) (resolutions : List Resolution) : Output :=
  let targets := collect (resolutions.map (·.finding))
  let emission := emit g.renderer g.settings.artifactSuffix targets
  let diagnostics := resolutions.flatMap (·.diagnostics) ++ emission.diagnostics
  { artifacts := emission.artifacts
    diagnostics := diagnostics
    stats :=
      { nodesVisited := t.size
        candidates := resolutions.length
        findings := targets.length
        artifacts := emission.artifacts.length
        diagnostics := diagnostics.length
        parallel := g.isParallel t.size
        stageTimes := .ofList [("resolution", 0), ("collection", 0), ("emission", 0)] } }

/-- The run with these answers; nothing where it is given up after a stage. -/
def execute (g : Generator) (t : Tree) (model : SemanticModel) (given : Polls) : Option Output :=
  let resolutions := g.resolveAll t model given t.ids
  if given t.size then none
  else
    let output := g.finish t resolutions
    if given (t.size + 1) then none else some output

/-- The run that nobody gives up. -/
def run (g : Generator) (t : Tree) (model : SemanticModel) : Output :=
  g.finish t (g.resolveAll t model (fun _ => false) t.ids)

/-- The run that fails as cancelled where it is given up. -/
def runCancellable (g : Generator) (t : Tree) (model : SemanticModel) (given : Polls) :
    Except Failure Output :=
  match g.execute t model given with
  | some output => .ok output
  | none => .error .cancelled

end Generator

/-! ## 4. Moments at which a run is given up -/

/-- A moment at which a run is given up. -/
inductive Trip where
  | never
  /-- Before it starts. -/
  | beforehand
  /-- When the model is asked for an attribute for the `n`th time; never for zero. -/
  | atAttribute (n : Nat)
  /-- When the first snippet is rendered. -/
  | atSnippet

/-- How often the model is asked for an attribute by the nodes before `i`. -/
def attributesAsked (t : Tree) (i : NodeId) : Nat :=
  (List.range i).foldl (fun asked k =>
    match t.node? k with
    | some n => if Tree.isCandidate n then asked + n.attributes.length else asked
    | none => asked) 0

/-- Whether emitting the run's targets renders a snippet: some target has a named owner. -/
def rendersSnippet (g : Generator) (t : Tree) (model : SemanticModel) : Bool :=
  (collect ((g.resolveAll t model (fun _ => false) t.ids).map (·.finding))).any
    (·.ownerName.isSome)

/-- The answers that a run gets when it is given up at this moment. -/
def Trip.polls (g : Generator) (t : Tree) (model : SemanticModel) : Trip → Generator.Polls
  | .never => fun _ => false
  | .beforehand => fun _ => true
  | .atAttribute n => fun i => decide (0 < n) && decide (n ≤ attributesAsked t i)
  | .atSnippet => fun i => decide (t.size < i) && rendersSnippet g t model

end LogMarkers
