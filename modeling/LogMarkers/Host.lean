import LogMarkers.Crate.Lowering
import LogMarkers.Run
import LogMarkers.Sink.Basic

/-!
# Hosts

A host takes a source set through lowering, a run and a sink. Its settings are checked, which is part
of the type, so the run's settings are too (`HostSettings.run_check`). The marker declarations are
stored first, then the extensions in their order.
-/

namespace LogMarkers

/-- The settings of the run are accepted with those of the host. -/
theorem HostSettings.run_check {s : HostSettings} (h : s.check = .ok ()) : s.run.check = .ok () := by
  unfold HostSettings.check at h
  cases hr : s.run.check with
  | ok u => rfl
  | error e =>
    rw [hr] at h
    cases h

/-- What is fixed for all runs of a host. -/
structure Host where
  settings : HostSettings
  registry : Registry
  accepted : settings.check = .ok ()

/-- What a host run did. -/
structure Report where
  /-- The names of all stored artifacts, the marker declarations first. -/
  artifactIds : List String
  /-- The names of those that were written. -/
  written : List String
  diagnostics : List Diagnostic
  stats : Stats

namespace Report

/-- Whether a report is an error. -/
def hasErrors (r : Report) : Bool := r.diagnostics.any (·.isError)

/-- The number of artifacts that were there already. -/
def unchanged (r : Report) : Nat := r.artifactIds.length - r.written.length

end Report

namespace Host

/-- The host with these settings, if they are acceptable. -/
def new (settings : HostSettings) (registry : Registry := .standard) : Except Failure Host :=
  match h : settings.check with
  | .ok () => .ok ⟨settings, registry, h⟩
  | .error e => .error e

/-- What runs for the host. -/
def generator (h : Host) : Generator where
  settings := h.settings.run
  registry := h.registry
  renderer := .standard
  accepted := HostSettings.run_check h.accepted

/-- The run on a crate. -/
def output (h : Host) (c : LoweredCrate) : Output := h.generator.run c.tree c.model

/-- The artifacts a run stores. -/
def artifacts (h : Host) (output : Output) : List Artifact :=
  h.generator.markerDeclarations :: output.artifacts

/-- The names of the artifacts that were written. -/
def writtenIds (artifacts : List Artifact) (outcomes : List WriteOutcome) : List String :=
  (artifacts.zip outcomes).filterMap fun (a, outcome) =>
    if outcome = .written then some a.id else none

/-- The report on a run with these outcomes. -/
def report (h : Host) (output : Output) (outcomes : List WriteOutcome) : Report where
  artifactIds := (h.artifacts output).map (·.id)
  written := writtenIds (h.artifacts output) outcomes
  diagnostics := output.diagnostics
  stats := output.stats

/-- Generate for a source set and store the artifacts. -/
def generate {σ : Type} [Sink σ] (h : Host) (sources : SourceSet) (sink : σ) :
    Except Failure Report × σ :=
  match sources.lower with
  | .error e => (.error e, sink)
  | .ok crate =>
    let output := h.output crate
    match Sink.store (h.artifacts output) sink with
    | (.error e, sink) => (.error e, sink)
    | (.ok outcomes, sink) => (.ok (h.report output outcomes), sink)

end Host

end LogMarkers
