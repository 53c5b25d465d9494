import LogMarkers.Artifact
import LogMarkers.Failure

/-!
# Sinks

A sink is where the artifacts of a run go: they are stored one after the other, then the run is
finished, which removes what earlier runs stored and this one did not. Both steps can fail, and a
step that fails still changes the sink.
-/

namespace LogMarkers

/-- What storing an artifact did. -/
inductive WriteOutcome where
  | written
  | unchanged
  deriving DecidableEq, Repr

/-- The outcome as a label in data. -/
def WriteOutcome.label : WriteOutcome → String
  | written => "Written"
  | unchanged => "Unchanged"

/-- The two steps of a sink with states `σ`. -/
class Sink (σ : Type) where
  /-- Store an artifact. -/
  persist : σ → Artifact → Except Failure WriteOutcome × σ
  /-- Finish the run. -/
  finish : σ → Except Failure Unit × σ

namespace Sink

variable {σ : Type} [Sink σ]

/-- Store artifacts one after the other; the first failure ends it. -/
def persistAll : List Artifact → σ → Except Failure (List WriteOutcome) × σ
  | [], sink => (.ok [], sink)
  | a :: rest, sink =>
    match persist sink a with
    | (.error e, sink) => (.error e, sink)
    | (.ok outcome, sink) =>
      match persistAll rest sink with
      | (.error e, sink) => (.error e, sink)
      | (.ok outcomes, sink) => (.ok (outcome :: outcomes), sink)

/-- Store the artifacts of a run and finish it. -/
def store (artifacts : List Artifact) (sink : σ) : Except Failure (List WriteOutcome) × σ :=
  match persistAll artifacts sink with
  | (.error e, sink) => (.error e, sink)
  | (.ok outcomes, sink) =>
    match finish sink with
    | (.error e, sink) => (.error e, sink)
    | (.ok (), sink) => (.ok outcomes, sink)

end Sink

end LogMarkers
