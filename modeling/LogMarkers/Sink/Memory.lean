import LogMarkers.Sink.Basic
import LogMarkers.Table

/-!
# Artifacts kept in memory

A memory sink holds the artifacts by name, the order in which their names were first stored, and the
names stored since the last run was finished. Nothing can fail.
-/

namespace LogMarkers

/-- Artifacts kept in memory. -/
structure MemorySink where
  artifacts : Table String Artifact := .empty
  /-- The names in the order they were stored. -/
  order : List String := []
  /-- The names stored since the last run was finished. -/
  current : List String := []
  deriving DecidableEq

namespace MemorySink

/-- The artifact with this name. -/
def get? (s : MemorySink) (id : String) : Option Artifact := s.artifacts.get? id

/-- The artifacts that extend an owner, in the order they were stored. -/
def extensions (s : MemorySink) : List Artifact :=
  (s.order.filterMap s.get?).filter (·.kind == .extension)

/-- Whether an artifact with this name and fingerprint is there. -/
def holds (s : MemorySink) (a : Artifact) : Bool :=
  match s.get? a.id with
  | some existing => existing.fingerprint == a.fingerprint
  | none => false

/-- The sink after storing an artifact. -/
def put (s : MemorySink) (a : Artifact) : MemorySink where
  artifacts := s.artifacts.insert a.id a
  order := if s.artifacts.contains a.id then s.order else s.order ++ [a.id]
  current := a.id :: s.current

/-- What storing an artifact does. -/
def outcome (s : MemorySink) (a : Artifact) : WriteOutcome :=
  if s.holds a then .unchanged else .written

/-- The sink after the run is finished. -/
def finished (s : MemorySink) : MemorySink where
  artifacts := s.artifacts.filterKeys (s.current.contains ·)
  order := s.order.filter (s.current.contains ·)

instance : Sink MemorySink where
  persist s a := (.ok (s.outcome a), s.put a)
  finish s := (.ok (), s.finished)

end MemorySink

end LogMarkers
