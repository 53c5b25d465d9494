import LogMarkers.Sink.Basic
import LogMarkers.Sink.Manifest

/-!
# Artifacts stored in a directory

A directory sink stores each artifact in a file of its name, unless the file has that text already.
The manifest found in the directory, or that of the last finished run, tells which files are left
over when a run is finished.

* An artifact is listed before its file is written, so a failed write is listed too.
* Only bare file names are ever removed; anything else in a manifest was not stored by a sink.
-/

namespace LogMarkers

open DiskPath

/-- A directory that receives artifacts. -/
structure DirectorySink where
  dir : String
  /-- Whether the manifest is written when a run is finished. -/
  writeManifest : Bool := true
  /-- The manifest of the last finished run. -/
  manifest : Manifest := {}
  /-- What was stored since then. -/
  pending : Manifest := {}
  deriving DecidableEq

/-- A directory sink with the disk it works on. -/
structure DirectoryState where
  sink : DirectorySink
  disk : Disk

namespace DirectorySink

/-- The path of a file in the directory. -/
def pathOf (s : DirectorySink) (id : String) : String := join s.dir id

/-- The manifest found in a directory; one that cannot be read counts as empty. -/
def previousManifest (d : Disk) (dir : String) : Manifest :=
  match Manifest.load d (join dir manifestFile) with
  | .ok m => m
  | .error _ => {}

/-- Open a directory, which is created where it is missing. -/
def new (dir : String) (d : Disk) : Except Failure DirectorySink × Disk :=
  match d.makeDirectories dir with
  | (.error e, d) => (.error (.disk dir e), d)
  | (.ok (), d) => (.ok { dir := dir, manifest := previousManifest d dir }, d)

/-- The sink with the manifest switched on or off. -/
def withManifest (s : DirectorySink) (writeManifest : Bool) : DirectorySink :=
  { s with writeManifest := writeManifest }

/-! ## 1. Storing -/

/-- Whether the file of an artifact has its text already, judged by the fingerprint. -/
def holds (s : DirectorySink) (d : Disk) (a : Artifact) : Bool :=
  match d.readText (s.pathOf a.id) with
  | .ok text => { a with text := text }.fingerprint == a.fingerprint
  | .error _ => false

/-- The sink with an artifact listed. -/
def list (s : DirectorySink) (a : Artifact) : DirectorySink :=
  { s with pending := ⟨s.pending.entries ++ [.of a]⟩ }

/-- List an artifact and write its file. -/
def persist (st : DirectoryState) (a : Artifact) : Except Failure WriteOutcome × DirectoryState :=
  let sink := st.sink.list a
  if st.sink.holds st.disk a then (.ok .unchanged, ⟨sink, st.disk⟩)
  else
    match st.disk.writeText (st.sink.pathOf a.id) a.text with
    | .ok disk => (.ok .written, ⟨sink, disk⟩)
    | .error e => (.error (.disk (st.sink.pathOf a.id) e), ⟨sink, st.disk⟩)

/-! ## 2. Finishing -/

/-- Remove a file of the directory; one that is missing is fine. -/
def removeIfThere (s : DirectorySink) (d : Disk) (id : String) : Except Failure Disk :=
  match d.removeFile (s.pathOf id) with
  | .ok d => .ok d
  | .error .notFound => .ok d
  | .error e => .error (.disk (s.pathOf id) e)

/-- Whether an entry of the last run is left over: this run did not store it, and it is a bare file
    name. -/
def isStale (s : DirectorySink) (e : ManifestEntry) : Bool :=
  !(s.pending.entries.map (·.id)).contains e.id && isBareName e.id

/-- Remove the files of entries; what was removed before a failure is gone. -/
def removeAll (s : DirectorySink) : List ManifestEntry → Disk → Except Failure Unit × Disk
  | [], d => (.ok (), d)
  | e :: rest, d =>
    match s.removeIfThere d e.id with
    | .ok d => s.removeAll rest d
    | .error f => (.error f, d)

/-- The sink whose last run is the one that was stored. -/
def advance (s : DirectorySink) : DirectorySink := { s with manifest := s.pending, pending := {} }

/-- Write the manifest of the last run, or remove an old one. -/
def storeManifest (s : DirectorySink) (d : Disk) : Except Failure Disk :=
  if s.writeManifest then
    match d.writeText (s.pathOf manifestFile) s.manifest.render with
    | .ok d => .ok d
    | .error e => .error (.disk (s.pathOf manifestFile) e)
  else s.removeIfThere d manifestFile

/-- Remove what is left over, then store the manifest. -/
def finish (st : DirectoryState) : Except Failure Unit × DirectoryState :=
  match st.sink.removeAll (st.sink.manifest.entries.filter st.sink.isStale) st.disk with
  | (.error e, disk) => (.error e, ⟨st.sink, disk⟩)
  | (.ok (), disk) =>
    match st.sink.advance.storeManifest disk with
    | .ok disk => (.ok (), ⟨st.sink.advance, disk⟩)
    | .error e => (.error e, ⟨st.sink.advance, disk⟩)

instance : Sink DirectoryState where
  persist := persist
  finish := finish

end DirectorySink

end LogMarkers
