import LogMarkers.Crate.Load
import LogMarkers.Host
import LogMarkers.Sink.Directory

/-!
# Hosts in a build script

A build script is told by its environment where the package is and where its output goes. It reads
the sources of the package, stores the artifacts below the output directory and tells the build tool,
line by line, which files it depends on and what there is to warn about. Lines that are printed stay
printed when a later step fails.
-/

namespace LogMarkers

open DiskPath

/-- What a build script is told; a variable may be unset. -/
structure BuildEnvironment where
  /-- The directory of the package. -/
  manifestDir : Option String
  /-- The directory for output. -/
  outDir : Option String

/-- What a build script did. -/
structure BuildRun where
  result : Except Failure Report
  /-- The lines that were printed. -/
  lines : List String
  disk : Disk

/-- The line that names a file the build depends on. -/
def dependencyLine (file : String) : String := "cargo:rerun-if-changed=" ++ file

/-- The line that passes a diagnostic on. -/
def warningLine (d : Diagnostic) : String := "cargo:warning=" ++ d.text

/-- Open the directory that the settings name below the output directory. -/
def HostSettings.openSink (s : HostSettings) (outDir : String) (disk : Disk) :
    Except Failure DirectoryState × Disk :=
  match DirectorySink.new (join outDir s.outputSubdir) disk with
  | (.error e, disk) => (.error e, disk)
  | (.ok sink, disk) => (.ok ⟨sink.withManifest s.writeManifest, disk⟩, disk)

/-- The lines about a report. -/
def HostSettings.warningLines (s : HostSettings) (r : Report) : List String :=
  if s.printWarnings then r.diagnostics.map warningLine else []

namespace Host

/-- Generate for the sources of a package, after `lines` were printed. -/
def generateBelow (h : Host) (sources : SourceSet) (outDir : String) (lines : List String)
    (disk : Disk) : BuildRun :=
  match h.settings.openSink outDir disk with
  | (.error e, disk) => ⟨.error e, lines, disk⟩
  | (.ok st, _) =>
    match h.generate sources st with
    | (.error e, st) => ⟨.error e, lines, st.disk⟩
    | (.ok report, st) => ⟨.ok report, lines ++ h.settings.warningLines report, st.disk⟩

/-- Run as a build script; `none` if loading the sources takes more than `steps` visits. -/
def buildScript (h : Host) (env : BuildEnvironment) (disk : Disk) (steps : Nat) :
    Option BuildRun :=
  match env.manifestDir, env.outDir with
  | none, _ => some ⟨.error (.missingVariable "CARGO_MANIFEST_DIR"), [], disk⟩
  | _, none => some ⟨.error (.missingVariable "OUT_DIR"), [], disk⟩
  | some manifestDir, some outDir =>
    let root := join manifestDir "src"
    (SourceSet.load? disk root steps).map fun
      | .error e => ⟨.error e, [], disk⟩
      | .ok sources =>
        h.generateBelow sources outDir ((root :: sources.fileNames).map dependencyLine) disk

end Host

end LogMarkers
