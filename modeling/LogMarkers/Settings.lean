import LogMarkers.Failure
import LogMarkers.Json.Reader

/-!
# Settings

What can be set for a run and for the host that drives it, which values are accepted, and how
settings are read from a JSON document. A missing setting has its default; the first setting with a
bad value is the one that is reported.
-/

namespace LogMarkers

/-! ## 1. The settings of a run -/

/-- The settings of a run. -/
structure RunSettings where
  /-- Whether large trees are resolved in parallel. -/
  parallel : Bool := true
  /-- The number of nodes from which on a tree is large. -/
  parallelThreshold : Nat := 256
  /-- What ends the file name of every extension. -/
  artifactSuffix : String := ".autolog.g.rs"
  /-- The file name of the marker declarations. -/
  markersId : String := "autolog_markers.g.rs"
  deriving DecidableEq, Repr, Inhabited

namespace RunSettings

/-- Never parallel. -/
def sequential : RunSettings := { parallel := false }

/-- Parallel for every tree with a node. -/
def alwaysParallel : RunSettings := { parallel := true, parallelThreshold := 1 }

/-- A part of a file name: not empty and without a separator. -/
def checkFileName (field value : String) : Except Failure Unit :=
  if value = "" then .error (.invalidSetting field "must not be empty")
  else if value.toList.any (fun c => c == '/' || c == '\\') then
    .error (.invalidSetting field "must not contain a path separator")
  else .ok ()

/-- Whether a text ends in `.rs`. -/
def endsInRs (text : String) : Bool :=
  match text.toList.reverse with
  | 's' :: 'r' :: '.' :: _ => true
  | _ => false

/-- Accept the settings or report the first bad one. -/
def check (s : RunSettings) : Except Failure Unit := do
  if s.parallelThreshold = 0 then
    throw (.invalidSetting "parallel_threshold" "must be greater than 0")
  checkFileName "artifact_suffix" s.artifactSuffix
  if !endsInRs s.artifactSuffix then
    throw (.invalidSetting "artifact_suffix" "must end with `.rs`")
  checkFileName "marker_declarations_id" s.markersId

/-- The names of the settings in a document, in the order an array gives them. -/
def fields : List String :=
  ["parallel", "parallel_threshold", "artifact_suffix", "marker_declarations_id"]

/-- Read the settings from a value; those it leaves out have their defaults. -/
def ofJson? (j : Json) : Option RunSettings := do
  let defaults : RunSettings := {}
  match ← j.record? fields with
  | [parallel, threshold, suffix, markers] =>
    return {
      parallel := ← Json.orElse defaults.parallel Json.bool? parallel
      parallelThreshold := ← Json.orElse defaults.parallelThreshold Json.nat64? threshold
      artifactSuffix := ← Json.orElse defaults.artifactSuffix Json.text? suffix
      markersId := ← Json.orElse defaults.markersId Json.text? markers }
  | _ => none

/-- Read and check the settings of a document. -/
def ofText (text : String) : Except Failure RunSettings :=
  match (Json.parse? text).bind ofJson? with
  | none => .error (.unreadableSettings "not a configuration")
  | some s => s.check.map fun _ => s

end RunSettings

/-! ## 2. The settings of a host -/

/-- The settings of a host. -/
structure HostSettings where
  run : RunSettings := {}
  /-- The directory under the output directory that receives the artifacts. -/
  outputSubdir : String := "autolog"
  /-- Whether a manifest is written next to the artifacts. -/
  writeManifest : Bool := true
  /-- Whether diagnostics are printed as build warnings. -/
  printWarnings : Bool := true
  deriving DecidableEq, Repr, Inhabited

namespace HostSettings

/-- The pieces of a text between slashes and backslashes. -/
def pathPieces : List Char → List (List Char)
  | [] => [[]]
  | c :: rest =>
    if c = '/' ∨ c = '\\' then [] :: pathPieces rest
    else
      match pathPieces rest with
      | [] => [[c]]
      | piece :: pieces => (c :: piece) :: pieces

/-- Whether a directory name leaves the directory it is taken in: it starts at a root, or one of
    its pieces goes up. -/
def leavesDirectory (dir : String) : Bool :=
  (match dir.toList with
    | c :: _ => c == '/' || c == '\\'
    | [] => false) ||
  (pathPieces dir.toList).any (· == ['.', '.'])

/-- Accept the settings or report the first bad one. -/
def check (s : HostSettings) : Except Failure Unit := do
  s.run.check
  if s.outputSubdir = "" then
    throw (.invalidSetting "output_subdir" "must not be empty")
  if leavesDirectory s.outputSubdir then
    throw (.invalidSetting "output_subdir" "must be a relative path inside OUT_DIR")

/-- The names of the settings in a document, in the order an array gives them. -/
def fields : List String := ["generator", "output_subdir", "write_manifest", "cargo_warnings"]

/-- Read the settings from a value; those it leaves out have their defaults. -/
def ofJson? (j : Json) : Option HostSettings := do
  let defaults : HostSettings := {}
  match ← j.record? fields with
  | [run, subdir, manifest, warnings] =>
    return {
      run := ← Json.orElse defaults.run RunSettings.ofJson? run
      outputSubdir := ← Json.orElse defaults.outputSubdir Json.text? subdir
      writeManifest := ← Json.orElse defaults.writeManifest Json.bool? manifest
      printWarnings := ← Json.orElse defaults.printWarnings Json.bool? warnings }
  | _ => none

/-- Read and check the settings of a document. -/
def ofText (text : String) : Except Failure HostSettings :=
  match (Json.parse? text).bind ofJson? with
  | none => .error (.unreadableSettings "not a configuration")
  | some s => s.check.map fun _ => s

end HostSettings

end LogMarkers
