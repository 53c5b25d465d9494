import LogMarkers.Artifact
import LogMarkers.Disk.Basic
import LogMarkers.Json.Quoted
import LogMarkers.Json.Reader

/-!
# Manifests

A manifest lists the artifacts of the last run with their kinds and fingerprints. It is written as
an indented JSON document (`Manifest.render`) and read back from one (`Manifest.ofText`).
-/

namespace LogMarkers

/-- What a manifest says about one artifact. -/
structure ManifestEntry where
  id : String
  kind : ArtifactKind
  fingerprint : String
  deriving DecidableEq, Repr

/-- The artifacts of the last run, in the order they were stored. -/
structure Manifest where
  entries : List ManifestEntry := []
  deriving DecidableEq, Repr

/-- The entry of an artifact. -/
def ManifestEntry.of (a : Artifact) : ManifestEntry := ⟨a.id, a.kind, a.fingerprint⟩

/-- The name of the file a manifest is stored in. -/
def manifestFile : String := "autolog-manifest.json"

/-! ## 1. Writing -/

/-- The lines of an entry. -/
def ManifestEntry.render (e : ManifestEntry) : String :=
  "    \x7b\n" ++
    "      \"id\": " ++ Json.quote e.id ++ ",\n" ++
    "      \"kind\": " ++ Json.quote e.kind.label ++ ",\n" ++
    "      \"fingerprint\": " ++ Json.quote e.fingerprint ++ "\n" ++
    "    \x7d"

/-- The lines of several entries. -/
def renderEntries : List ManifestEntry → String
  | [] => ""
  | [e] => e.render
  | e :: rest => e.render ++ ",\n" ++ renderEntries rest

/-- The document of a manifest. -/
def Manifest.render (m : Manifest) : String :=
  if m.entries = [] then "\x7b\n  \"artifacts\": []\n\x7d"
  else "\x7b\n  \"artifacts\": [\n" ++ renderEntries m.entries ++ "\n  ]\n\x7d"

/-! ## 2. Reading -/

/-- A kind from its label, or from an object whose only member is the label with nothing. -/
def ArtifactKind.ofJson? : Json → Option ArtifactKind
  | .text (some label) => ofLabel? label
  | .object [(some label, .null)] => ofLabel? label
  | _ => none

/-- An entry from a record, of which no field may be missing. -/
def ManifestEntry.ofJson? (j : Json) : Option ManifestEntry := do
  match ← j.record? ["id", "kind", "fingerprint"] with
  | [some id, some kind, some fingerprint] =>
    return ⟨← id.text?, ← ArtifactKind.ofJson? kind, ← fingerprint.text?⟩
  | _ => none

/-- A manifest from a record. -/
def Manifest.ofJson? (j : Json) : Option Manifest := do
  match ← j.record? ["artifacts"] with
  | [some artifacts] => return ⟨← (← artifacts.array?).mapM ManifestEntry.ofJson?⟩
  | _ => none

/-- The manifest of a document. -/
def Manifest.ofText? (text : String) : Option Manifest := (Json.parse? text).bind ofJson?

/-- The manifest of a document, or the failure to read it. -/
def Manifest.ofText (text : String) : Except Failure Manifest :=
  match Manifest.ofText? text with
  | some m => .ok m
  | none => .error (.unreadableManifest "not a manifest")

/-- The manifest in a file. -/
def Manifest.load (d : Disk) (path : String) : Except Failure Manifest :=
  match d.readText path with
  | .error e => .error (.disk path e)
  | .ok text => Manifest.ofText text

end LogMarkers
