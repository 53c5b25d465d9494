import LogMarkers.Digest.Blake3
import LogMarkers.Text.PathText

/-!
# Artifacts

An artifact is one generated source text with the file name it is stored under. The name of an
extension is made from its owner (`artifactId`); the fingerprint covers name and text.
-/

namespace LogMarkers

/-- What an artifact holds. -/
inductive ArtifactKind where
  /-- The definitions of the registered markers. -/
  | markerDeclarations
  /-- The extension of one owner. -/
  | extension
  deriving DecidableEq, Repr

/-- The kind as a label in data. -/
def ArtifactKind.label : ArtifactKind → String
  | markerDeclarations => "MarkerDeclarations"
  | extension => "Extension"

/-- The kind with this label. -/
def ArtifactKind.ofLabel? (text : String) : Option ArtifactKind :=
  [markerDeclarations, extension].find? (·.label == text)

theorem ArtifactKind.ofLabel?_label (k : ArtifactKind) : ofLabel? k.label = some k := by
  cases k <;> decide

/-- One generated source text. -/
structure Artifact where
  id : String
  kind : ArtifactKind
  /-- The module path of the owner; empty for the root and for marker declarations. -/
  ownerNamespace : String
  /-- The owner's name; empty for marker declarations. -/
  ownerName : String
  text : String
  deriving DecidableEq, Repr

/-- The file name of an owner's extension: module names and owner joined by dots, then the
    suffix. -/
def artifactId (space owner suffix : String) : String :=
  if space = "" then owner ++ suffix else PathText.dotted space ++ "." ++ owner ++ suffix

/-- The owner with its module path. -/
def qualifiedOwner (space owner : String) : String := PathText.within space owner

namespace Artifact

/-- The extension of an owner. -/
def ofOwner (space owner suffix text : String) : Artifact :=
  ⟨artifactId space owner suffix, .extension, space, owner, text⟩

/-- The definitions of the markers. -/
def ofMarkers (id text : String) : Artifact := ⟨id, .markerDeclarations, "", "", text⟩

/-- The digest of name and text, a zero byte between them. -/
def fingerprint (a : Artifact) : String :=
  Blake3.hexDigest (a.id.toUTF8.data.toList ++ [0] ++ a.text.toUTF8.data.toList)

end Artifact

end LogMarkers
