import LogMarkers.Disk.Path
import LogMarkers.Failure
import LogMarkers.Table

/-!
# Disks

A disk holds files and directories, each under the names that lead to it from the root. The root is
the working directory too, so a leading slash makes no difference. There are no links, and nothing
above the root: going up from it fails (`Disk.enter`). An operation takes a path as it is written,
finds the place it leads to (`Disk.locate`) and fails the way a system call does:

* a directory on the way that is missing, or that is a file, fails first;
* then what stands at the place decides.
-/

namespace LogMarkers

open DiskPath

/-- What stands at a place. -/
inductive DiskEntry where
  | file (content : ByteArray)
  | directory

/-- Files are told apart by their bytes. -/
instance : DecidableEq DiskEntry
  | .file a, .file b =>
    decidable_of_iff (a.data = b.data) ⟨fun h => congrArg _ (ByteArray.ext h), fun h => by cases h; rfl⟩
  | .directory, .directory => .isTrue rfl
  | .file _, .directory => .isFalse nofun
  | .directory, .file _ => .isFalse nofun

/-- The names that lead from the root to a place. -/
abbrev DiskPlace := List String

/-- Files and directories by their places. -/
structure Disk where
  entries : Table DiskPlace DiskEntry := .empty
  deriving DecidableEq

namespace Disk

/-! ## 1. Places -/

/-- What stands at a place; the root is a directory. -/
def get? (d : Disk) (place : DiskPlace) : Option DiskEntry :=
  if place = [] then some .directory else d.entries.get? place

/-- The disk with an entry at a place. -/
def put (d : Disk) (place : DiskPlace) (entry : DiskEntry) : Disk :=
  ⟨d.entries.insert place entry⟩

/-- The disk without what stands at a place. -/
def erase (d : Disk) (place : DiskPlace) : Disk := ⟨d.entries.erase place⟩

/-- The directory that one step leads to. Nothing is above the root, so a step up fails there, in a
    path with a leading slash too; a system whose root is its own parent would stay. -/
def enter (d : Disk) (place : DiskPlace) : Component → Except DiskError DiskPlace
  | .root => .ok []
  | .here => .ok place
  | .up => if place = [] then .error .notFound else .ok place.dropLast
  | .name text =>
    match d.get? (place ++ [text]) with
    | some .directory => .ok (place ++ [text])
    | some (.file _) => .error .notADirectory
    | none => .error .notFound

/-- The directory that several steps lead to. -/
def walk (d : Disk) (steps : List Component) : Except DiskError DiskPlace :=
  steps.foldlM d.enter []

/-- The place a path leads to; everything before its last name has to be a directory. -/
def locate (d : Disk) (path : String) : Except DiskError DiskPlace :=
  if path = "" then .error .notFound
  else
    match (steps path).getLast? with
    | some (.name text) => (d.walk (steps path).dropLast).map (· ++ [text])
    | _ => d.walk (steps path)

/-! ## 2. Questions -/

/-- What a path leads to, if it is there. -/
def find? (d : Disk) (path : String) : Option DiskEntry :=
  match d.locate path with
  | .error _ => none
  | .ok place =>
    match d.get? place with
    | some (.file content) => if namesDirectory path then none else some (.file content)
    | entry => entry

/-- Whether a path leads to a file. -/
def isFile (d : Disk) (path : String) : Bool :=
  match d.find? path with
  | some (.file _) => true
  | _ => false

/-- Whether a path leads to a directory. -/
def isDirectory (d : Disk) (path : String) : Bool := d.find? path == some .directory

/-- The content of a file. -/
def read (d : Disk) (path : String) : Except DiskError ByteArray := do
  match d.get? (← d.locate path) with
  | none => throw .notFound
  | some .directory => throw .isADirectory
  | some (.file content) => if namesDirectory path then throw .notADirectory else return content

/-- The text of a file. -/
def readText (d : Disk) (path : String) : Except DiskError String := do
  match String.fromUTF8? (← d.read path) with
  | some text => return text
  | none => throw .invalidText

/-! ## 3. Changes -/

/-- Write a file, which is created where it is missing. -/
def write (d : Disk) (path : String) (content : ByteArray) : Except DiskError Disk := do
  let place ← d.locate path
  if namesDirectory path || d.get? place == some .directory then throw .isADirectory
  else return d.put place (.file content)

/-- Write a text to a file. -/
def writeText (d : Disk) (path text : String) : Except DiskError Disk := d.write path text.toUTF8

/-- Remove a file. -/
def removeFile (d : Disk) (path : String) : Except DiskError Disk := do
  let place ← d.locate path
  match d.get? place with
  | none => throw .notFound
  | some .directory => throw .isADirectory
  | some (.file _) => if namesDirectory path then throw .notADirectory else return d.erase place

/-- Create a directory in one that is there. -/
def makeDirectory (d : Disk) (path : String) : Except DiskError Disk := do
  let place ← d.locate path
  match d.get? place with
  | some _ => throw .alreadyExists
  | none => return d.put place .directory

/-- Create a directory and those it stands in; one that is there is fine. `n` bounds the number of
    components, and what was created before a failure stays. -/
def makeDirectoriesWithin : (n : Nat) → Disk → (path : String) → Except DiskError Unit × Disk
  | 0, d, _ => (.error .notFound, d)
  | n + 1, d, path =>
    if path = "" then (.ok (), d)
    else
      match d.makeDirectory path with
      | .ok d => (.ok (), d)
      | .error .notFound =>
        match parent? path with
        | none => (.error (.other "failed to create whole tree"), d)
        | some parent =>
          match makeDirectoriesWithin n d parent with
          | (.error e, d) => (.error e, d)
          | (.ok (), d) =>
            match d.makeDirectory path with
            | .ok d => (.ok (), d)
            | .error e => if d.isDirectory path then (.ok (), d) else (.error e, d)
      | .error e => if d.isDirectory path then (.ok (), d) else (.error e, d)

/-- Create a directory and those it stands in. -/
def makeDirectories (d : Disk) (path : String) : Except DiskError Unit × Disk :=
  makeDirectoriesWithin (path.length + 1) d path

/-- Remove a place with everything below it. -/
def removeTree (d : Disk) (place : DiskPlace) : Disk :=
  ⟨d.entries.filterKeys fun other => !place.isPrefixOf other⟩

/-! ## 4. What a change leaves -/

@[simp] theorem get?_empty (place : DiskPlace) :
    ({} : Disk).get? place = if place = [] then some .directory else none := rfl

@[simp] theorem get?_put {d : Disk} {place : DiskPlace} {entry : DiskEntry} (h : place ≠ [])
    (other : DiskPlace) :
    (d.put place entry).get? other = if other = place then some entry else d.get? other := by
  unfold get? put
  by_cases ho : other = []
  · subst ho
    simp [Ne.symm h]
  · simp [ho]

@[simp] theorem get?_erase {d : Disk} {place : DiskPlace} (h : place ≠ []) (other : DiskPlace) :
    (d.erase place).get? other = if other = place then none else d.get? other := by
  unfold get? erase
  by_cases ho : other = []
  · subst ho
    simp [Ne.symm h]
  · simp [ho]

/-- The text that was written is read back. -/
theorem fromUTF8?_toUTF8 (text : String) : String.fromUTF8? text.toUTF8 = some text := by
  have h : text.toUTF8.IsValidUTF8 := text.isValidUTF8
  unfold String.fromUTF8?
  rw [dif_pos h]
  rfl

end Disk

end LogMarkers
