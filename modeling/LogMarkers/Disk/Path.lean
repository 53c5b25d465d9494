/-!
# Paths on a disk

A path is a text whose pieces are separated by slashes. Empty pieces and dots say nothing, except
for a leading slash (the root) and a leading dot; two dots go up. This file fixes

* the components of a path (`components`) and the steps that looking it up takes (`steps`), which
  count every dot,
* putting a path after another (`join`), which never simplifies,
* the path without its last component (`parent?`), which keeps the spelling of what is left,
* the last name of a path (`fileName?`) and that name without its extension (`fileStem`).
-/

namespace LogMarkers.DiskPath

/-- The pieces between slashes. -/
def pieceChars : List Char → List (List Char)
  | [] => [[]]
  | c :: rest =>
    if c = '/' then [] :: pieceChars rest
    else
      match pieceChars rest with
      | [] => [[c]]
      | piece :: pieces => (c :: piece) :: pieces

/-- The pieces of a path. -/
def pieces (path : String) : List String := (pieceChars path.toList).map String.ofList

/-- Pieces with a slash between each two. -/
def ofPieces : List String → String
  | [] => ""
  | [piece] => piece
  | piece :: rest => piece ++ "/" ++ ofPieces rest

/-- One step of a path. -/
inductive Component where
  /-- The root of all disks. -/
  | root
  /-- A leading dot. -/
  | here
  /-- One directory up. -/
  | up
  | name (text : String)
  deriving DecidableEq, Repr

/-- The component a piece that is not the first one stands for. -/
def component? (piece : String) : Option Component :=
  if piece = "" ∨ piece = "." then none
  else if piece = ".." then some .up
  else some (.name piece)

/-- The components of a path. -/
def components (path : String) : List Component :=
  match pieces path with
  | [] => []
  | first :: rest =>
    let body := rest.filterMap component?
    if first = "" then (if rest = [] then [] else .root :: body)
    else if first = "." then .here :: body
    else (first :: rest).filterMap component?

/-- Whether a path starts at the root. -/
def isAbsolute (path : String) : Bool :=
  match path.toList with
  | c :: _ => c == '/'
  | [] => false

/-- The step a piece asks for. -/
def step? (piece : String) : Option Component :=
  if piece = "." then some .here else component? piece

/-- The steps of looking a path up. -/
def steps (path : String) : List Component :=
  (if isAbsolute path then [.root] else []) ++ (pieces path).filterMap step?

/-- A path after another; one that starts at the root stands alone. -/
def join (base path : String) : String :=
  if isAbsolute path then path
  else if base = "" ∨ base.toList.getLast? = some '/' then base ++ path
  else base ++ "/" ++ path

/-- Whether a piece that is not the first one says nothing. -/
def isIdle (piece : String) : Bool := piece == "" || piece == "."

/-- The path without its last component; the empty path and the root have none. -/
def parent? (path : String) : Option String :=
  match pieces path with
  | [] => none
  | first :: rest =>
    match rest.reverse.dropWhile isIdle with
    | [] => if first = "" then none else some ""
    | _ :: before =>
      let kept := first :: (before.dropWhile isIdle).reverse
      some (if kept = [""] then "/" else ofPieces kept)

/-- The last component, if it is a name. -/
def fileName? (path : String) : Option String :=
  match (components path).getLast? with
  | some (.name text) => some text
  | _ => none

/-- Whether a text is a bare file name: the whole path is its last name. -/
def isBareName (text : String) : Bool := fileName? text == some text

/-- What stands before the last dot, if there is a dot. -/
def beforeLastDot? : List Char → Option (List Char)
  | [] => none
  | c :: rest =>
    match beforeLastDot? rest with
    | some before => some (c :: before)
    | none => if c = '.' then some [] else none

/-- A file name without its extension; a dot at the front starts none. -/
def stem (name : String) : String :=
  match beforeLastDot? name.toList with
  | some (c :: before) => String.ofList (c :: before)
  | _ => name

/-- The last name of a path without its extension. -/
def fileStem? (path : String) : Option String := (fileName? path).map stem

/-- Whether a path can only be a directory: it ends in a slash, a dot or two dots. -/
def namesDirectory (path : String) : Bool :=
  match (pieces path).getLast? with
  | some last => isIdle last || last == ".."
  | none => true

end LogMarkers.DiskPath
