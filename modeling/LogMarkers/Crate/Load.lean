import LogMarkers.Crate.Sources
import LogMarkers.Disk.Basic
import LogMarkers.Text.PathText

/-!
# The sources of a crate on a disk

A crate starts with one file of its source root and goes on with the files its module declarations
lead to; no other file is read. A declaration names its file by a path attribute, or it is looked
for beside the declaring module.

* `declarations` are the modules that the items of a file declare elsewhere, with the places to look
  at in their order.
* `Loading` is what has been loaded and what is still to be visited; the declaration found last is
  visited first (`Loading.step`).
* Files that name each other by path attributes give ever longer module paths, so loading is bounded
  by a number of steps (`SourceSet.load?`). The number says nothing about what is loaded: there is
  one answer (`SourceSet.load?_unique`).
-/

namespace LogMarkers

open DiskPath

/-! ## 1. Declarations -/

/-- A module that is declared in one file and stands in another. -/
structure ModuleDeclaration where
  /-- The path of the module within the declaring one. -/
  module : String
  /-- The files that can hold it; the first that is there does. -/
  candidates : List String
  /-- Whether its file is named by a path attribute. -/
  explicit : Bool
  deriving DecidableEq, Repr

/-- The declaration as seen from outside an inline module. -/
def ModuleDeclaration.under (name : String) (d : ModuleDeclaration) : ModuleDeclaration :=
  { d with module := PathText.within name d.module }

/-- The text of a path attribute. -/
def Attribute.filePath? : Attribute → Option String
  | assigned path value => if path.isWord "path" then value else none
  | _ => none

/-- The declaration of a module that is looked for in a directory. -/
def ModuleDeclaration.lookedFor (dir name : String) : ModuleDeclaration where
  module := name
  candidates := [join dir (name ++ ".rs"), join (join dir name) "mod.rs"]
  explicit := false

/-- The declaration of a module whose file is named. -/
def ModuleDeclaration.named (file name : String) : ModuleDeclaration where
  module := name
  candidates := [file]
  explicit := true

/-- Where the modules that a file declares are looked for. -/
structure Surroundings where
  /-- The directory of the submodules. -/
  dir : String
  /-- The directory that path attributes start from; within inline modules there is none, and path
      attributes say nothing. -/
  fileDir : Option String

/-- The surroundings of the items of an inline module. -/
def Surroundings.inside (s : Surroundings) (name : String) : Surroundings := ⟨join s.dir name, none⟩

/-- The declaration of a module with these attributes. -/
def Surroundings.declaration (s : Surroundings) (name : String) (attributes : List Attribute) :
    ModuleDeclaration :=
  match s.fileDir, attributes.findSome? (·.filePath?) with
  | some dir, some path => .named (join dir path) name
  | _, _ => .lookedFor s.dir name

mutual

/-- The modules that an item declares elsewhere. -/
def Item.declarations (s : Surroundings) : Item → List ModuleDeclaration
  | .inlineModule name _ contained =>
    (declarations (s.inside name.text) contained).map (·.under name.text)
  | .fileModule name attributes => [s.declaration name.text attributes]
  | _ => []

/-- The modules that items declare elsewhere, in order. -/
def declarations (s : Surroundings) : List Item → List ModuleDeclaration
  | [] => []
  | i :: rest => i.declarations s ++ declarations s rest

end

/-! ## 2. Visits -/

/-- A file to be loaded. -/
structure Visit where
  module : String
  file : String
  /-- The directory of its submodules. -/
  dir : String
  deriving DecidableEq, Repr

/-- The directory of the submodules of a file. A file that is named, and one called `mod`, has them
    beside itself. -/
def submoduleDir (file : String) (explicit : Bool) : String :=
  let dir := (parent? file).getD ""
  match fileStem? file with
  | some stem => if explicit || stem == "mod" then dir else join dir stem
  | none => dir

/-- The visit a declaration leads to, if one of its files is there. -/
def ModuleDeclaration.visit? (d : ModuleDeclaration) (disk : Disk) (module : String) :
    Option Visit :=
  (d.candidates.find? disk.isFile).map fun file =>
    ⟨PathText.within module d.module, file, submoduleDir file d.explicit⟩

/-- Where the modules declared in a visited file are looked for. -/
def Visit.surroundings (v : Visit) : Surroundings := ⟨v.dir, some ((parent? v.file).getD "")⟩

/-- The visits a file leads to, in the order of its declarations. -/
def Visit.next (v : Visit) (disk : Disk) (items : List Item) : List Visit :=
  (declarations v.surroundings items).filterMap (·.visit? disk v.module)

/-- The text of the file. -/
def Visit.source (v : Visit) (disk : Disk) : Except Failure SourceFile :=
  match disk.readText v.file with
  | .ok text => .ok ⟨v.file, text⟩
  | .error e => .error (.disk v.file e)

/-! ## 3. Loading -/

/-- The sources loaded so far and the files still to be visited, the next one first. -/
structure Loading where
  sources : SourceSet := .empty
  pending : List Visit

/-- Make the next visit. A module that is loaded already is passed over. -/
def Loading.step (disk : Disk) (l : Loading) : Except Failure Loading :=
  match l.pending with
  | [] => .ok l
  | v :: rest =>
    if l.sources.contains v.module then .ok ⟨l.sources, rest⟩
    else do
      let source ← v.source disk
      let parsed ← source.parse v.module
      return ⟨l.sources.insert v.module source, (v.next disk parsed.items).reverse ++ rest⟩

/-- Make visits until none is left; `none` if that takes more than `steps` of them. -/
def Loading.run? (disk : Disk) : (steps : Nat) → Loading → Option (Except Failure SourceSet)
  | 0, l => if l.pending = [] then some (.ok l.sources) else none
  | steps + 1, l =>
    if l.pending = [] then some (.ok l.sources)
    else
      match l.step disk with
      | .ok l => l.run? disk steps
      | .error e => some (.error e)

/-- The files a crate can start with. -/
def entryFiles (root : String) : List String := [join root "lib.rs", join root "main.rs"]

/-- The first visit of a crate, if it has a file to start with. -/
def firstVisit? (disk : Disk) (root : String) : Option Visit :=
  ((entryFiles root).find? disk.isFile).map fun file => ⟨"", file, root⟩

/-- The sources of the crate with this root; `none` if it takes more than `steps` visits. -/
def SourceSet.load? (disk : Disk) (root : String) (steps : Nat) :
    Option (Except Failure SourceSet) :=
  match firstVisit? disk root with
  | some visit => Loading.run? disk steps { pending := [visit] }
  | none => some (.error (.disk root .noEntryFile))

/-! ## 4. More steps -/

/-- Loading that ends gives the same with more steps. -/
theorem Loading.run?_mono {disk : Disk} {m n : Nat} {l : Loading} {r : Except Failure SourceSet}
    (h : l.run? disk m = some r) (hmn : m ≤ n) : l.run? disk n = some r := by
  induction m generalizing n l with
  | zero =>
    have hp : l.pending = [] := by
      by_cases hp : l.pending = []
      · exact hp
      · simp [run?, hp] at h
    cases n <;> simpa [run?, hp] using h
  | succ m ih =>
    obtain ⟨n, rfl⟩ : ∃ k, n = k + 1 := ⟨n - 1, by omega⟩
    rw [run?] at h ⊢
    split
    · rename_i hp
      simpa [hp] using h
    · rename_i hp
      rw [if_neg hp] at h
      cases hs : l.step disk with
      | error e => simpa [hs] using h
      | ok l' =>
        rw [hs] at h
        exact ih h (by omega)

theorem SourceSet.load?_mono {disk : Disk} {root : String} {m n : Nat}
    {r : Except Failure SourceSet} (h : load? disk root m = some r) (hmn : m ≤ n) :
    load? disk root n = some r := by
  unfold load? at h ⊢
  split
  · rename_i visit hfirst
    rw [hfirst] at h
    exact Loading.run?_mono h hmn
  · rename_i hfirst
    rw [hfirst] at h
    exact h

/-- **Loading has one answer**, whatever number of steps it is given. -/
theorem SourceSet.load?_unique {disk : Disk} {root : String} {m n : Nat}
    {r r' : Except Failure SourceSet} (h : load? disk root m = some r)
    (h' : load? disk root n = some r') : r = r' := by
  rcases Nat.le_total m n with hmn | hnm
  · exact Option.some.inj ((load?_mono h hmn).symm.trans h')
  · exact Option.some.inj (h.symm.trans (load?_mono h' hnm))

end LogMarkers
