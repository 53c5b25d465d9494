import LogMarkers.Disk.Basic

/-!
# Files of one directory

A bare file name put behind the path of a directory leads to the place with that name in the
directory, however the path is spelled. Reading, writing and removing such a file therefore come
down to what stands at that place.

* `isBareName_iff`: which texts are bare file names;
* `Disk.OpensAt`: the place of the directory that a path leads to, which stays the same as long as
  directories stay (`OpensAt.mono`);
* `readText_inside`, `writeText_inside`, `removeFile_inside`: the operations on a file of the
  directory;
* `Disk.EditedIn`: all that operations on some files of a directory can do to a disk;
* `exists_place_of_writeText`, `readText_of_writeText`: what writing does, wherever the path leads.
-/

namespace LogMarkers

open DiskPath

/-! ## 1. Pieces of paths -/

namespace DiskPath

theorem pieceChars_ne_nil (cs : List Char) : pieceChars cs ≠ [] := by
  cases cs with
  | nil => simp [pieceChars]
  | cons c rest =>
    rw [pieceChars]
    split
    · simp
    · split <;> simp

/-- A text without a slash is one piece. -/
theorem pieceChars_of_notMem {cs : List Char} (h : '/' ∉ cs) : pieceChars cs = [cs] := by
  induction cs with
  | nil => rfl
  | cons c rest ih =>
    rw [List.mem_cons, not_or] at h
    rw [pieceChars, if_neg (Ne.symm h.1), ih h.2]

/-- A slash separates the pieces before it from those after it. -/
theorem pieceChars_append (cs rest : List Char) :
    pieceChars (cs ++ '/' :: rest) = pieceChars cs ++ pieceChars rest := by
  induction cs with
  | nil => simp [pieceChars]
  | cons c tail ih =>
    rw [List.cons_append, pieceChars, pieceChars, ih]
    split
    · rfl
    · cases h : pieceChars tail with
      | nil => exact absurd h (pieceChars_ne_nil tail)
      | cons piece pieces => rfl

/-- No piece has a slash. -/
theorem notMem_of_mem_pieceChars {cs piece : List Char} (h : piece ∈ pieceChars cs) :
    '/' ∉ piece := by
  induction cs generalizing piece with
  | nil =>
    rw [List.mem_singleton.mp h]
    simp
  | cons c rest ih =>
    rw [pieceChars] at h
    split at h
    · rcases List.mem_cons.mp h with rfl | h
      · simp
      · exact ih h
    · rename_i hc
      split at h
      · rw [List.mem_singleton.mp h]
        simpa using Ne.symm hc
      · rename_i first others hrest
        rw [hrest] at ih
        rcases List.mem_cons.mp h with rfl | h
        · have hfirst := ih (List.mem_cons_self (a := first))
          simp [Ne.symm hc, hfirst]
        · exact ih (List.mem_cons_of_mem _ h)

theorem pieces_of_notMem {text : String} (h : '/' ∉ text.toList) : pieces text = [text] := by
  rw [pieces, pieceChars_of_notMem h]
  simp

theorem notMem_of_mem_pieces {path piece : String} (h : piece ∈ pieces path) :
    '/' ∉ piece.toList := by
  obtain ⟨cs, hcs, rfl⟩ := List.mem_map.mp h
  simpa using notMem_of_mem_pieceChars hcs

theorem pieces_ne_nil (path : String) : pieces path ≠ [] := by
  simp [pieces, pieceChars_ne_nil]

theorem pieces_slash (base path : String) :
    pieces (base ++ "/" ++ path) = pieces base ++ pieces path := by
  have hchars : (base ++ "/" ++ path).toList = base.toList ++ '/' :: path.toList := by simp
  rw [pieces, hchars, pieceChars_append, List.map_append]
  rfl

/-! ## 2. Bare file names -/

/-- The last component of a path is one of its pieces. -/
theorem mem_pieces_of_fileName? {path name : String} (h : fileName? path = some name) :
    name ∈ pieces path ∧ name ≠ "" ∧ name ≠ "." ∧ name ≠ ".." := by
  have hcomponent : ∀ {piece : String}, component? piece = some (.name name) →
      piece = name ∧ name ≠ "" ∧ name ≠ "." ∧ name ≠ ".." := by
    intro piece hp
    unfold component? at hp
    split at hp
    · cases hp
    · rename_i hidle
      split at hp
      · cases hp
      · rename_i hup
        cases hp
        rw [not_or] at hidle
        exact ⟨rfl, hidle.1, hidle.2, hup⟩
  have hlast : Component.name name ∈ components path := by
    unfold fileName? at h
    split at h
    · rename_i text hl
      cases h
      exact List.mem_of_getLast? hl
    · cases h
  unfold components at hlast
  cases hpieces : pieces path with
  | nil => simp [hpieces] at hlast
  | cons first rest =>
    rw [hpieces] at hlast
    have hbody : Component.name name ∈ rest.filterMap component? →
        name ∈ first :: rest ∧ name ≠ "" ∧ name ≠ "." ∧ name ≠ ".." := by
      intro hmem
      obtain ⟨piece, hpiece, hp⟩ := List.mem_filterMap.mp hmem
      obtain ⟨rfl, hname⟩ := hcomponent hp
      exact ⟨List.mem_cons_of_mem _ hpiece, hname⟩
    dsimp only at hlast
    split at hlast
    · split at hlast
      · simp at hlast
      · exact hbody (by simpa using hlast)
    · split at hlast
      · exact hbody (by simpa using hlast)
      · obtain ⟨piece, hpiece, hp⟩ := List.mem_filterMap.mp hlast
        obtain ⟨rfl, hname⟩ := hcomponent hp
        exact ⟨hpiece, hname⟩

/-- **A bare file name** has no slash and is none of the texts that name a directory. -/
theorem isBareName_iff {text : String} :
    isBareName text = true ↔
      '/' ∉ text.toList ∧ text ≠ "" ∧ text ≠ "." ∧ text ≠ ".." := by
  rw [isBareName, beq_iff_eq]
  constructor
  · intro h
    obtain ⟨hmem, hname⟩ := mem_pieces_of_fileName? h
    exact ⟨notMem_of_mem_pieces hmem, hname⟩
  · rintro ⟨hslash, hempty, hdot, hup⟩
    have hcomponents : components text = [.name text] := by
      rw [components, pieces_of_notMem hslash]
      simp [hempty, hdot, hup, component?]
    rw [fileName?, hcomponents]
    rfl

/-! ## 3. Paths behind a directory -/

theorem isAbsolute_append {base : String} (h : base ≠ "") (path : String) :
    isAbsolute (base ++ path) = isAbsolute base := by
  unfold isAbsolute
  rw [String.toList_append]
  cases hbase : base.toList with
  | nil => exact absurd (String.toList_eq_nil_iff.mp hbase) h
  | cons c rest => rfl

theorem isAbsolute_of_notMem {text : String} (h : '/' ∉ text.toList) : isAbsolute text = false := by
  unfold isAbsolute
  split
  · rename_i c rest htext
    rw [htext, List.mem_cons, not_or] at h
    simpa using Ne.symm h.1
  · rfl

theorem empty_join (path : String) : join "" path = path := by
  unfold join
  split
  · rfl
  · simp

/-- The pieces of a relative path behind a directory: its own, behind those of the directory, whose
    last one is left out if it is empty. -/
theorem pieces_join {path : String} (h : isAbsolute path = false) {dir : String} (hdir : dir ≠ "") :
    ∃ before, before ≠ [] ∧ pieces (join dir path) = before ++ pieces path ∧
      (pieces dir = before ∨ pieces dir = before ++ [""]) := by
  rw [join, h, if_neg Bool.false_ne_true]
  split
  · rename_i hends
    obtain ⟨front, hfront⟩ := List.getLast?_eq_some_iff.mp (hends.resolve_left hdir)
    have hsplit : dir = String.ofList front ++ "/" := by
      rw [← String.toList_inj, hfront]
      simp
    have hempty : pieces dir = pieces (String.ofList front) ++ [""] := by
      have := pieces_slash (String.ofList front) ""
      rwa [String.append_empty, ← hsplit] at this
    exact ⟨pieces (String.ofList front), pieces_ne_nil _, by rw [hsplit, pieces_slash],
      .inr hempty⟩
  · exact ⟨pieces dir, pieces_ne_nil dir, pieces_slash dir path, .inl rfl⟩

/-- Looking up a relative path behind a directory goes to the directory, then on. -/
theorem steps_join {path : String} (h : isAbsolute path = false) (dir : String) :
    steps (join dir path) = steps dir ++ steps path := by
  by_cases hdir : dir = ""
  · subst hdir
    rw [empty_join]
    rfl
  have habsolute : isAbsolute (join dir path) = isAbsolute dir := by
    rw [join, h, if_neg Bool.false_ne_true]
    split
    · exact isAbsolute_append hdir _
    · rw [String.append_assoc]
      exact isAbsolute_append hdir _
  obtain ⟨before, -, hpieces, hbefore⟩ := pieces_join h hdir
  have hsteps : (pieces dir).filterMap step? = before.filterMap step? := by
    rcases hbefore with e | e
    · rw [e]
    · simp [e, List.filterMap_append, step?, component?]
  simp only [steps, habsolute, hpieces, h, List.filterMap_append, hsteps]
  simp

/-- A relative path behind a directory can only be a directory if the path can. -/
theorem namesDirectory_join {path : String} (h : isAbsolute path = false) (dir : String) :
    namesDirectory (join dir path) = namesDirectory path := by
  by_cases hdir : dir = ""
  · rw [hdir, empty_join]
  · obtain ⟨before, -, hpieces, -⟩ := pieces_join h hdir
    have hlast : (before ++ pieces path).getLast? = (pieces path).getLast? := by
      rw [List.getLast?_append, List.getLast?_eq_some_getLast (pieces_ne_nil path), Option.some_or]
    rw [namesDirectory, hpieces, hlast]
    rfl

theorem isAbsolute_of_isBareName {name : String} (h : isBareName name = true) :
    isAbsolute name = false := isAbsolute_of_notMem (isBareName_iff.mp h).1

/-- Looking up a bare name behind a path goes to the directory, then to the name. -/
theorem steps_join_name {name : String} (hname : isBareName name = true) (dir : String) :
    steps (join dir name) = steps dir ++ [.name name] := by
  have habsolute := isAbsolute_of_isBareName hname
  obtain ⟨hslash, hempty, hdot, hup⟩ := isBareName_iff.mp hname
  have hname' : steps name = [.name name] := by
    simp [steps, habsolute, pieces_of_notMem hslash, step?, component?, hempty, hdot, hup]
  rw [steps_join habsolute, hname']

theorem namesDirectory_join_name {name : String} (hname : isBareName name = true) (dir : String) :
    namesDirectory (join dir name) = false := by
  obtain ⟨hslash, hempty, hdot, hup⟩ := isBareName_iff.mp hname
  rw [namesDirectory_join (isAbsolute_of_isBareName hname), namesDirectory,
    pieces_of_notMem hslash]
  simp [isIdle, hempty, hdot, hup]

end DiskPath

/-! ## 4. Directories that stay -/

namespace Disk

/-- The path leads to the directory at this place. -/
def OpensAt (d : Disk) (dir : String) (place : DiskPlace) : Prop := d.walk (steps dir) = .ok place

theorem walk_append (d : Disk) (before after : List Component) :
    d.walk (before ++ after) = (d.walk before).bind fun place => after.foldlM d.enter place := by
  unfold walk
  rw [List.foldlM_append]
  rfl

theorem enter_mono {d d' : Disk}
    (hkept : ∀ p, d.get? p = some .directory → d'.get? p = some .directory)
    {place place' : DiskPlace} {c : Component} (h : d.enter place c = .ok place') :
    d'.enter place c = .ok place' := by
  cases c with
  | root => exact h
  | here => exact h
  | up => exact h
  | name text =>
    rw [enter] at h ⊢
    split at h
    · rename_i hget
      rw [hkept _ hget]
      exact h
    · cases h
    · cases h

theorem walk_mono {d d' : Disk}
    (hkept : ∀ p, d.get? p = some .directory → d'.get? p = some .directory)
    {steps : List Component} {place place' : DiskPlace}
    (h : steps.foldlM d.enter place = .ok place') : steps.foldlM d'.enter place = .ok place' := by
  induction steps generalizing place with
  | nil => exact h
  | cons c rest ih =>
    rw [List.foldlM_cons] at h ⊢
    cases henter : d.enter place c with
    | error e =>
      rw [henter] at h
      cases h
    | ok next =>
      rw [henter] at h
      rw [enter_mono hkept henter]
      exact ih h

/-- A path leads to the same directory as long as directories stay. -/
theorem OpensAt.mono {d d' : Disk} {dir : String} {place : DiskPlace} (h : d.OpensAt dir place)
    (hkept : ∀ p, d.get? p = some .directory → d'.get? p = some .directory) :
    d'.OpensAt dir place := walk_mono hkept h

theorem OpensAt.unique {d : Disk} {dir : String} {place place' : DiskPlace}
    (h : d.OpensAt dir place) (h' : d.OpensAt dir place') : place = place' := by
  unfold OpensAt at h h'
  rw [h] at h'
  cases h'
  rfl

/-! ## 5. Operations on the files of a directory -/

section Inside

variable {d : Disk} {dir name : String} {place : DiskPlace}

theorem locate_join (d : Disk) (dir : String) (hname : isBareName name = true) :
    d.locate (join dir name) = (d.walk (steps dir)).map (· ++ [name]) := by
  have hsteps := steps_join_name hname dir
  have hne : join dir name ≠ "" := by
    intro e
    rw [e] at hsteps
    exact absurd (congrArg List.length hsteps)
      (by simp [steps, pieces, pieceChars, step?, component?, isAbsolute])
  rw [locate, if_neg hne, hsteps, List.getLast?_concat, List.dropLast_concat]

theorem locate_inside (h : d.OpensAt dir place) (hname : isBareName name = true) :
    d.locate (join dir name) = .ok (place ++ [name]) := by
  unfold OpensAt at h
  rw [locate_join d dir hname, h]
  rfl

/-- **Reading a file of the directory.** -/
theorem readText_inside (h : d.OpensAt dir place) (hname : isBareName name = true) :
    d.readText (join dir name) =
      match d.get? (place ++ [name]) with
      | none => .error .notFound
      | some .directory => .error .isADirectory
      | some (.file content) =>
        match String.fromUTF8? content with
        | some text => .ok text
        | none => .error .invalidText := by
  rw [readText, read, locate_inside h hname]
  simp only [bind, Except.bind, pure, Except.pure]
  cases d.get? (place ++ [name]) with
  | none => rfl
  | some entry =>
    cases entry with
    | directory => rfl
    | file content => simp [namesDirectory_join_name hname]; rfl

/-- A file that can be read stands in a directory that is there. -/
theorem exists_opensAt_of_readText {text : String} (hname : isBareName name = true)
    (h : d.readText (join dir name) = .ok text) : ∃ place, d.OpensAt dir place := by
  cases hwalk : d.walk (steps dir) with
  | ok place => exact ⟨place, hwalk⟩
  | error e =>
    rw [readText, read, locate_join d dir hname, hwalk] at h
    cases h

/-- **Writing a file of the directory.** -/
theorem writeText_inside (h : d.OpensAt dir place) (hname : isBareName name = true)
    (text : String) :
    d.writeText (join dir name) text =
      if d.get? (place ++ [name]) = some .directory then .error .isADirectory
      else .ok (d.put (place ++ [name]) (.file text.toUTF8)) := by
  rw [writeText, write, locate_inside h hname]
  simp only [bind, Except.bind, namesDirectory_join_name hname, Bool.false_or, beq_iff_eq]
  split <;> rfl

/-- **Removing a file of the directory.** -/
theorem removeFile_inside (h : d.OpensAt dir place) (hname : isBareName name = true) :
    d.removeFile (join dir name) =
      match d.get? (place ++ [name]) with
      | none => .error .notFound
      | some .directory => .error .isADirectory
      | some (.file _) => .ok (d.erase (place ++ [name])) := by
  rw [removeFile, locate_inside h hname]
  simp only [bind, Except.bind]
  cases d.get? (place ++ [name]) with
  | none => rfl
  | some entry =>
    cases entry with
    | directory => rfl
    | file content => simp [namesDirectory_join_name hname]; rfl

end Inside

/-! ## 6. What editing files of a directory does -/

/-- A disk after files with these names, in the directory at a place, were written or removed:
    directories are the same, and so is everything elsewhere. -/
structure EditedIn (place : DiskPlace) (names : List String) (d d' : Disk) : Prop where
  directories : ∀ p, d'.get? p = some .directory ↔ d.get? p = some .directory
  elsewhere : ∀ p, (∀ n ∈ names, p ≠ place ++ [n]) → d'.get? p = d.get? p

namespace EditedIn

variable {place : DiskPlace} {names names' : List String} {d d' d'' : Disk}

theorem refl (place : DiskPlace) (names : List String) (d : Disk) : EditedIn place names d d :=
  ⟨fun _ => Iff.rfl, fun _ _ => rfl⟩

theorem trans (h : EditedIn place names d d') (h' : EditedIn place names d' d'') :
    EditedIn place names d d'' :=
  ⟨fun p => (h'.directories p).trans (h.directories p),
    fun p hp => (h'.elsewhere p hp).trans (h.elsewhere p hp)⟩

theorem mono (h : EditedIn place names d d') (hsub : names ⊆ names') :
    EditedIn place names' d d' :=
  ⟨h.directories, fun p hp => h.elsewhere p fun n hn => hp n (hsub hn)⟩

theorem put {name : String} (hname : name ∈ names) (content : ByteArray)
    (h : d.get? (place ++ [name]) ≠ some .directory) :
    EditedIn place names d (d.put (place ++ [name]) (.file content)) where
  directories p := by
    rw [get?_put (by simp)]
    split
    · rename_i hp
      subst hp
      simp [h]
    · rfl
  elsewhere p hp := by simp [hp name hname]

theorem erase {name : String} (hname : name ∈ names)
    (h : d.get? (place ++ [name]) ≠ some .directory) :
    EditedIn place names d (d.erase (place ++ [name])) where
  directories p := by
    rw [get?_erase (by simp)]
    split
    · rename_i hp
      subst hp
      simp [h]
    · rfl
  elsewhere p hp := by simp [hp name hname]

/-- A name that is not among the edited ones. -/
theorem get?_of_notMem (h : EditedIn place names d d') {name : String} (hname : name ∉ names) :
    d'.get? (place ++ [name]) = d.get? (place ++ [name]) := by
  refine h.elsewhere _ fun n hn e => hname ?_
  rw [List.append_cancel_left_eq, List.singleton_inj] at e
  exact e ▸ hn

theorem opensAt (h : EditedIn place names d d') {dir : String} {at_ : DiskPlace}
    (hopen : d.OpensAt dir at_) : d'.OpensAt dir at_ :=
  hopen.mono fun p hp => (h.directories p).mpr hp

end EditedIn

/-! ## 7. Creating directories -/

/-- A disk to which directories were added where nothing was. -/
def GrowsTo (d d' : Disk) : Prop :=
  ∀ p, d'.get? p = d.get? p ∨ d.get? p = none ∧ d'.get? p = some .directory

namespace GrowsTo

variable {d d' d'' : Disk}

theorem refl (d : Disk) : GrowsTo d d := fun _ => .inl rfl

theorem trans (h : GrowsTo d d') (h' : GrowsTo d' d'') : GrowsTo d d'' := by
  intro p
  rcases h' p with e' | ⟨hnone', hdir'⟩
  · rw [e']
    exact h p
  · rcases h p with e | ⟨hnone, hdir⟩
    · exact .inr ⟨e ▸ hnone', hdir'⟩
    · rw [hdir] at hnone'
      cases hnone'

theorem directory (h : GrowsTo d d') {p : DiskPlace} (hp : d.get? p = some .directory) :
    d'.get? p = some .directory := by
  rcases h p with e | ⟨hnone, -⟩
  · rw [e, hp]
  · rw [hp] at hnone
    cases hnone

/-- Files are the same as before. -/
theorem file_iff (h : GrowsTo d d') {p : DiskPlace} {content : ByteArray} :
    d'.get? p = some (.file content) ↔ d.get? p = some (.file content) := by
  rcases h p with e | ⟨hnone, hdir⟩
  · rw [e]
  · simp [hnone, hdir]

end GrowsTo

/-- Every directory on the way to a place that a path leads to is there. -/
theorem directory_of_walk {d : Disk} {steps : List Component} {start place : DiskPlace}
    (h : steps.foldlM d.enter start = .ok place)
    (hstart : ∀ p, p <+: start → d.get? p = some .directory) :
    ∀ p, p <+: place → d.get? p = some .directory := by
  induction steps generalizing start with
  | nil =>
    cases h
    exact hstart
  | cons c rest ih =>
    rw [List.foldlM_cons] at h
    cases henter : d.enter start c with
    | error e =>
      rw [henter] at h
      cases h
    | ok next =>
      rw [henter] at h
      refine ih h ?_
      cases c with
      | root =>
        cases henter
        intro p hp
        rw [List.prefix_nil.mp hp]
        rfl
      | here =>
        cases henter
        exact hstart
      | up =>
        rw [enter] at henter
        split at henter
        · cases henter
        · cases henter
          exact fun p hp => hstart p (hp.trans (List.dropLast_prefix _))
      | name text =>
        rw [enter] at henter
        split at henter
        · rename_i hget
          cases henter
          intro p hp
          rcases List.prefix_concat_iff.mp hp with rfl | hp
          · exact hget
          · exact hstart p hp
        · cases henter
        · cases henter

/-- A path leads to a directory if that is what stands at the place it leads to. -/
theorem opensAt_iff {d : Disk} {path : String} (hne : path ≠ "") {place : DiskPlace} :
    d.OpensAt path place ↔ d.locate path = .ok place ∧ d.get? place = some .directory := by
  have hroot : ∀ p, p <+: ([] : DiskPlace) → d.get? p = some .directory := by
    intro p hp
    rw [List.prefix_nil.mp hp]
    rfl
  rw [OpensAt, locate, if_neg hne]
  split
  · rename_i text hlast
    obtain ⟨front, hfront⟩ := List.getLast?_eq_some_iff.mp hlast
    rw [hfront, List.dropLast_concat, walk_append]
    cases hwalk : d.walk front with
    | error e => simp [Except.bind, Except.map]
    | ok before =>
      have henter : [Component.name text].foldlM d.enter before = d.enter before (.name text) := by
        rw [List.foldlM_cons]
        cases d.enter before (.name text) <;> rfl
      simp only [Except.bind, Except.map, henter, enter, Except.ok.injEq]
      constructor
      · intro h
        split at h
        · rename_i hget
          cases h
          exact ⟨rfl, hget⟩
        · cases h
        · cases h
      · rintro ⟨rfl, hget⟩
        rw [hget]
  · exact ⟨fun h => ⟨h, directory_of_walk h hroot place List.prefix_rfl⟩, fun h => h.1⟩

theorem locate_mono {d d' : Disk}
    (hkept : ∀ p, d.get? p = some .directory → d'.get? p = some .directory) {path : String}
    {place : DiskPlace} (h : d.locate path = .ok place) : d'.locate path = .ok place := by
  rw [locate] at h ⊢
  split at h
  · cases h
  · rename_i hne
    rw [if_neg hne]
    split at h
    · cases hwalk : d.walk (steps path).dropLast with
      | error e =>
        rw [hwalk] at h
        cases h
      | ok before =>
        rw [hwalk] at h
        have hwalk' : d'.walk (steps path).dropLast = .ok before := walk_mono hkept hwalk
        rw [hwalk']
        exact h
    · exact walk_mono hkept h

theorem opensAt_of_isDirectory {d : Disk} {path : String} (hne : path ≠ "")
    (h : d.isDirectory path = true) : ∃ place, d.OpensAt path place := by
  rw [isDirectory, beq_iff_eq, find?] at h
  split at h
  · cases h
  · rename_i place hlocate
    refine ⟨place, (opensAt_iff hne).mpr ⟨hlocate, ?_⟩⟩
    split at h
    · split at h <;> cases h
    · exact h

theorem growsTo_of_makeDirectory {d d' : Disk} {path : String} (hne : path ≠ "")
    (h : d.makeDirectory path = .ok d') : GrowsTo d d' ∧ ∃ place, d'.OpensAt path place := by
  rw [makeDirectory] at h
  cases hlocate : d.locate path with
  | error e =>
    rw [hlocate] at h
    cases h
  | ok place =>
    rw [hlocate] at h
    simp only [bind, Except.bind] at h
    split at h
    · cases h
    · rename_i hnone
      cases h
      have hplace : place ≠ [] := by
        rintro rfl
        cases hnone
      have hgrows : GrowsTo d (d.put place .directory) := by
        intro p
        rw [get?_put hplace]
        split
        · rename_i hp
          subst hp
          exact .inr ⟨hnone, rfl⟩
        · exact .inl rfl
      refine ⟨hgrows, place, (opensAt_iff hne).mpr ⟨?_, ?_⟩⟩
      · exact locate_mono (fun p hp => hgrows.directory hp) hlocate
      · simp [hplace]

/-- **Creating a directory with those it stands in** only adds directories, and if it succeeds the
    path leads to a directory. -/
theorem growsTo_makeDirectoriesWithin (n : Nat) (d : Disk) (path : String) :
    GrowsTo d (makeDirectoriesWithin n d path).2 ∧
      ((makeDirectoriesWithin n d path).1 = .ok () →
        ∃ place, (makeDirectoriesWithin n d path).2.OpensAt path place) := by
  induction n generalizing d path with
  | zero => exact ⟨.refl d, nofun⟩
  | succ n ih =>
    rw [makeDirectoriesWithin]
    split
    · rename_i hempty
      subst hempty
      exact ⟨.refl d, fun _ => ⟨[], rfl⟩⟩
    · rename_i hne
      split
      · rename_i d' hmake
        obtain ⟨hgrows, hopen⟩ := growsTo_of_makeDirectory hne hmake
        exact ⟨hgrows, fun _ => hopen⟩
      · split
        · exact ⟨.refl d, nofun⟩
        · rename_i parent _
          have hparent := (ih d parent).1
          split
          · rename_i hwithin
            rw [hwithin] at hparent
            exact ⟨hparent, nofun⟩
          · rename_i d₁ hwithin
            rw [hwithin] at hparent
            split
            · rename_i d' hmake
              obtain ⟨hgrows, hopen⟩ := growsTo_of_makeDirectory hne hmake
              exact ⟨hparent.trans hgrows, fun _ => hopen⟩
            · split
              · rename_i hdir
                exact ⟨hparent, fun _ => opensAt_of_isDirectory hne hdir⟩
              · exact ⟨hparent, nofun⟩
      · split
        · rename_i hdir
          exact ⟨.refl d, fun _ => opensAt_of_isDirectory hne hdir⟩
        · exact ⟨.refl d, nofun⟩

/-- A directory that is there is left as it is. -/
theorem makeDirectories_of_opensAt {d : Disk} {path : String} {place : DiskPlace}
    (h : d.OpensAt path place) : d.makeDirectories path = (.ok (), d) := by
  rw [makeDirectories, makeDirectoriesWithin]
  split
  · rfl
  · rename_i hne
    obtain ⟨hlocate, hget⟩ := (opensAt_iff hne).mp h
    have hmake : d.makeDirectory path = .error .alreadyExists := by
      rw [makeDirectory, hlocate]
      simp only [bind, Except.bind, hget]
      rfl
    have hdir : d.isDirectory path = true := by
      rw [isDirectory, find?, hlocate, beq_iff_eq]
      dsimp only
      rw [hget]
    rw [hmake]
    exact if_pos hdir

/-! ## 8. Written texts -/

section Written

variable {d d' : Disk} {path text : String}

/-- **A text that was written** stands where the path leads, which was no directory. -/
theorem exists_place_of_writeText (h : d.writeText path text = .ok d') :
    ∃ place, d.locate path = .ok place ∧ namesDirectory path = false ∧
      d.get? place ≠ some .directory ∧ d' = d.put place (.file text.toUTF8) := by
  rw [writeText, write] at h
  cases hlocate : d.locate path with
  | error e =>
    rw [hlocate] at h
    cases h
  | ok place =>
    rw [hlocate] at h
    simp only [bind, Except.bind] at h
    split at h
    · cases h
    · rename_i hfile
      cases h
      rw [Bool.or_eq_true, not_or, Bool.not_eq_true, beq_iff_eq] at hfile
      exact ⟨place, rfl, hfile.1, hfile.2, rfl⟩

/-- It can be read back. -/
theorem readText_of_writeText (h : d.writeText path text = .ok d') :
    d'.readText path = .ok text := by
  obtain ⟨place, hlocate, hname, hfree, rfl⟩ := exists_place_of_writeText h
  have hne : place ≠ [] := by
    rintro rfl
    exact hfree rfl
  have hkept : ∀ p, d.get? p = some .directory →
      (d.put place (.file text.toUTF8)).get? p = some .directory := by
    intro p hp
    rw [get?_put hne, if_neg, hp]
    rintro rfl
    exact hfree hp
  rw [readText, read, locate_mono hkept hlocate]
  simp only [bind, Except.bind, get?_put hne, if_pos, hname, pure, Except.pure,
    Bool.false_eq_true, if_false, fromUTF8?_toUTF8]

/-- A file that was written stands in a directory that was there. -/
theorem exists_opensAt_of_writeText {dir name : String} (hname : isBareName name = true)
    (h : d.writeText (join dir name) text = .ok d') :
    ∃ place, d.OpensAt dir place ∧ d.get? (place ++ [name]) ≠ some .directory ∧
      d' = d.put (place ++ [name]) (.file text.toUTF8) := by
  obtain ⟨target, hlocate, -, hfree, hput⟩ := exists_place_of_writeText h
  rw [locate_join d dir hname] at hlocate
  cases hwalk : d.walk (steps dir) with
  | error e =>
    rw [hwalk] at hlocate
    cases hlocate
  | ok place =>
    rw [hwalk] at hlocate
    cases hlocate
    exact ⟨place, hwalk, hfree, hput⟩

end Written

end Disk

end LogMarkers
