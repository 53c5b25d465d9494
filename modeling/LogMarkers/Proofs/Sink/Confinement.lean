import LogMarkers.Proofs.Sink.DirectoryRun
import LogMarkers.Settings

/-!
# Files stay inside the output directory

The settings name the directory of the artifacts by a text, which is checked as a text, and file
names come from artifacts and from a manifest that anyone can have written. On the disk this keeps
every effect of a run in one directory below the output directory.

* `HostSettings.staysBelow_of_check`: an accepted text is a path that starts where it is taken and
  never goes up, so what it leads to lies below (`components_join`, `Disk.exists_below`);
* `Disk.EditedUnder`: all that changed is in files directly in a directory. A text without a slash
  that is no bare file name can only name a directory, so nothing is written there;
* `DirectorySink.effects_stay_inside`: both together, for any calls of a sink, whether they succeed
  or not.
-/

namespace LogMarkers

open DiskPath

/-! ## 1. Paths that stay below -/

namespace DiskPath

/-- The path starts where it is taken and never goes up. -/
def StaysBelow (path : String) : Prop := isAbsolute path = false ∧ ".." ∉ pieces path

/-- The component is neither a step up nor the root. -/
def Component.Descends (c : Component) : Prop := c ≠ .up ∧ c ≠ .root

theorem Component.descends_here : Component.here.Descends :=
  ⟨Component.noConfusion, Component.noConfusion⟩

theorem Component.descends_name (text : String) : (Component.name text).Descends :=
  ⟨Component.noConfusion, Component.noConfusion⟩

/-- The first piece of a path is empty if the path is, or if it starts with a slash. -/
theorem empty_or_absolute_of_pieces {path : String} {rest : List String}
    (h : pieces path = "" :: rest) :
    path = "" ∧ rest = [] ∨ isAbsolute path = true ∧ rest ≠ [] := by
  unfold pieces at h
  cases hchars : path.toList with
  | nil =>
    rw [hchars] at h
    exact .inl ⟨String.toList_eq_nil_iff.mp hchars, (List.cons.inj h).2.symm⟩
  | cons c cs =>
    rw [hchars, pieceChars] at h
    by_cases hc : c = '/'
    · rw [if_pos hc] at h
      have hrest : rest ≠ [] := by
        rw [← (List.cons.inj h).2]
        simpa using pieceChars_ne_nil cs
      exact .inr ⟨by simp [isAbsolute, hchars, hc], hrest⟩
    · rw [if_neg hc] at h
      split at h <;> exact absurd (List.cons.inj h).1 (by simp)

theorem component?_descends {piece : String} (h : piece ≠ "..") {c : Component}
    (hc : component? piece = some c) : c.Descends := by
  rw [component?, if_neg h] at hc
  split at hc
  · cases hc
  · cases hc
    exact Component.descends_name piece

theorem step?_descends {piece : String} (h : piece ≠ "..") {c : Component}
    (hc : step? piece = some c) : c.Descends := by
  unfold step? at hc
  split at hc
  · cases hc
    exact Component.descends_here
  · exact component?_descends h hc

theorem StaysBelow.ne_up {path : String} (h : StaysBelow path) {piece : String}
    (hp : piece ∈ pieces path) : piece ≠ ".." := fun e => h.2 (e ▸ hp)

theorem StaysBelow.steps_descend {path : String} (h : StaysBelow path) :
    ∀ c ∈ steps path, c.Descends := by
  intro c hc
  rw [steps, h.1, if_neg Bool.false_ne_true, List.nil_append] at hc
  obtain ⟨piece, hpiece, hstep⟩ := List.mem_filterMap.mp hc
  exact step?_descends (h.ne_up hpiece) hstep

theorem StaysBelow.pieces_descend {path : String} (h : StaysBelow path) :
    ∀ c ∈ (pieces path).filterMap component?, c.Descends := by
  intro c hc
  obtain ⟨piece, hpiece, hcomponent⟩ := List.mem_filterMap.mp hc
  exact component?_descends (h.ne_up hpiece) hcomponent

theorem StaysBelow.components_descend {path : String} (h : StaysBelow path) :
    ∀ c ∈ components path, c.Descends := by
  intro c hc
  have hpieces := h.pieces_descend
  unfold components at hc
  split at hc
  · cases hc
  · rename_i first rest heq
    rw [heq] at hpieces
    have hrest : ∀ c ∈ rest.filterMap component?, c.Descends := fun c hc =>
      hpieces c ((List.sublist_cons_self first rest).filterMap component? |>.subset hc)
    dsimp only at hc
    split at hc
    · rename_i hfirst
      rw [hfirst] at heq
      rcases empty_or_absolute_of_pieces heq with ⟨-, rfl⟩ | ⟨habsolute, -⟩
      · cases hc
      · rw [h.1] at habsolute
        cases habsolute
    · split at hc
      · rcases List.mem_cons.mp hc with rfl | hc
        · exact Component.descends_here
        · exact hrest c hc
      · exact hpieces c hc

/-- More pieces behind those of a path, of which an empty last one can be missing. -/
theorem components_append {path dir : String} {before more : List String} (hdir : dir ≠ "")
    (hpath : pieces path = before ++ more) (hbefore : before ≠ []) (hmore : more ≠ [])
    (h : pieces dir = before ∨ pieces dir = before ++ [""]) :
    components path = components dir ++ more.filterMap component? := by
  obtain ⟨first, rest, rfl⟩ := List.exists_cons_of_ne_nil hbefore
  obtain ⟨tail, hpieces, htail⟩ : ∃ tail, pieces dir = first :: tail ∧
      tail.filterMap component? = rest.filterMap component? := by
    rcases h with e | e
    · exact ⟨rest, e, rfl⟩
    · exact ⟨rest ++ [""], e, by simp [List.filterMap_append, component?]⟩
  have hall : rest ++ more ≠ [] := List.append_ne_nil_of_right_ne_nil _ hmore
  unfold components
  rw [hpath, hpieces, List.cons_append]
  dsimp only
  by_cases hfirst : first = ""
  · subst hfirst
    have hne : tail ≠ [] := by
      rcases empty_or_absolute_of_pieces hpieces with ⟨e, -⟩ | ⟨-, hne⟩
      · exact absurd e hdir
      · exact hne
    rw [if_pos rfl, if_pos rfl, if_neg hall, if_neg hne, List.filterMap_append, htail]
    rfl
  · rw [if_neg hfirst, if_neg hfirst]
    split
    · rw [List.filterMap_append, htail]
      rfl
    · rw [← List.cons_append, List.filterMap_append, List.filterMap_cons, List.filterMap_cons,
        htail]

/-- **A path that stays below, put behind a directory, adds components to those of the directory**,
    none of which is a step up. -/
theorem components_join {path : String} (h : StaysBelow path) (dir : String) :
    ∃ more, components (join dir path) = components dir ++ more ∧ ∀ c ∈ more, c.Descends := by
  by_cases hdir : dir = ""
  · subst hdir
    exact ⟨components path, by rw [empty_join]; rfl, h.components_descend⟩
  · obtain ⟨before, hne, hpieces, hbefore⟩ := pieces_join h.1 hdir
    exact ⟨_, components_append hdir hpieces hne (pieces_ne_nil path) hbefore, h.pieces_descend⟩

end DiskPath

namespace Disk

/-- What is done on the way down ends below where it starts. -/
theorem exists_below_of_walk {d : Disk} {cs : List Component} (hcs : ∀ c ∈ cs, c.Descends)
    {base place : DiskPlace} (h : cs.foldlM d.enter base = .ok place) :
    ∃ names, place = base ++ names := by
  induction cs generalizing base with
  | nil =>
    cases h
    exact ⟨[], by simp⟩
  | cons c rest ih =>
    rw [List.foldlM_cons] at h
    cases henter : d.enter base c with
    | error e =>
      rw [henter] at h
      cases h
    | ok next =>
      rw [henter] at h
      obtain ⟨names, rfl⟩ := ih (fun c hc => hcs c (List.mem_cons_of_mem _ hc)) h
      cases c with
      | root => exact absurd rfl (hcs _ List.mem_cons_self).2
      | up => exact absurd rfl (hcs _ List.mem_cons_self).1
      | here =>
        cases henter
        exact ⟨names, rfl⟩
      | name text =>
        rw [enter] at henter
        split at henter
        · cases henter
          exact ⟨text :: names, by simp⟩
        · cases henter
        · cases henter

/-- **A path that stays below leads below the directory that it is put behind.** -/
theorem exists_below {d : Disk} {dir path : String} (h : StaysBelow path) {place : DiskPlace}
    (hopen : d.OpensAt (join dir path) place) :
    ∃ base names, d.OpensAt dir base ∧ place = base ++ names := by
  unfold OpensAt at hopen
  rw [steps_join h.1, walk_append] at hopen
  cases hbase : d.walk (steps dir) with
  | error e =>
    rw [hbase] at hopen
    cases hopen
  | ok base =>
    rw [hbase] at hopen
    obtain ⟨names, rfl⟩ := exists_below_of_walk h.steps_descend hopen
    exact ⟨base, names, hbase, rfl⟩

end Disk

namespace HostSettings

theorem mem_cons_of_kept {α : Type} {kept : α → Prop} {first first' : α} {others others' : List α}
    (hfirst : kept first → first' = first) (hothers : ∀ a ∈ others, kept a → a ∈ others') :
    ∀ a ∈ first :: others, kept a → a ∈ first' :: others' := by
  intro a ha hkept
  rcases List.mem_cons.mp ha with rfl | ha
  · exact hfirst hkept ▸ List.mem_cons_self
  · exact List.mem_cons_of_mem _ (hothers a ha hkept)

/-- The pieces between slashes, as far as they hold no backslash, are also pieces between slashes
    and backslashes: the first one is the first one there, and the others are among the others. -/
theorem exists_pathPieces (cs : List Char) :
    ∃ first others first' others', pieceChars cs = first :: others ∧
      pathPieces cs = first' :: others' ∧ ('\\' ∉ first → first' = first) ∧
      ∀ piece ∈ others, '\\' ∉ piece → piece ∈ others' := by
  induction cs with
  | nil => exact ⟨[], [], [], [], rfl, rfl, fun _ => rfl, fun _ h => by cases h⟩
  | cons c rest ih =>
    obtain ⟨first, others, first', others', hpieces, hpathPieces, hfirst, hothers⟩ := ih
    have hall : ∀ piece ∈ first :: others, '\\' ∉ piece → piece ∈ first' :: others' :=
      mem_cons_of_kept hfirst hothers
    unfold pieceChars pathPieces
    rw [hpieces, hpathPieces]
    by_cases hslash : c = '/'
    · rw [if_pos hslash, if_pos (.inl hslash)]
      exact ⟨_, _, _, _, rfl, rfl, fun _ => rfl, hall⟩
    · rw [if_neg hslash]
      by_cases hback : c = '\\'
      · rw [if_pos (.inr hback)]
        refine ⟨_, _, _, _, rfl, rfl, fun hno => ?_, fun piece hp => hall piece
          (List.mem_cons_of_mem _ hp)⟩
        exact absurd (hback ▸ List.mem_cons_self) hno
      · rw [if_neg (not_or.mpr ⟨hslash, hback⟩)]
        refine ⟨_, _, _, _, rfl, rfl, fun hno => ?_, hothers⟩
        rw [hfirst fun hmem => hno (List.mem_cons_of_mem _ hmem)]

/-- A text that does not leave the directory is a path that stays below. -/
theorem staysBelow_of_leavesDirectory {dir : String} (h : leavesDirectory dir = false) :
    StaysBelow dir := by
  unfold leavesDirectory at h
  obtain ⟨hroot, hup⟩ := Bool.or_eq_false_iff.mp h
  refine ⟨?_, fun hmem => ?_⟩
  · unfold isAbsolute
    cases hchars : dir.toList with
    | nil => rfl
    | cons c rest =>
      rw [hchars] at hroot
      exact (Bool.or_eq_false_iff.mp hroot).1
  · obtain ⟨piece, hpiece, e⟩ := List.mem_map.mp hmem
    obtain rfl : piece = ['.', '.'] := by
      rw [← String.toList_inj, String.toList_ofList] at e
      exact e
    obtain ⟨first, others, first', others', hpieces, hpathPieces, hfirst, hothers⟩ :=
      exists_pathPieces dir.toList
    have hno : '\\' ∉ ['.', '.'] := by decide
    have hin : ['.', '.'] ∈ pathPieces dir.toList :=
      hpathPieces ▸ mem_cons_of_kept hfirst hothers _ (hpieces ▸ hpiece) hno
    exact List.any_eq_false.mp hup _ hin (by decide)

/-- **The directory of accepted settings is a path that stays below.** -/
theorem staysBelow_of_check {s : HostSettings} (h : s.check = .ok ()) :
    StaysBelow s.outputSubdir := by
  refine staysBelow_of_leavesDirectory ?_
  unfold check at h
  cases hrun : s.run.check with
  | error e =>
    rw [hrun] at h
    cases h
  | ok u =>
    rw [hrun] at h
    by_cases hempty : s.outputSubdir = ""
    · rw [if_pos hempty] at h
      cases h
    · rw [if_neg hempty] at h
      cases hleaves : leavesDirectory s.outputSubdir with
      | false => rfl
      | true =>
        rw [hleaves] at h
        cases h

end HostSettings

/-! ## 2. Effects in one directory -/

namespace DiskPath

/-- A text without a slash that is no bare file name can only name a directory. -/
theorem namesDirectory_of_not_isBareName {name : String} (hslash : '/' ∉ name.toList)
    (h : isBareName name ≠ true) : namesDirectory name = true := by
  have hname : name = "" ∨ name = "." ∨ name = ".." := by
    by_contra hno
    push Not at hno
    exact h (isBareName_iff.mpr ⟨hslash, hno⟩)
  rw [namesDirectory, pieces_of_notMem hslash]
  rcases hname with rfl | rfl | rfl <;> rfl

end DiskPath

namespace Disk

/-- All that changed is in files with bare names, directly in the directory that a path leads to. -/
def EditedUnder (dir : String) (d d' : Disk) : Prop :=
  d' = d ∨ ∃ place names, d.OpensAt dir place ∧ (∀ name ∈ names, isBareName name = true) ∧
    EditedIn place names d d'

namespace EditedUnder

variable {dir : String} {d d' d'' : Disk}

theorem refl (dir : String) (d : Disk) : EditedUnder dir d d := .inl rfl

theorem trans (h : EditedUnder dir d d') (h' : EditedUnder dir d' d'') :
    EditedUnder dir d d'' := by
  rcases h with rfl | ⟨place, names, hopen, hnames, hedited⟩
  · exact h'
  rcases h' with rfl | ⟨place', names', hopen', hnames', hedited'⟩
  · exact .inr ⟨place, names, hopen, hnames, hedited⟩
  obtain rfl := (hedited.opensAt hopen).unique hopen'
  refine .inr ⟨place, names ++ names', hopen, fun name hname => ?_, ?_⟩
  · exact (List.mem_append.mp hname).elim (hnames name) (hnames' name)
  · exact (hedited.mono (List.subset_append_left _ _)).trans
      (hedited'.mono (List.subset_append_right _ _))

/-- The directory opens where it did before. -/
theorem opensAt_iff (h : EditedUnder dir d d') {place : DiskPlace} :
    d'.OpensAt dir place ↔ d.OpensAt dir place := by
  rcases h with rfl | ⟨place', names, -, -, hedited⟩
  · rfl
  · exact ⟨fun hopen => hopen.mono fun p => (hedited.directories p).mp, hedited.opensAt⟩

/-- A place where the disk is not the same is that of a file in the directory. -/
theorem exists_name (h : EditedUnder dir d d') {p : DiskPlace} (hp : d'.get? p ≠ d.get? p) :
    ∃ place name, d.OpensAt dir place ∧ isBareName name = true ∧ p = place ++ [name] := by
  rcases h with rfl | ⟨place, names, hopen, hnames, hedited⟩
  · exact absurd rfl hp
  by_contra hno
  refine hp (hedited.elsewhere p fun name hname e => hno ?_)
  exact ⟨place, name, hopen, hnames name hname, e⟩

/-- **Writing behind a directory**, whatever the name is. -/
theorem of_writeText {name text : String} (hslash : '/' ∉ name.toList)
    (h : d.writeText (join dir name) text = .ok d') : EditedUnder dir d d' := by
  -- what can only name a directory is not written
  have hname : isBareName name = true := by
    by_contra hname
    obtain ⟨place, -, hfile, -⟩ := exists_place_of_writeText h
    rw [namesDirectory_join (isAbsolute_of_notMem hslash),
      namesDirectory_of_not_isBareName hslash hname] at hfile
    cases hfile
  obtain ⟨place, hopen, hfree, rfl⟩ := exists_opensAt_of_writeText hname h
  exact .inr ⟨place, [name], hopen, by simpa using hname,
    .put (List.mem_singleton_self _) _ hfree⟩

/-- **Removing a file of the directory.** -/
theorem of_removeFile {name : String} (hname : isBareName name = true)
    (h : d.removeFile (join dir name) = .ok d') : EditedUnder dir d d' := by
  cases hwalk : d.walk (steps dir) with
  | error e =>
    rw [removeFile, locate_join d dir hname, hwalk] at h
    cases h
  | ok place =>
    rw [removeFile_inside hwalk hname] at h
    split at h
    · cases h
    · cases h
    · rename_i content hfile
      cases h
      have hnone : d.get? (place ++ [name]) ≠ some .directory := by
        rw [hfile]
        intro e
        cases e
      exact .inr ⟨place, [name], hwalk, by simpa using hname,
        .erase (List.mem_singleton_self _) hnone⟩

end EditedUnder

end Disk

namespace DirectorySink

open Disk

variable {s : DirectorySink} {d d' : Disk}

/-- Storing an artifact. -/
theorem persist_editedUnder (st : DirectoryState) {a : Artifact} (ha : '/' ∉ a.id.toList) :
    EditedUnder st.sink.dir st.disk (persist st a).2.disk := by
  unfold persist
  dsimp only
  split
  · exact .refl _ _
  · split
    · rename_i hwrite
      exact .of_writeText ha hwrite
    · exact .refl _ _

theorem removeIfThere_editedUnder {name : String} (hname : isBareName name = true)
    (h : s.removeIfThere d name = .ok d') : EditedUnder s.dir d d' := by
  unfold removeIfThere at h
  split at h
  · rename_i hremove
    cases h
    exact .of_removeFile hname hremove
  · cases h
    exact .refl _ _
  · cases h

theorem removeAll_editedUnder {entries : List ManifestEntry}
    (hbare : ∀ e ∈ entries, isBareName e.id = true) :
    EditedUnder s.dir d (s.removeAll entries d).2 := by
  induction entries generalizing d with
  | nil => exact .refl _ _
  | cons e rest ih =>
    unfold removeAll
    split
    · rename_i hremove
      exact (removeIfThere_editedUnder (hbare e List.mem_cons_self) hremove).trans
        (ih fun e he => hbare e (List.mem_cons_of_mem _ he))
    · exact .refl _ _

theorem storeManifest_editedUnder (h : s.storeManifest d = .ok d') : EditedUnder s.dir d d' := by
  by_cases hwrite : s.writeManifest = true
  · exact .of_writeText (isBareName_iff.mp isBareName_manifestFile).1
      (writeText_of_storeManifest hwrite h)
  · rw [storeManifest, if_neg hwrite] at h
    exact removeIfThere_editedUnder isBareName_manifestFile h

/-- **Finishing a run**, whatever the manifest lists. -/
theorem finish_editedUnder (st : DirectoryState) :
    EditedUnder st.sink.dir st.disk (finish st).2.disk := by
  have hremoved : EditedUnder st.sink.dir st.disk
      (st.sink.removeAll (st.sink.manifest.entries.filter st.sink.isStale) st.disk).2 :=
    removeAll_editedUnder isBareName_of_isStale
  unfold finish
  split
  · rename_i hremove
    rw [hremove] at hremoved
    exact hremoved
  · rename_i disk hremove
    rw [hremove] at hremoved
    split
    · rename_i disk' hstore
      have hstored : EditedUnder st.sink.advance.dir disk disk' := storeManifest_editedUnder hstore
      exact hremoved.trans hstored
    · exact hremoved

/-! ## 3. Calls -/

/-- What a directory sink is asked to do. -/
inductive Call where
  | persist (a : Artifact)
  | finish

/-- The state after a call, whether it succeeds or not. -/
def Call.run (st : DirectoryState) : Call → DirectoryState
  | persist a => (DirectorySink.persist st a).2
  | finish => (DirectorySink.finish st).2

/-- The call stores no artifact with a slash in its name. -/
def Call.Slashless (c : Call) : Prop := ∀ a, c = persist a → '/' ∉ a.id.toList

theorem Call.dir_run (st : DirectoryState) (c : Call) : (c.run st).sink.dir = st.sink.dir := by
  cases c with
  | persist a =>
    show (DirectorySink.persist st a).2.sink.dir = _
    rw [persist_sink]
    rfl
  | finish =>
    show (DirectorySink.finish st).2.sink.dir = _
    unfold DirectorySink.finish
    split
    · rfl
    · split <;> rfl

theorem Call.editedUnder {c : Call} (hc : c.Slashless) (st : DirectoryState) :
    EditedUnder st.sink.dir st.disk (c.run st).disk := by
  cases c with
  | persist a => exact persist_editedUnder st (hc a rfl)
  | finish => exact finish_editedUnder st

/-- **All that calls change is in the directory of the sink.** -/
theorem editedUnder_foldl {calls : List Call} (hcalls : ∀ c ∈ calls, c.Slashless)
    (st : DirectoryState) :
    EditedUnder st.sink.dir st.disk (calls.foldl Call.run st).disk := by
  induction calls generalizing st with
  | nil => exact .refl _ _
  | cons c rest ih =>
    have hfirst := Call.editedUnder (hcalls c List.mem_cons_self) st
    have hrest := ih (fun c hc => hcalls c (List.mem_cons_of_mem _ hc)) (c.run st)
    rw [Call.dir_run] at hrest
    exact hfirst.trans hrest

/-- **Files stay inside the output directory.** The directory of the artifacts has the components of
    the output directory and more, none of which is a step up or the root; and whatever calls
    create, change or remove, from any state of the sink and whether they succeed or not, is a file
    with a bare name directly in that directory, which lies below the output directory. -/
theorem effects_stay_inside {settings : HostSettings} (h : settings.check = .ok ())
    {outDir : String} {st : DirectoryState} (hdir : st.sink.dir = join outDir settings.outputSubdir)
    {calls : List Call} (hcalls : ∀ c ∈ calls, c.Slashless) :
    (∃ more, components st.sink.dir = components outDir ++ more ∧ ∀ c ∈ more, c.Descends) ∧
      ∀ p, (calls.foldl Call.run st).disk.get? p ≠ st.disk.get? p →
        ∃ base names name, st.disk.OpensAt outDir base ∧
          st.disk.OpensAt st.sink.dir (base ++ names) ∧ isBareName name = true ∧
          p = base ++ names ++ [name] := by
  have hbelow := HostSettings.staysBelow_of_check h
  refine ⟨hdir ▸ components_join hbelow outDir, fun p hp => ?_⟩
  obtain ⟨place, name, hopen, hname, rfl⟩ := (editedUnder_foldl hcalls st).exists_name hp
  obtain ⟨base, names, hbase, rfl⟩ := exists_below hbelow (hdir ▸ hopen)
  exact ⟨base, names, name, hbase, hopen, hname, rfl⟩

/-- A directory with a file of an earlier run, whose manifest lists paths that lead elsewhere. -/
def oddState : DirectoryState where
  sink := {
    dir := "/work/out/autolog"
    writeManifest := false
    manifest := ⟨["../notes", "/work/notes", "..", "", "old.rs"].map fun id =>
      ⟨id, .extension, "0"⟩⟩ }
  disk := [["work"], ["work", "out"], ["work", "out", "autolog"]].foldl (·.put · .directory)
    ((({} : Disk).put ["work", "notes"] (.file "mine".toUTF8)).put
      ["work", "out", "autolog", "old.rs"] (.file "old".toUTF8))

/-- Finishing a run there removes the file, which stands where it should. -/
theorem effects_stay_inside_oddState :
    ∃ base names name, oddState.disk.OpensAt "/work/out" base ∧
      oddState.disk.OpensAt oddState.sink.dir (base ++ names) ∧ isBareName name = true ∧
      ["work", "out", "autolog", "old.rs"] = base ++ names ++ [name] := by
  have hcalls : ∀ c ∈ [Call.finish], c.Slashless := by
    intro c hc a e
    cases List.mem_singleton.mp hc
    cases e
  have hremoved : ([Call.finish].foldl Call.run oddState).disk.get?
      ["work", "out", "autolog", "old.rs"] ≠
        oddState.disk.get? ["work", "out", "autolog", "old.rs"] := by decide +kernel
  have hcheck : ({} : HostSettings).check = .ok () := by decide
  have hdir : oddState.sink.dir = join "/work/out" ({} : HostSettings).outputSubdir := by decide
  exact (effects_stay_inside hcheck hdir hcalls).2 _ hremoved

end DirectorySink

end LogMarkers
