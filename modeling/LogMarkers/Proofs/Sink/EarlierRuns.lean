import LogMarkers.Host
import LogMarkers.Proofs.Run.GeneratedCode
import LogMarkers.Proofs.Sink.DirectoryRun

/-!
# Runs into one directory, one after the other

All that a run knows of earlier ones is the manifest, and the manifest is stored at the very end of
a run that succeeds. A run that fails keeps what it wrote and lists nothing of it.

* `hasFile_persistAll_iff`: which files are there after storing, failure or not;
* `HostRun.exists_place_of_completes`, `HostRun.listed_of_failed`: what a run that completes, and one
  that fails, makes of the files and of the manifest;
* `HostRun.unlisted_afterRuns_iff`: which files are there and not listed after any runs;
* `earlier_output_remains_iff`: which files of earlier runs a completed run leaves;
* `output_of_failed_run_remains`: there are some.
-/

namespace LogMarkers

open DiskPath

/-! ## 1. Files of a directory, listed or not -/

namespace Disk

/-- The directory at a place has a file with this name. -/
def HasFile (d : Disk) (place : DiskPlace) (name : String) : Prop :=
  ∃ content, d.get? (place ++ [name]) = some (.file content)

/-- The names that the manifest in a directory lists. -/
def listed (d : Disk) (place : DiskPlace) : List String := (d.manifestAt place).entries.map (·.id)

variable {d d' : Disk} {place : DiskPlace} {name : String}

theorem hasFile_congr (h : d'.get? (place ++ [name]) = d.get? (place ++ [name])) :
    d'.HasFile place name ↔ d.HasFile place name := by
  rw [HasFile, h, HasFile]

theorem not_hasFile (h : d.get? (place ++ [name]) = none) : ¬ d.HasFile place name := by
  rintro ⟨content, hfile⟩
  rw [h] at hfile
  cases hfile

theorem GrowsTo.hasFile_iff (h : GrowsTo d d') : d'.HasFile place name ↔ d.HasFile place name :=
  exists_congr fun _ => h.file_iff

theorem GrowsTo.listed (h : GrowsTo d d') (place : DiskPlace) :
    d'.listed place = d.listed place := by
  rw [Disk.listed, h.manifestAt, Disk.listed]

end Disk

/-! ## 2. What storing writes -/

/-- The names under which storing artifacts one after the other writes, up to the first failure. -/
def Sink.writtenNames {σ : Type} [Sink σ] : List Artifact → σ → List String
  | [], _ => []
  | a :: rest, sink =>
    match persist sink a with
    | (.error _, _) => []
    | (.ok .written, sink) => a.id :: writtenNames rest sink
    | (.ok .unchanged, sink) => writtenNames rest sink

theorem Sink.writtenNames_subset {σ : Type} [Sink σ] (artifacts : List Artifact) (sink : σ) :
    writtenNames artifacts sink ⊆ artifacts.map (·.id) := by
  induction artifacts generalizing sink with
  | nil => exact List.Subset.refl _
  | cons a rest ih =>
    rw [writtenNames, List.map_cons]
    split
    · exact List.nil_subset _
    · exact List.cons_subset_cons _ (ih _)
    · exact List.subset_cons_of_subset _ (ih _)

theorem Sink.store_of_error {σ : Type} [Sink σ] {artifacts : List Artifact} {s s' : σ} {e : Failure}
    (h : store artifacts s = (.error e, s')) :
    (persistAll artifacts s).2 = s' ∨ finish (persistAll artifacts s).2 = (.error e, s') := by
  unfold store at h
  split at h
  · rename_i hpersist
    cases h
    rw [hpersist]
    exact .inl rfl
  · rename_i hpersist
    rw [hpersist]
    split at h
    · rename_i hfinish
      cases h
      exact .inr hfinish
    · cases h

namespace DirectorySink

variable {st st' : DirectoryState} {place : DiskPlace} {a : Artifact} {artifacts : List Artifact}
  {outcomes : List WriteOutcome} {name : String}

/-- A file is there after storing an artifact if it was there, or is the one that was written. -/
theorem hasFile_persist_iff (hopen : st.disk.OpensAt st.sink.dir place)
    (ha : isBareName a.id = true) :
    (persist st a).2.disk.HasFile place name ↔
      st.disk.HasFile place name ∨ (persist st a).1 = .ok .written ∧ name = a.id := by
  rw [persist_eq hopen ha]
  split
  · simp
  · split
    · simp
    · dsimp only
      by_cases hname : name = a.id
      · subst hname
        exact iff_of_true ⟨a.text.toUTF8, by simp⟩ (.inr ⟨rfl, rfl⟩)
      · have hsame : (st.disk.put (place ++ [a.id]) (.file a.text.toUTF8)).get? (place ++ [name]) =
            st.disk.get? (place ++ [name]) := by
          simp [hname]
        rw [Disk.hasFile_congr hsame]
        simp [hname]

/-- **The files after storing**, failure or not: those that were there and those written. -/
theorem hasFile_persistAll_iff (hopen : st.disk.OpensAt st.sink.dir place)
    (hbare : ∀ a ∈ artifacts, isBareName a.id = true) :
    (Sink.persistAll artifacts st).2.disk.HasFile place name ↔
      st.disk.HasFile place name ∨ name ∈ Sink.writtenNames artifacts st := by
  induction artifacts generalizing st with
  | nil => simp [Sink.persistAll, Sink.writtenNames]
  | cons a rest ih =>
    have ha := hbare a List.mem_cons_self
    have hstep : (persist st a).2.disk.HasFile place name ↔ st.disk.HasFile place name ∨
        (persist st a).1 = .ok .written ∧ name = a.id := hasFile_persist_iff hopen ha
    have hopen₁ := persist_opensAt hopen ha
    have hrest : ∀ b ∈ rest, isBareName b.id = true :=
      fun b hb => hbare b (List.mem_cons_of_mem _ hb)
    rw [Sink.writtenNames]
    rcases hpersist : Sink.persist st a with ⟨result, s₁⟩
    change persist st a = _ at hpersist
    rw [hpersist] at hstep hopen₁
    cases result with
    | error e =>
      rw [Sink.persistAll_cons_of_error hpersist]
      simpa using hstep
    | ok outcome =>
      rw [Sink.persistAll_cons_of_ok hpersist, ih hopen₁ hrest]
      cases outcome with
      | written => simp [hstep, or_assoc]
      | unchanged => simp [hstep]

/-- Artifacts that were all stored have their files. -/
theorem hasFile_of_persistAll (hopen : st.disk.OpensAt st.sink.dir place)
    (hbare : ∀ a ∈ artifacts, isBareName a.id = true)
    (h : Sink.persistAll artifacts st = (.ok outcomes, st')) :
    ∀ a ∈ artifacts, st'.disk.HasFile place a.id := by
  induction artifacts generalizing st outcomes with
  | nil => nofun
  | cons a rest ih =>
    obtain ⟨outcome, s₁, tail, hpersist, htail, -⟩ := Sink.exists_of_persistAll_cons h
    change persist st a = _ at hpersist
    have ha := hbare a List.mem_cons_self
    have hrest : ∀ b ∈ rest, isBareName b.id = true :=
      fun b hb => hbare b (List.mem_cons_of_mem _ hb)
    have hopen₁ := persist_opensAt hopen ha
    rw [hpersist] at hopen₁
    intro b hb
    rcases List.mem_cons.mp hb with rfl | hb
    · have hkept := (hasFile_persistAll_iff hopen₁ hrest).mpr
        (.inl (exists_file_of_persist hopen ha hpersist))
      rw [htail] at hkept
      exact hkept
    · exact ih hopen₁ hrest htail b hb

/-- After a run that failed only files of the last one were removed. -/
theorem store_edited_of_error {e : Failure} (hopen : st.disk.OpensAt st.sink.dir place)
    (hbare : ∀ a ∈ artifacts, isBareName a.id = true)
    (h : Sink.store artifacts st = (.error e, st')) :
    Disk.EditedIn place (st.sink.manifest.entries.map (·.id))
      (Sink.persistAll artifacts st).2.disk st'.disk := by
  rcases Sink.store_of_error h with hpersist | hfinish
  · rw [hpersist]
    exact .refl ..
  · obtain ⟨-, pending, hsink⟩ := persistAll_edited hopen hbare
    refine (finish_edited_of_error (persistAll_opensAt hopen hbare) hfinish).mono
      fun name hname => ?_
    have hlisted := (mem_staleNames.mp hname).1
    rw [hsink] at hlisted
    exact hlisted

/-- Storing a run, failure or not, leaves the directories as they are. -/
theorem directory_store_iff (hopen : st.disk.OpensAt st.sink.dir place)
    (hbare : ∀ a ∈ artifacts, isBareName a.id = true) (hfresh : st.sink.pending = {})
    (p : DiskPlace) :
    (Sink.store artifacts st).2.disk.get? p = some .directory ↔
      st.disk.get? p = some .directory := by
  have hwritten := (persistAll_edited hopen hbare).1
  rcases hstore : Sink.store artifacts st with ⟨result, st'⟩
  cases result with
  | error e =>
    have hedited := store_edited_of_error hopen hbare hstore
    exact (hedited.directories p).trans (hwritten.directories p)
  | ok outcomes =>
    obtain ⟨disk, -, hpersist, hfinish, -⟩ := store_edited hopen hbare hfresh hstore
    exact (hfinish.directories p).trans (hpersist.directories p)

end DirectorySink

/-! ## 3. One run -/

/-- A host stores the artifacts of a crate and reports on them. -/
theorem Host.generate_of_lower {σ : Type} [Sink σ] {h : Host} {sources : SourceSet}
    {c : LoweredCrate} (hlower : sources.lower = .ok c) (sink : σ) :
    h.generate sources sink =
      ((Sink.store (h.artifacts (h.output c)) sink).1.map (h.report (h.output c)),
        (Sink.store (h.artifacts (h.output c)) sink).2) := by
  rw [generate, hlower]
  dsimp only
  rcases Sink.store (h.artifacts (h.output c)) sink with ⟨result, sink'⟩
  cases result <;> rfl

/-- A host with what it runs on. -/
structure HostRun where
  host : Host
  sources : SourceSet

namespace HostRun

/-- What the run stores; nothing if the sources cannot be read. -/
def artifacts (r : HostRun) : List Artifact :=
  match r.sources.lower with
  | .ok crate => r.host.artifacts (r.host.output crate)
  | .error _ => []

theorem artifacts_of_lower {r : HostRun} {c : LoweredCrate} (h : r.sources.lower = .ok c) :
    r.artifacts = r.host.artifacts (r.host.output c) := by
  rw [artifacts, h]

/-- The names of what the run stores. -/
def names (r : HostRun) : List String := r.artifacts.map (·.id)

/-- The run into a directory, with a sink of its own. -/
def into (r : HostRun) (dir : String) (d : Disk) : Except Failure Report × Disk :=
  match DirectorySink.new dir d with
  | (.error e, d) => (.error e, d)
  | (.ok sink, d) =>
    let (result, st) := r.host.generate r.sources (⟨sink, d⟩ : DirectoryState)
    (result, st.disk)

/-- The names of the files that the run writes. -/
def written (r : HostRun) (dir : String) (d : Disk) : List String :=
  match DirectorySink.new dir d with
  | (.error _, _) => []
  | (.ok sink, d) => Sink.writtenNames r.artifacts (⟨sink, d⟩ : DirectoryState)

/-- The run completes. -/
def Completes (r : HostRun) (dir : String) (d : Disk) : Prop :=
  ∃ report, (r.into dir d).1 = .ok report

variable {r : HostRun} {dir : String} {d d' : Disk} {place : DiskPlace}

theorem written_subset : r.written dir d ⊆ r.names := by
  unfold written
  split
  · exact List.nil_subset _
  · exact Sink.writtenNames_subset ..

/-- The state in which a run starts to store: the directory is open, and what the manifest said is
    known. -/
def start (dir : String) (place : DiskPlace) (d opened : Disk) : DirectoryState :=
  ⟨{ dir := dir, manifest := d.manifestAt place }, opened⟩

theorem opensAt_start {opened : Disk} (h : opened.OpensAt dir place) :
    (start dir place d opened).disk.OpensAt (start dir place d opened).sink.dir place := h

/-- **A run** fails before it stores anything, or opens the directory and stores its artifacts. -/
theorem into_cases (r : HostRun) (dir : String) (d : Disk) :
    ((r.into dir d).2 = (DirectorySink.new dir d).2 ∧ ¬ r.Completes dir d ∧
        r.written dir d = []) ∨
      ∃ place opened, (DirectorySink.new dir d).2 = opened ∧ opened.OpensAt dir place ∧
        r.written dir d = Sink.writtenNames r.artifacts (start dir place d opened) ∧
        (r.into dir d).2 = (Sink.store r.artifacts (start dir place d opened)).2.disk ∧
        (r.Completes dir d ↔
          ∃ outcomes, (Sink.store r.artifacts (start dir place d opened)).1 = .ok outcomes) := by
  unfold Completes into written
  rcases hnew : DirectorySink.new dir d with ⟨result, opened⟩
  cases result with
  | error e => exact .inl ⟨rfl, nofun, rfl⟩
  | ok sink =>
    obtain ⟨place, hopen, rfl⟩ := DirectorySink.exists_place_of_new hnew
    dsimp only
    unfold artifacts
    cases hlower : r.sources.lower with
    | error e =>
      rw [Host.generate, hlower]
      exact .inl ⟨rfl, nofun, rfl⟩
    | ok crate =>
      rw [Host.generate_of_lower hlower]
      refine .inr ⟨place, opened, rfl, hopen, rfl, rfl, ?_⟩
      show (∃ report, ((Sink.store (r.host.artifacts (r.host.output crate))
        (start dir place d opened)).1.map _) = .ok report) ↔ _
      cases (Sink.store (r.host.artifacts (r.host.output crate)) (start dir place d opened)).1 with
      | error e => simp [Except.map]
      | ok outcomes => simp [Except.map]

/-- Every artifact has a bare file name, and none has that of the manifest. -/
def NamesFiles (r : HostRun) : Prop :=
  ∀ name ∈ r.names, isBareName name = true ∧ name ≠ manifestFile

theorem NamesFiles.isBareName (hr : r.NamesFiles) :
    ∀ a ∈ r.artifacts, DiskPath.isBareName a.id = true :=
  fun a ha => (hr a.id (List.mem_map_of_mem ha)).1

/-- The directories after a run are those after the directory was opened. -/
theorem directory_into_iff (hr : r.NamesFiles) (p : DiskPlace) :
    (r.into dir d).2.get? p = some .directory ↔
      (DirectorySink.new dir d).2.get? p = some .directory := by
  rcases r.into_cases dir d with ⟨hdisk, -⟩ | ⟨place, opened, hnew, hopen, -, hdisk, -⟩
  · rw [hdisk]
  · rw [hdisk, hnew, DirectorySink.directory_store_iff (opensAt_start hopen) hr.isBareName rfl]
    rfl

theorem directory_into_iff_of_opensAt (hr : r.NamesFiles) (hopen : d.OpensAt dir place)
    (p : DiskPlace) :
    (r.into dir d).2.get? p = some .directory ↔ d.get? p = some .directory := by
  rw [directory_into_iff hr, DirectorySink.new_of_opensAt hopen]

theorem directory_into (hr : r.NamesFiles) {p : DiskPlace} (h : d.get? p = some .directory) :
    (r.into dir d).2.get? p = some .directory :=
  (directory_into_iff hr p).mpr ((DirectorySink.growsTo_new dir d).directory h)

/-- **A run that completes**: the manifest lists its artifacts, which have their files; of the other
    files those are left that were not listed. -/
theorem exists_place_of_completes (hr : r.NamesFiles) (h : r.Completes dir d) :
    ∃ place, (r.into dir d).2.OpensAt dir place ∧ (r.into dir d).2.listed place = r.names ∧
      ∀ name, isBareName name = true → name ≠ manifestFile →
        ((r.into dir d).2.HasFile place name ↔
          name ∈ r.names ∨ d.HasFile place name ∧ name ∉ d.listed place) := by
  have hgrows := DirectorySink.growsTo_new dir d
  rcases r.into_cases dir d with ⟨-, hfails, -⟩ | ⟨place, opened, hnew, hopen, -, hdisk, hiff⟩
  · exact absurd h hfails
  · rw [hnew] at hgrows
    obtain ⟨outcomes, hok⟩ := hiff.mp h
    have hopen' := opensAt_start (d := d) hopen
    obtain ⟨disk, hpersist, hwritten, hfinished, hmanifest, hremoved⟩ :=
      DirectorySink.store_edited hopen' hr.isBareName rfl (Prod.ext hok rfl)
    rw [← hdisk] at hfinished hmanifest hremoved
    -- the end of the run is about the manifest and what is listed but not stored
    have hkept : ∀ name ≠ manifestFile, name ∈ r.names ∨ name ∉ d.listed place →
        (r.into dir d).2.get? (place ++ [name]) = disk.get? (place ++ [name]) := by
      intro name hne hcurrent
      refine hfinished.get?_of_notMem fun hedited => ?_
      rcases List.mem_cons.mp hedited with hmanifest | hstale
      · exact hne hmanifest
      · obtain ⟨hlisted, hother, -⟩ := DirectorySink.mem_staleNames_listing.mp hstale
        exact hcurrent.elim hother fun h => h hlisted
    refine ⟨place, hfinished.opensAt (hwritten.opensAt hopen), ?_, fun name hbare hne => ?_⟩
    · have hstored : (r.into dir d).2.manifestAt place = ⟨r.artifacts.map .of⟩ :=
        Disk.manifestAt_of_file hmanifest
      rw [Disk.listed, hstored, names, List.map_map]
      rfl
    · by_cases hname : name ∈ r.names
      · refine iff_of_true ?_ (.inl hname)
        obtain ⟨a, ha, rfl⟩ := List.mem_map.mp hname
        exact (Disk.hasFile_congr (hkept a.id hne (.inl hname))).mpr
          (DirectorySink.hasFile_of_persistAll hopen' hr.isBareName hpersist a ha)
      · rw [or_iff_right hname]
        by_cases hlisted : name ∈ d.listed place
        · refine iff_of_false (Disk.not_hasFile (hremoved name ?_ hne)) fun h => h.2 hlisted
          exact DirectorySink.mem_staleNames_listing.mpr ⟨hlisted, hname, hbare⟩
        · have hsame := (hkept name hne (.inr hlisted)).trans (hwritten.get?_of_notMem hname)
          rw [Disk.hasFile_congr hsame, and_iff_left hlisted]
          exact hgrows.hasFile_iff

/-- **A run that fails**: the manifest is as it was, and of the files that it does not list those are
    there that were there and those that the run wrote. -/
theorem listed_of_failed (hr : r.NamesFiles) (h : ¬ r.Completes dir d)
    (hplace : ∀ p, (r.into dir d).2.OpensAt dir p → p = place)
    (hmanifest : manifestFile ∉ d.listed place) :
    (r.into dir d).2.listed place = d.listed place ∧
      ∀ name ∉ d.listed place, ((r.into dir d).2.HasFile place name ↔
        d.HasFile place name ∨ name ∈ r.written dir d) := by
  have hgrows := DirectorySink.growsTo_new dir d
  rcases r.into_cases dir d with
    ⟨hdisk, -, hwrote⟩ | ⟨place', opened, hnew, hopen, hwrote, hdisk, hiff⟩
  · rw [hdisk]
    refine ⟨hgrows.listed place, fun name _ => ?_⟩
    rw [hwrote, hgrows.hasFile_iff]
    simp
  · rw [hnew] at hgrows
    have hopen' := opensAt_start (d := d) hopen
    have hkeeps : (r.into dir d).2.OpensAt dir place' := by
      refine hopen.mono fun p hp => ?_
      rw [hdisk]
      exact (DirectorySink.directory_store_iff hopen' hr.isBareName rfl p).mpr hp
    obtain rfl := hplace place' hkeeps
    have hfailed : ∃ e, (Sink.store r.artifacts (start dir place' d opened)).1 = .error e := by
      cases hresult : (Sink.store r.artifacts (start dir place' d opened)).1 with
      | error e => exact ⟨e, rfl⟩
      | ok outcomes => exact absurd (hiff.mpr ⟨outcomes, hresult⟩) h
    obtain ⟨e, hfailed⟩ := hfailed
    have hwritten := (DirectorySink.persistAll_edited hopen' hr.isBareName).1
    have hedited : Disk.EditedIn place' (d.listed place') _ _ :=
      DirectorySink.store_edited_of_error hopen' hr.isBareName (Prod.ext hfailed rfl)
    rw [← hdisk] at hedited
    constructor
    · have hkept : (r.into dir d).2.manifestAt place' = opened.manifestAt place' :=
        Disk.manifestAt_congr ((hedited.get?_of_notMem hmanifest).trans
          (hwritten.get?_of_notMem fun hmem => (hr manifestFile hmem).2 rfl))
      rw [Disk.listed, hkept, hgrows.manifestAt, Disk.listed]
    · intro name hname
      rw [Disk.hasFile_congr (hedited.get?_of_notMem hname),
        DirectorySink.hasFile_persistAll_iff hopen' hr.isBareName, hwrote]
      exact or_congr_left hgrows.hasFile_iff

/-- **One run and the files that are not listed**: those stay that it does not complete with, and
    those join them that it writes and then fails. -/
theorem unlisted_into_iff {name : String} (hr : r.NamesFiles)
    (hplace : ∀ p, (r.into dir d).2.OpensAt dir p → p = place)
    (hmanifest : manifestFile ∉ d.listed place) (hbare : isBareName name = true)
    (hne : name ≠ manifestFile) :
    (r.into dir d).2.HasFile place name ∧ name ∉ (r.into dir d).2.listed place ↔
      (d.HasFile place name ∧ name ∉ d.listed place) ∧ (r.Completes dir d → name ∉ r.names) ∨
        ¬ r.Completes dir d ∧ name ∈ r.written dir d ∧ name ∉ d.listed place := by
  by_cases hc : r.Completes dir d
  · obtain ⟨place', hopen, hlisted, hfiles⟩ := exists_place_of_completes hr hc
    obtain rfl := hplace place' hopen
    rw [hlisted, hfiles name hbare hne]
    tauto
  · obtain ⟨hlisted, hfiles⟩ := listed_of_failed hr hc hplace hmanifest
    rw [hlisted]
    by_cases hname : name ∈ d.listed place
    · tauto
    · rw [hfiles name hname]
      tauto

theorem manifestFile_notMem_listed_into (hr : r.NamesFiles)
    (hplace : ∀ p, (r.into dir d).2.OpensAt dir p → p = place)
    (hmanifest : manifestFile ∉ d.listed place) :
    manifestFile ∉ (r.into dir d).2.listed place := by
  by_cases hc : r.Completes dir d
  · obtain ⟨place', hopen, hlisted, -⟩ := exists_place_of_completes hr hc
    obtain rfl := hplace place' hopen
    rw [hlisted]
    exact fun hmem => (hr manifestFile hmem).2 rfl
  · rw [(listed_of_failed hr hc hplace hmanifest).1]
    exact hmanifest

/-- A run completes if its sources can be read and no directory stands where a file is to be written
    or removed. -/
theorem completes_of_free (hbare : ∀ a ∈ r.artifacts, DiskPath.isBareName a.id = true)
    {c : LoweredCrate} (hlower : r.sources.lower = .ok c) (hopen : d.OpensAt dir place)
    (hfree : ∀ name ∈ manifestFile :: r.names ++ d.listed place,
      d.get? (place ++ [name]) ≠ some .directory) : r.Completes dir d := by
  obtain ⟨outcomes, st, hstore⟩ :=
    DirectorySink.exists_store (opensAt_start (d := d) hopen) hbare hfree
  refine ⟨r.host.report (r.host.output c) outcomes, ?_⟩
  rw [artifacts_of_lower hlower] at hstore
  change Sink.store _ (⟨⟨dir, true, d.manifestAt place, {}⟩, d⟩ : DirectoryState) = _ at hstore
  rw [into, DirectorySink.new_of_opensAt hopen]
  dsimp only
  rw [Host.generate_of_lower hlower, hstore]
  rfl

/-- A run cannot complete if a directory stands where one of its files goes. -/
theorem not_completes_of_directory (hr : r.NamesFiles) (hopen : d.OpensAt dir place)
    {name : String} (hname : name ∈ r.names) (hdir : d.get? (place ++ [name]) = some .directory) :
    ¬ r.Completes dir d := by
  intro h
  obtain ⟨place', hopen', -, hfiles⟩ := exists_place_of_completes hr h
  obtain rfl := (hopen.mono fun _ => directory_into hr).unique hopen'
  obtain ⟨hbare, hne⟩ := hr name hname
  obtain ⟨content, hfile⟩ := (hfiles name hbare hne).mpr (.inl hname)
  rw [directory_into hr hdir] at hfile
  cases hfile

/-- The first artifact is written if nothing is there. -/
theorem mem_written_of_vacant {a : Artifact} {rest : List Artifact} (hr : r.NamesFiles)
    (hopen : d.OpensAt dir place) (hartifacts : r.artifacts = a :: rest)
    (hvacant : d.get? (place ++ [a.id]) = none) : a.id ∈ r.written dir d := by
  have ha : isBareName a.id = true := hr.isBareName a (hartifacts ▸ List.mem_cons_self)
  have hopen' := opensAt_start (d := d) hopen
  have hholds : (start dir place d d).sink.holds (start dir place d d).disk a = false := by
    rw [← Bool.not_eq_true, DirectorySink.holds_iff hopen' ha]
    rintro ⟨text, hfile, -⟩
    change d.get? _ = _ at hfile
    rw [hvacant] at hfile
    cases hfile
  have hpersist := DirectorySink.persist_eq hopen' ha
  change Sink.persist (start dir place d d) a = _ at hpersist
  rw [hholds, if_neg Bool.false_ne_true, if_neg (by
    change d.get? _ ≠ _
    rw [hvacant]
    nofun)] at hpersist
  rw [written, DirectorySink.new_of_opensAt hopen]
  change a.id ∈ Sink.writtenNames r.artifacts (start dir place d d)
  rw [hartifacts, Sink.writtenNames, hpersist]
  exact List.mem_cons_self

/-! ## 4. Runs one after the other -/

/-- The disk after runs into a directory. -/
def afterRuns (dir : String) (runs : List HostRun) (d : Disk) : Disk :=
  runs.foldl (fun d r => (r.into dir d).2) d

/-- Runs into a directory with the disks they start from. -/
def history (dir : String) : List HostRun → Disk → List (HostRun × Disk)
  | [], _ => []
  | r :: rest, d => (r, d) :: history dir rest (r.into dir d).2

/-- A run that failed wrote a file that the manifest did not list, and no run that completed since
    then stored it. -/
def LeftBehind (dir : String) (place : DiskPlace) (name : String)
    (runs : List (HostRun × Disk)) : Prop :=
  ∃ earlier r d later, runs = earlier ++ (r, d) :: later ∧ ¬ r.Completes dir d ∧
    name ∈ r.written dir d ∧ name ∉ d.listed place ∧
    ∀ s ∈ later, s.1.Completes dir s.2 → name ∉ s.1.names

variable {runs : List HostRun} {name : String}

theorem afterRuns_concat :
    afterRuns dir (runs ++ [r]) d = (r.into dir (afterRuns dir runs d)).2 := by
  rw [afterRuns, List.foldl_append]
  rfl

theorem history_concat :
    history dir (runs ++ [r]) d = history dir runs d ++ [(r, afterRuns dir runs d)] := by
  induction runs generalizing d with
  | nil => rfl
  | cons r' rest ih => exact congrArg _ ih

theorem mem_of_mem_history {s : HostRun × Disk} (h : s ∈ history dir runs d) : s.1 ∈ runs := by
  induction runs generalizing d with
  | nil => cases h
  | cons r rest ih =>
    rcases List.mem_cons.mp h with rfl | h
    · exact List.mem_cons_self
    · exact List.mem_cons_of_mem _ (ih h)

theorem LeftBehind.exists_mem {runs : List (HostRun × Disk)} (h : LeftBehind dir place name runs) :
    ∃ s ∈ runs, name ∈ s.1.written dir s.2 := by
  obtain ⟨earlier, r, d, later, rfl, -, hwrote, -⟩ := h
  exact ⟨(r, d), List.mem_append_right _ List.mem_cons_self, hwrote⟩

/-- One more run leaves a file behind, or is passed by what earlier runs left behind. -/
theorem leftBehind_concat_iff {runs : List (HostRun × Disk)} :
    LeftBehind dir place name (runs ++ [(r, d)]) ↔
      LeftBehind dir place name runs ∧ (r.Completes dir d → name ∉ r.names) ∨
        ¬ r.Completes dir d ∧ name ∈ r.written dir d ∧ name ∉ d.listed place := by
  constructor
  · rintro ⟨earlier, r', d', later, hsplit, hfails, hwrote, hunlisted, hlater⟩
    rcases List.eq_nil_or_concat later with rfl | ⟨later', s, rfl⟩
    · obtain ⟨-, hlast⟩ := List.append_inj' hsplit rfl
      cases hlast
      exact .inr ⟨hfails, hwrote, hunlisted⟩
    · rw [List.concat_eq_append, ← List.cons_append, ← List.append_assoc] at hsplit
      obtain ⟨hruns, hlast⟩ := List.append_inj' hsplit rfl
      cases hlast
      rw [List.concat_eq_append] at hlater
      refine .inl ⟨⟨earlier, r', d', later', hruns, hfails, hwrote, hunlisted, fun s hs => ?_⟩, ?_⟩
      · exact hlater s (List.mem_append_left _ hs)
      · exact hlater (r, d) (List.mem_append_right _ (List.mem_singleton_self _))
  · rintro (⟨⟨earlier, r', d', later, rfl, hfails, hwrote, hunlisted, hlater⟩, hother⟩ |
      ⟨hfails, hwrote, hunlisted⟩)
    · refine ⟨earlier, r', d', later ++ [(r, d)], by simp, hfails, hwrote, hunlisted, ?_⟩
      intro s hs
      rcases List.mem_append.mp hs with hs | hs
      · exact hlater s hs
      · rw [List.mem_singleton.mp hs]
        exact hother
    · exact ⟨runs, r, d, [], rfl, hfails, hwrote, hunlisted, nofun⟩

theorem directory_afterRuns (hnames : ∀ r ∈ runs, r.NamesFiles) {p : DiskPlace}
    (h : d.get? p = some .directory) : (afterRuns dir runs d).get? p = some .directory := by
  induction runs generalizing d with
  | nil => exact h
  | cons r rest ih =>
    exact ih (fun s hs => hnames s (List.mem_cons_of_mem _ hs))
      (directory_into (hnames r List.mem_cons_self) h)

/-- **The files that are not listed after any runs**, as far as a run wrote them, are those left
    behind. -/
theorem unlisted_afterRuns_iff (hnames : ∀ r ∈ runs, r.NamesFiles)
    (hplace : ∀ p, (afterRuns dir runs d).OpensAt dir p → p = place)
    (hmanifest : manifestFile ∉ d.listed place) (hbare : isBareName name = true)
    (hne : name ≠ manifestFile) :
    manifestFile ∉ (afterRuns dir runs d).listed place ∧
      ((∃ s ∈ history dir runs d, name ∈ s.1.written dir s.2) ∧
          (afterRuns dir runs d).HasFile place name ∧ name ∉ (afterRuns dir runs d).listed place ↔
        LeftBehind dir place name (history dir runs d)) := by
  -- from the last run backwards: it decides what of the earlier files is listed
  induction runs using List.reverseRecOn with
  | nil =>
    refine ⟨hmanifest, iff_of_false ?_ ?_⟩
    · rintro ⟨⟨s, hs, -⟩, -⟩
      cases hs
    · intro h
      obtain ⟨s, hs, -⟩ := h.exists_mem
      cases hs
  | append_singleton runs r ih =>
    have hr : r.NamesFiles := hnames r (List.mem_append_right _ (List.mem_singleton_self _))
    rw [afterRuns_concat] at hplace ⊢
    obtain ⟨hmanifest₁, hiff⟩ := ih (fun s hs => hnames s (List.mem_append_left _ hs))
      (fun p hp => hplace p (hp.mono fun _ => directory_into hr))
    rw [history_concat, leftBehind_concat_iff, ← hiff]
    refine ⟨manifestFile_notMem_listed_into hr hplace hmanifest₁, ?_⟩
    rw [unlisted_into_iff hr hplace hmanifest₁ hbare hne]
    have hwrote : (∃ s ∈ history dir runs d ++ [(r, afterRuns dir runs d)],
        name ∈ s.1.written dir s.2) ↔ (∃ s ∈ history dir runs d, name ∈ s.1.written dir s.2) ∨
          name ∈ r.written dir (afterRuns dir runs d) := by
      simp only [List.mem_append, List.mem_singleton, or_and_right, exists_or, exists_eq_left]
    rw [hwrote]
    constructor
    · rintro ⟨hwrote, ⟨⟨hfile, hunlisted⟩, hstays⟩ | hfailed⟩
      · rcases hwrote with hearlier | hwrote
        · exact .inl ⟨⟨hearlier, hfile, hunlisted⟩, hstays⟩
        · -- a run that writes the file again and completes would have stored it
          exact .inr ⟨fun hc => hstays hc (written_subset hwrote), hwrote, hunlisted⟩
      · exact .inr hfailed
    · rintro (⟨⟨hearlier, hunlisted⟩, hstays⟩ | hfailed)
      · exact ⟨.inl hearlier, .inl ⟨hunlisted, hstays⟩⟩
      · exact ⟨.inr hfailed.2.1, .inr hfailed⟩

end HostRun

open HostRun in
/-- **What a completed run leaves of earlier ones.** Runs, each with a sink of its own, go into one
    directory one after the other, and the last one completes. A file that an earlier run wrote and
    the last one did not store is there afterwards exactly if a run that failed wrote it while the
    manifest did not list it, and no run that completed since then stored it. -/
theorem earlier_output_remains_iff {dir : String} {before : Disk} {runs : List HostRun}
    {last : HostRun} {name : String} (hnames : ∀ r ∈ runs ++ [last], r.NamesFiles)
    (hmanifest : ∀ place, (afterRuns dir (runs ++ [last]) before).OpensAt dir place →
      manifestFile ∉ before.listed place)
    (hlast : last.Completes dir (afterRuns dir runs before)) (hother : name ∉ last.names) :
    ∃ place, (afterRuns dir (runs ++ [last]) before).OpensAt dir place ∧
      ((∃ s ∈ history dir runs before, name ∈ s.1.written dir s.2) ∧
          (afterRuns dir (runs ++ [last]) before).HasFile place name ↔
        LeftBehind dir place name (history dir runs before)) := by
  have hr : last.NamesFiles := hnames last (List.mem_append_right _ (List.mem_singleton_self _))
  have hruns : ∀ r ∈ runs, r.NamesFiles := fun r h => hnames r (List.mem_append_left _ h)
  obtain ⟨place, hopen, -, hfiles⟩ := exists_place_of_completes hr hlast
  rw [afterRuns_concat] at hmanifest ⊢
  refine ⟨place, hopen, ?_⟩
  have hplace : ∀ p, (afterRuns dir runs before).OpensAt dir p → p = place :=
    fun p hp => (hp.mono fun _ => directory_into hr).unique hopen
  have hrun : (∃ s ∈ history dir runs before, name ∈ s.1.written dir s.2) →
      ((last.into dir (afterRuns dir runs before)).2.HasFile place name ↔
        LeftBehind dir place name (history dir runs before)) := by
    rintro ⟨s, hs, hwrote⟩
    obtain ⟨hbare, hne⟩ := hruns s.1 (mem_of_mem_history hs) name (written_subset hwrote)
    rw [hfiles name hbare hne, or_iff_right hother,
      ← (unlisted_afterRuns_iff hruns hplace (hmanifest place hopen) hbare hne).2]
    exact (and_iff_right ⟨s, hs, hwrote⟩).symm
  constructor
  · rintro ⟨hwrote, hfile⟩
    exact (hrun hwrote).mp hfile
  · intro hleft
    exact ⟨hleft.exists_mem, (hrun hleft.exists_mem).mpr hleft⟩

/-! ## 5. Two runs -/

/-- A run on a marked struct. -/
def widgetRun : HostRun := ⟨⟨{}, .standard, rfl⟩, markedSources⟩

/-- A run on a file without items, by a host that has another name for the marker declarations. -/
def renamedRun : HostRun :=
  ⟨⟨{ run := { markersId := "markers.g.rs" } }, .standard, rfl⟩, oneFile ""⟩

/-- The run on the struct stores the marker declarations, then the struct's extension. -/
theorem artifacts_widgetRun :
    ∃ c a, markedSources.lower = .ok c ∧
      widgetRun.artifacts = [Generator.standard.markerDeclarations, a] ∧
      a.id = "Widget.autolog.g.rs" := by
  obtain ⟨c, line, hc, hstruct⟩ := exists_isStruct_markedSources
  refine ⟨c, .ofOwner "" "Widget" ".autolog.g.rs" (Renderer.standard.extension "" "Widget"
    [Renderer.standard.snippet "Widget" .declaration]), hc, ?_, by decide⟩
  rw [HostRun.artifacts_of_lower (r := widgetRun) hc]
  exact congrArg _ (hstruct.artifacts (by decide) .standard rfl)

theorem names_widgetRun : widgetRun.names = ["autolog_markers.g.rs", "Widget.autolog.g.rs"] := by
  obtain ⟨c, a, -, hartifacts, ha⟩ := artifacts_widgetRun
  rw [HostRun.names, hartifacts, List.map_cons, List.map_cons, ha]
  rfl

theorem itemsOf_empty : Source.itemsOf "" = .ok [] := by
  have hempty : (Source.itemsOf "").toOption.map (·.length) = some 0 := by decide +kernel
  cases hread : Source.itemsOf "" with
  | error line =>
    rw [hread] at hempty
    cases hempty
  | ok items =>
    rw [hread] at hempty
    rw [List.length_eq_zero_iff.mp (Option.some.inj hempty)]

/-- The other run stores the marker declarations only. -/
theorem artifacts_renamedRun :
    ∃ c, renamedRun.sources.lower = .ok c ∧ renamedRun.names = ["markers.g.rs"] := by
  have hlower := lower_oneFile itemsOf_empty
  refine ⟨_, hlower, ?_⟩
  rw [HostRun.names, HostRun.artifacts_of_lower (r := renamedRun) hlower]
  rfl

theorem namesFiles_widgetRun : widgetRun.NamesFiles := by
  unfold HostRun.NamesFiles
  rw [names_widgetRun]
  decide

theorem namesFiles_renamedRun : renamedRun.NamesFiles := by
  obtain ⟨c, -, hnames⟩ := artifacts_renamedRun
  unfold HostRun.NamesFiles
  rw [hnames]
  decide

theorem namesFiles_bothRuns : ∀ r ∈ [widgetRun] ++ [renamedRun], r.NamesFiles := by
  intro r hr
  rcases List.mem_append.mp hr with hr | hr
  · rw [List.mem_singleton.mp hr]
    exact namesFiles_widgetRun
  · rw [List.mem_singleton.mp hr]
    exact namesFiles_renamedRun

/-- A disk with a directory for output. -/
def openDisk : Disk := ({} : Disk).put ["out"] .directory

theorem free_openDisk (name : String) : openDisk.get? (["out"] ++ [name]) ≠ some .directory := by
  simp [openDisk]

/-- The same with a directory in the place of the struct's extension. -/
def blockedDisk : Disk := openDisk.put ["out", "Widget.autolog.g.rs"] .directory

theorem get?_blockedDisk (name : String) :
    blockedDisk.get? (["out"] ++ [name]) =
      if name = "Widget.autolog.g.rs" then some .directory else none := by
  simp [blockedDisk, openDisk]

theorem opensAt_blockedDisk : blockedDisk.OpensAt "out" ["out"] := by
  have hopen : openDisk.OpensAt "out" ["out"] := rfl
  refine hopen.mono fun p hp => ?_
  rw [blockedDisk, Disk.get?_put (by simp)]
  split
  · rfl
  · exact hp

theorem listed_blockedDisk : blockedDisk.listed ["out"] = [] := by
  rw [Disk.listed, Disk.manifestAt, get?_blockedDisk, if_neg (by decide)]
  rfl

open HostRun in
/-- Both runs complete, and the first leaves nothing. -/
theorem earlier_output_of_completed_run_gone :
    widgetRun.Completes "out" openDisk ∧
      "autolog_markers.g.rs" ∈ widgetRun.written "out" openDisk ∧
      renamedRun.Completes "out" (afterRuns "out" [widgetRun] openDisk) ∧
      ¬ (afterRuns "out" [widgetRun, renamedRun] openDisk).HasFile ["out"]
        "autolog_markers.g.rs" := by
  obtain ⟨c, a, hc, hartifacts, -⟩ := artifacts_widgetRun
  obtain ⟨c', hc', hnames'⟩ := artifacts_renamedRun
  have hr := namesFiles_widgetRun
  have hopen : openDisk.OpensAt "out" ["out"] := rfl
  have hcompletes : widgetRun.Completes "out" openDisk :=
    completes_of_free hr.isBareName hc hopen fun name _ => free_openDisk name
  have hwrote : "autolog_markers.g.rs" ∈ widgetRun.written "out" openDisk :=
    mem_written_of_vacant hr hopen hartifacts rfl
  have hopen₁ : (afterRuns "out" [widgetRun] openDisk).OpensAt "out" ["out"] :=
    hopen.mono fun _ => directory_into hr
  have hlast : renamedRun.Completes "out" (afterRuns "out" [widgetRun] openDisk) :=
    completes_of_free namesFiles_renamedRun.isBareName hc' hopen₁ fun name _ hdir =>
      free_openDisk name ((directory_into_iff_of_opensAt hr hopen _).mp hdir)
  have hother : "autolog_markers.g.rs" ∉ renamedRun.names := by
    rw [hnames']
    decide
  have hopen₂ : (afterRuns "out" ([widgetRun] ++ [renamedRun]) openDisk).OpensAt "out" ["out"] :=
    hopen.mono fun _ => directory_afterRuns namesFiles_bothRuns
  have hmanifest : ∀ place, (afterRuns "out" ([widgetRun] ++ [renamedRun]) openDisk).OpensAt "out"
      place → manifestFile ∉ openDisk.listed place := by
    intro place hplace
    rw [hplace.unique hopen₂]
    exact List.not_mem_nil
  obtain ⟨place, hplace, hiff⟩ :=
    earlier_output_remains_iff namesFiles_bothRuns hmanifest hlast hother
  obtain rfl := hplace.unique hopen₂
  refine ⟨hcompletes, hwrote, hlast, fun hfile => ?_⟩
  obtain ⟨earlier, r, d, later, hsplit, hfails, -⟩ :=
    hiff.mp ⟨⟨(widgetRun, openDisk), List.mem_singleton_self _, hwrote⟩, hfile⟩
  have hmem : (r, d) ∈ history "out" [widgetRun] openDisk := by
    rw [hsplit]
    exact List.mem_append_right _ List.mem_cons_self
  cases List.mem_singleton.mp hmem
  exact hfails hcompletes

open HostRun in
/-- **What a failed run wrote remains.** The run on the struct writes the marker declarations and
    fails at the extension; the other run completes, stores neither, and the marker declarations of
    the first one are still there. -/
theorem output_of_failed_run_remains :
    "autolog_markers.g.rs" ∈ widgetRun.written "out" blockedDisk ∧
      renamedRun.Completes "out" (afterRuns "out" [widgetRun] blockedDisk) ∧
      "autolog_markers.g.rs" ∉ renamedRun.names ∧
      (afterRuns "out" [widgetRun, renamedRun] blockedDisk).OpensAt "out" ["out"] ∧
      (afterRuns "out" [widgetRun, renamedRun] blockedDisk).HasFile ["out"]
        "autolog_markers.g.rs" := by
  simp only [afterRuns, List.foldl_cons, List.foldl_nil]
  obtain ⟨c, a, -, hartifacts, -⟩ := artifacts_widgetRun
  obtain ⟨c', hc', hnames'⟩ := artifacts_renamedRun
  have hr := namesFiles_widgetRun
  have hopen := opensAt_blockedDisk
  have hextension : "Widget.autolog.g.rs" ∈ widgetRun.names := by
    rw [names_widgetRun]
    decide
  have hfails : ¬ widgetRun.Completes "out" blockedDisk :=
    not_completes_of_directory hr hopen hextension (by rw [get?_blockedDisk, if_pos rfl])
  have hwrote : "autolog_markers.g.rs" ∈ widgetRun.written "out" blockedDisk :=
    mem_written_of_vacant hr hopen hartifacts ((get?_blockedDisk _).trans (if_neg (by decide)))
  -- after the failed run the file is there, and nothing is listed
  have hopen₁ : (widgetRun.into "out" blockedDisk).2.OpensAt "out" ["out"] :=
    hopen.mono fun _ => directory_into hr
  obtain ⟨hlisted, hfiles⟩ := listed_of_failed hr hfails (fun p hp => hp.unique hopen₁)
    (by rw [listed_blockedDisk]; exact List.not_mem_nil)
  rw [listed_blockedDisk] at hlisted hfiles
  have hfile := (hfiles "autolog_markers.g.rs" List.not_mem_nil).mpr (.inr hwrote)
  have hlast : renamedRun.Completes "out" (widgetRun.into "out" blockedDisk).2 := by
    have hfree : ∀ name ∈ [manifestFile, "markers.g.rs"], name ≠ "Widget.autolog.g.rs" := by decide
    refine completes_of_free namesFiles_renamedRun.isBareName hc' hopen₁ fun name hname hdir => ?_
    rw [hlisted, hnames', List.append_nil] at hname
    rw [directory_into_iff_of_opensAt hr hopen, get?_blockedDisk, if_neg (hfree name hname)] at hdir
    cases hdir
  have hother : "autolog_markers.g.rs" ∉ renamedRun.names := by
    rw [hnames']
    decide
  obtain ⟨place, hplace, -, hkept⟩ := exists_place_of_completes namesFiles_renamedRun hlast
  have hopen₂ : (renamedRun.into "out" (widgetRun.into "out" blockedDisk).2).2.OpensAt "out"
      ["out"] := hopen₁.mono fun _ => directory_into namesFiles_renamedRun
  rw [hplace.unique hopen₂, hlisted] at hkept
  refine ⟨hwrote, hlast, hother, hopen₂, ?_⟩
  exact (hkept "autolog_markers.g.rs" (by decide) (by decide)).mpr (.inr ⟨hfile, List.not_mem_nil⟩)

end LogMarkers
