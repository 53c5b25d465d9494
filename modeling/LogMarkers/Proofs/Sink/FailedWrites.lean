import LogMarkers.Proofs.Sink.Confinement
import LogMarkers.Proofs.Sink.ManifestOnDisk
import LogMarkers.Proofs.Sink.MarkersFile

/-!
# Failed writes are listed

An artifact is listed before its file is written, so one whose file could not be written is in the
manifest of the run as well, if the run is finished all the same. A manifest is right exactly if no
write failed.

* `Sink.persistEach`: artifacts are stored one after the other, whatever comes of each;
  `Sink.exists_persistAll_iff`: without a failure this is how a run stores them;
* `DirectoryState.Matches`: the file of an entry has the fingerprint that is listed.
  `DirectorySink.matches_persist_iff` says this of one artifact that was stored,
  `DirectorySink.matches_persistEach_iff` of all, `DirectorySink.matches_finish_iff` once the run is
  finished: it holds exactly for those that did not fail;
* `DirectoryState.Lists`: what the manifest of the last run has.
  `DirectorySink.lists_of_persistEach`: it has all, those that failed too;
* `manifest_lists_stored_iff`: when it is a manifest of what was stored, which has two sides
  (`DirectorySink.lists_stored_iff`, `DirectorySink.listed_matches_iff`).
-/

namespace LogMarkers

open DiskPath

/-! ## 1. Going on after a failure -/

namespace Sink

variable {σ : Type} [Sink σ]

/-- Store artifacts one after the other, whatever comes of each: the artifacts with what storing
    them gave, and the sink after all of them. -/
def persistEach : List Artifact → σ → List (Artifact × Except Failure WriteOutcome) × σ
  | [], sink => ([], sink)
  | a :: rest, sink =>
    let first := persist sink a
    let others := persistEach rest first.2
    ((a, first.1) :: others.1, others.2)

/-- The artifacts of which storing succeeded. -/
def stored (calls : List (Artifact × Except Failure WriteOutcome)) : List Artifact :=
  (calls.filter (·.2.isOk)).map (·.1)

/-- Storing succeeded each time. -/
def NoneFailed (calls : List (Artifact × Except Failure WriteOutcome)) : Prop :=
  ∀ call ∈ calls, call.2.isOk = true

theorem artifacts_persistEach (artifacts : List Artifact) (s : σ) :
    (persistEach artifacts s).1.map (·.1) = artifacts := by
  induction artifacts generalizing s with
  | nil => rfl
  | cons a rest ih => exact congrArg (a :: ·) (ih (persist s a).2)

/-- As many were stored as there are exactly if none failed. -/
theorem length_stored_eq_iff {calls : List (Artifact × Except Failure WriteOutcome)} :
    (stored calls).length = calls.length ↔ NoneFailed calls := by
  rw [stored, List.length_map, List.length_filter_eq_length_iff, NoneFailed]

theorem stored_of_noneFailed {artifacts : List Artifact} {s : σ}
    (h : NoneFailed (persistEach artifacts s).1) :
    stored (persistEach artifacts s).1 = artifacts := by
  rw [stored, List.filter_eq_self.mpr h, artifacts_persistEach]

/-- **Without a failure** this is how a run stores its artifacts. -/
theorem exists_persistAll_iff {artifacts : List Artifact} {s s' : σ} :
    (∃ outcomes, persistAll artifacts s = (.ok outcomes, s')) ↔
      NoneFailed (persistEach artifacts s).1 ∧ (persistEach artifacts s).2 = s' := by
  induction artifacts generalizing s with
  | nil => simp [persistAll, persistEach, NoneFailed]
  | cons a rest ih =>
    rw [persistEach, NoneFailed, List.forall_mem_cons]
    rcases hpersist : persist s a with ⟨result, s₁⟩
    cases result with
    | error e =>
      rw [persistAll_cons_of_error hpersist]
      simp [Except.isOk, Except.toBool]
    | ok outcome =>
      dsimp only
      have hfirst : (Except.ok outcome : Except Failure WriteOutcome).isOk = true := rfl
      rw [and_iff_right hfirst]
      refine Iff.trans ⟨?_, ?_⟩ ih
      · rintro ⟨outcomes, h⟩
        obtain ⟨_, _, tail, hfirst, htail, -⟩ := exists_of_persistAll_cons h
        rw [hpersist] at hfirst
        cases hfirst
        exact ⟨tail, htail⟩
      · rintro ⟨tail, htail⟩
        exact ⟨outcome :: tail, by rw [persistAll, hpersist]; dsimp only; rw [htail]⟩

end Sink

/-! ## 2. Entries and their files -/

namespace DirectoryState

variable {st st' : DirectoryState} {e : ManifestEntry}

/-- The file of an entry has a text with the fingerprint that is listed. -/
def Matches (st : DirectoryState) (e : ManifestEntry) : Prop :=
  ∃ text, st.disk.readText (st.sink.pathOf e.id) = .ok text ∧
    Artifact.fingerprint ⟨e.id, e.kind, "", "", text⟩ = e.fingerprint

theorem matches_iff (he : isBareName e.id = true) :
    st.Matches e ↔ ∃ place, st.disk.OpensAt st.sink.dir place ∧
      ∃ text, st.disk.get? (place ++ [e.id]) = some (.file text.toUTF8) ∧
        Artifact.fingerprint ⟨e.id, e.kind, "", "", text⟩ = e.fingerprint := by
  constructor
  · rintro ⟨text, hread, hprint⟩
    obtain ⟨place, hopen⟩ := Disk.exists_opensAt_of_readText he hread
    exact ⟨place, hopen, text, (Disk.readText_inside_eq_ok_iff hopen he).mp hread, hprint⟩
  · rintro ⟨place, hopen, text, hget, hprint⟩
    exact ⟨text, (Disk.readText_inside_eq_ok_iff hopen he).mpr hget, hprint⟩

/-- What is edited under the directory matters to an entry only in its own file. -/
theorem matches_congr (he : isBareName e.id = true) (hdir : st'.sink.dir = st.sink.dir)
    (hedited : Disk.EditedUnder st.sink.dir st.disk st'.disk)
    (hsame : ∀ place, st.disk.OpensAt st.sink.dir place →
      st'.disk.get? (place ++ [e.id]) = st.disk.get? (place ++ [e.id])) :
    st'.Matches e ↔ st.Matches e := by
  rw [matches_iff he, matches_iff he, hdir]
  refine exists_congr fun place => ?_
  rw [hedited.opensAt_iff]
  exact and_congr_right fun hopen => by rw [hsame place hopen]

end DirectoryState

namespace DirectorySink

open DirectoryState

variable {st st' : DirectoryState} {a : Artifact} {artifacts : List Artifact} {e : ManifestEntry}

theorem holds_iff_matches : st.sink.holds st.disk a = true ↔ st.Matches (.of a) := by
  unfold holds Matches
  change _ ↔ ∃ text, st.disk.readText (st.sink.pathOf a.id) = .ok text ∧
    { a with text := text }.fingerprint = a.fingerprint
  cases st.disk.readText (st.sink.pathOf a.id) with
  | error e => simp
  | ok text => simp

/-- **An artifact is in its file once it was stored, and it is not if that failed.** -/
theorem matches_persist_iff (st : DirectoryState) (a : Artifact) :
    (persist st a).2.Matches (.of a) ↔ (persist st a).1.isOk = true := by
  unfold persist
  dsimp only
  split
  · rename_i hholds
    exact iff_of_true (holds_iff_matches.mp hholds) rfl
  · rename_i hholds
    split
    · rename_i disk hwritten
      exact iff_of_true ⟨a.text, Disk.readText_of_writeText hwritten, rfl⟩ rfl
    · exact iff_of_false (fun h => hholds (holds_iff_matches.mpr h)) Bool.false_ne_true

/-- Storing an artifact leaves the files of others alone. -/
theorem matches_persist_of_ne (ha : isBareName a.id = true) (he : isBareName e.id = true)
    (hne : e.id ≠ a.id) : (persist st a).2.Matches e ↔ st.Matches e := by
  refine matches_congr he (Call.dir_run st (.persist a))
    (persist_editedUnder st (isBareName_iff.mp ha).1) fun place hopen => ?_
  exact (persist_edited hopen ha).get?_of_notMem fun hmem => hne (List.mem_singleton.mp hmem)

theorem matches_persistEach_of_notMem (hbare : ∀ a ∈ artifacts, isBareName a.id = true)
    (he : isBareName e.id = true) (hother : e.id ∉ artifacts.map (·.id)) :
    (Sink.persistEach artifacts st).2.Matches e ↔ st.Matches e := by
  induction artifacts generalizing st with
  | nil => rfl
  | cons a rest ih =>
    rw [List.map_cons, List.mem_cons, not_or] at hother
    exact (ih (fun b hb => hbare b (List.mem_cons_of_mem _ hb)) hother.2).trans
      (matches_persist_of_ne (hbare a List.mem_cons_self) he hother.1)

/-- **Artifacts with distinct names are in their files** after all were tried, exactly as far as
    storing them succeeded. -/
theorem matches_persistEach_iff (hbare : ∀ a ∈ artifacts, isBareName a.id = true)
    (hdistinct : (artifacts.map (·.id)).Nodup) :
    ∀ call ∈ (Sink.persistEach artifacts st).1,
      (Sink.persistEach artifacts st).2.Matches (.of call.1) ↔ call.2.isOk = true := by
  induction artifacts generalizing st with
  | nil => nofun
  | cons a rest ih =>
    rw [List.map_cons, List.nodup_cons] at hdistinct
    have hrest : ∀ b ∈ rest, isBareName b.id = true :=
      fun b hb => hbare b (List.mem_cons_of_mem _ hb)
    intro call hcall
    rcases List.mem_cons.mp hcall with rfl | hcall
    · -- the later artifacts have other names
      have hlater : (Sink.persistEach rest (persist st a).2).2.Matches (.of a) ↔
          (persist st a).2.Matches (.of a) :=
        matches_persistEach_of_notMem (e := .of a) hrest (hbare a List.mem_cons_self) hdistinct.1
      exact hlater.trans (matches_persist_iff st a)
    · exact ih hrest hdistinct.2 call hcall

/-- Finishing a run leaves the files alone that it lists, unless the manifest goes there. -/
theorem matches_finish_iff (he : isBareName e.id = true) (hne : e.id ≠ manifestFile)
    (hlisted : e ∈ st.sink.pending.entries) : (finish st).2.Matches e ↔ st.Matches e :=
  matches_congr he (Call.dir_run st .finish) (finish_editedUnder st) fun _ hopen =>
    get?_finish_of_listed hopen (List.mem_map_of_mem hlisted) hne

/-! ## 3. What the manifest lists -/

/-- All artifacts are listed, whatever came of them. -/
theorem persistEach_sink (artifacts : List Artifact) (st : DirectoryState) :
    (Sink.persistEach artifacts st).2.sink =
      { st.sink with pending := ⟨st.sink.pending.entries ++ artifacts.map .of⟩ } := by
  induction artifacts generalizing st with
  | nil => simp [Sink.persistEach]
  | cons a rest ih =>
    refine (ih (persist st a).2).trans ?_
    rw [persist_sink, list]
    simp

end DirectorySink

/-- The manifest of the last run has these entries: in the sink and, if one is written, on the
    disk. -/
structure DirectoryState.Lists (st : DirectoryState) (entries : List ManifestEntry) : Prop where
  sink : st.sink.manifest = ⟨entries⟩
  disk : st.sink.writeManifest = true →
    Manifest.load st.disk (st.sink.pathOf manifestFile) = .ok ⟨entries⟩

namespace DirectorySink

variable {st st' : DirectoryState} {artifacts : List Artifact}

/-- A finished run lists what was pending. -/
theorem lists_of_finish (h : finish st = (.ok (), st')) : st'.Lists st.sink.pending.entries := by
  obtain ⟨disk, -, hstored, hsink⟩ := exists_of_finish h
  refine ⟨by rw [hsink]; rfl, fun hwrite => ?_⟩
  rw [hsink] at hwrite ⊢
  exact Manifest.load_of_writeText (writeText_of_storeManifest hwrite hstored)

/-- **The manifest lists every artifact that was tried**, in order, after what was pending. -/
theorem lists_of_persistEach (h : finish (Sink.persistEach artifacts st).2 = (.ok (), st')) :
    st'.Lists (st.sink.pending.entries ++ artifacts.map .of) := by
  have hlists := lists_of_finish h
  rw [persistEach_sink] at hlists
  exact hlists

end DirectorySink

/-! ## 4. When it is a manifest of what was stored -/

namespace DirectorySink

variable {st st' : DirectoryState} {artifacts : List Artifact}

/-- **What was stored is all that is listed** exactly if nothing failed. -/
theorem lists_stored_iff (h : finish (Sink.persistEach artifacts st).2 = (.ok (), st')) :
    st'.Lists (st.sink.pending.entries ++
        (Sink.stored (Sink.persistEach artifacts st).1).map .of) ↔
      Sink.NoneFailed (Sink.persistEach artifacts st).1 := by
  have hlists := lists_of_persistEach h
  constructor
  · -- all are listed, so if only the stored ones are, these are all
    intro hstored
    have hsame := hstored.sink.symm.trans hlists.sink
    rw [Manifest.mk.injEq, List.append_cancel_left_eq] at hsame
    refine Sink.length_stored_eq_iff.mp ?_
    calc (Sink.stored (Sink.persistEach artifacts st).1).length = artifacts.length := by
          simpa using congrArg List.length hsame
      _ = (Sink.persistEach artifacts st).1.length := by
          simpa using (congrArg List.length (Sink.artifacts_persistEach artifacts st)).symm
  · intro hnone
    rw [Sink.stored_of_noneFailed hnone]
    exact hlists

/-- What is listed in the end is in place exactly if it was before the run was finished. -/
theorem matches_of_finish_iff {e : ManifestEntry} (he : isBareName e.id = true)
    (hne : e.id ≠ manifestFile) (hlisted : e ∈ st.sink.pending.entries ++ artifacts.map .of)
    (h : finish (Sink.persistEach artifacts st).2 = (.ok (), st')) :
    st'.Matches e ↔ (Sink.persistEach artifacts st).2.Matches e := by
  have hpending : e ∈ (Sink.persistEach artifacts st).2.sink.pending.entries := by
    rw [persistEach_sink]
    exact hlisted
  have hiff := matches_finish_iff he hne hpending
  rw [h] at hiff
  exact hiff

/-- **All that is listed is in place** exactly if nothing failed. -/
theorem listed_matches_iff
    (hnames : ∀ id ∈ st.sink.pending.entries.map (·.id) ++ artifacts.map (·.id),
      isBareName id = true ∧ id ≠ manifestFile)
    (hdistinct : (st.sink.pending.entries.map (·.id) ++ artifacts.map (·.id)).Nodup)
    (hpending : ∀ e ∈ st.sink.pending.entries, st.Matches e)
    (h : finish (Sink.persistEach artifacts st).2 = (.ok (), st')) :
    (∀ e ∈ st'.sink.manifest.entries, st'.Matches e) ↔
      Sink.NoneFailed (Sink.persistEach artifacts st).1 := by
  obtain ⟨-, hids, hapart⟩ := List.nodup_append.mp hdistinct
  have hnew : ∀ a ∈ artifacts, isBareName a.id = true ∧ a.id ≠ manifestFile := fun a ha =>
    hnames a.id (List.mem_append_right _ (List.mem_map_of_mem ha))
  have hbare : ∀ a ∈ artifacts, isBareName a.id = true := fun a ha => (hnew a ha).1
  have hcalls : ∀ call ∈ (Sink.persistEach artifacts st).1,
      ((Sink.persistEach artifacts st).2.Matches (.of call.1) ↔ call.2.isOk = true) :=
    matches_persistEach_iff hbare hids
  have hartifacts := Sink.artifacts_persistEach artifacts st
  -- for the artifacts of the run this is what storing them gave
  have hstored : ∀ call ∈ (Sink.persistEach artifacts st).1,
      (st'.Matches (.of call.1) ↔ call.2.isOk = true) := by
    intro call hcall
    have ha : call.1 ∈ artifacts := by
      rw [← hartifacts]
      exact List.mem_map_of_mem hcall
    have hlisted : ManifestEntry.of call.1 ∈ st.sink.pending.entries ++ artifacts.map .of :=
      List.mem_append_right _ (List.mem_map_of_mem ha)
    have hkept : st'.Matches (.of call.1) ↔
        (Sink.persistEach artifacts st).2.Matches (.of call.1) :=
      matches_of_finish_iff (hnew _ ha).1 (hnew _ ha).2 hlisted h
    exact hkept.trans (hcalls call hcall)
  -- what was pending stays in place
  have hold : ∀ e ∈ st.sink.pending.entries, st'.Matches e := by
    intro e he
    have hid : e.id ∈ st.sink.pending.entries.map (·.id) := List.mem_map_of_mem he
    obtain ⟨hname, hne⟩ := hnames e.id (List.mem_append_left _ hid)
    refine (matches_of_finish_iff hname hne (List.mem_append_left _ he) h).mpr ?_
    exact (matches_persistEach_of_notMem hbare hname fun hmem => hapart _ hid _ hmem rfl).mpr
      (hpending e he)
  have hentries : st'.sink.manifest.entries = st.sink.pending.entries ++
      (Sink.persistEach artifacts st).1.map fun call => .of call.1 := by
    rw [(lists_of_persistEach h).sink]
    exact congrArg (st.sink.pending.entries ++ ·)
      ((congrArg (List.map ManifestEntry.of) hartifacts.symm).trans (List.map_map ..))
  rw [hentries, List.forall_mem_append, List.forall_mem_map, and_iff_right hold]
  exact forall₂_congr hstored

end DirectorySink

/-- **When the manifest is one of what was stored.** A sink, whatever its state and its directory,
    stores artifacts one after the other, goes on where that fails, and is then finished. The names
    are distinct bare file names, none is that of the manifest, and what was pending is in place.
    Each of the following holds exactly if nothing failed:

    * the manifest, in the sink and on the disk, lists what was pending and then the artifacts of
      which storing succeeded;
    * all that it lists is in place: a file of the directory with the fingerprint that is listed. -/
theorem manifest_lists_stored_iff {st st' : DirectoryState} {artifacts : List Artifact}
    (hnames : ∀ id ∈ st.sink.pending.entries.map (·.id) ++ artifacts.map (·.id),
      isBareName id = true ∧ id ≠ manifestFile)
    (hdistinct : (st.sink.pending.entries.map (·.id) ++ artifacts.map (·.id)).Nodup)
    (hpending : ∀ e ∈ st.sink.pending.entries, st.Matches e)
    (hfinish : DirectorySink.finish (Sink.persistEach artifacts st).2 = (.ok (), st')) :
    (st'.Lists (st.sink.pending.entries ++
        (Sink.stored (Sink.persistEach artifacts st).1).map .of) ↔
      Sink.NoneFailed (Sink.persistEach artifacts st).1) ∧
    ((∀ e ∈ st'.sink.manifest.entries, st'.Matches e) ↔
      Sink.NoneFailed (Sink.persistEach artifacts st).1) :=
  ⟨DirectorySink.lists_stored_iff hfinish,
    DirectorySink.listed_matches_iff hnames hdistinct hpending hfinish⟩

/-- A run into `usedDisk` that has stored `kept.rs` so far. -/
def startedState : DirectoryState :=
  ⟨⟨"out", true, usedManifest, ⟨(usedArtifacts.take 1).map .of⟩⟩, usedDisk⟩

/-- It stores the others, and none of that fails. -/
theorem manifest_lists_stored_startedState :
    ∃ after, Sink.NoneFailed (Sink.persistEach (usedArtifacts.drop 1) startedState).1 ∧
      DirectorySink.finish (Sink.persistEach (usedArtifacts.drop 1) startedState).2 =
        (.ok (), after) ∧
      after.Lists (usedArtifacts.map .of) ∧ ∀ e ∈ usedArtifacts.map .of, after.Matches e := by
  have hopen : startedState.disk.OpensAt startedState.sink.dir ["out"] := rfl
  have hbare : ∀ a ∈ usedArtifacts.drop 1, isBareName a.id = true := by decide
  obtain ⟨outcomes, after, hstore⟩ :=
    DirectorySink.exists_store hopen hbare fun name _ => free_usedDisk name
  obtain ⟨st, hpersist, hfinish⟩ := Sink.exists_of_store hstore
  obtain ⟨hnone, rfl⟩ := Sink.exists_persistAll_iff.mp ⟨outcomes, hpersist⟩
  have hpending : ∀ e ∈ startedState.sink.pending.entries, startedState.Matches e := by
    intro e he
    obtain ⟨a, ha, rfl⟩ := List.mem_map.mp he
    rw [List.mem_singleton.mp ha]
    refine ⟨"same", (Disk.readText_inside_eq_ok_iff hopen (by decide)).mpr ?_, rfl⟩
    exact get?_usedDisk "kept.rs"
  have hnames : ∀ id ∈ startedState.sink.pending.entries.map (·.id) ++
      (usedArtifacts.drop 1).map (·.id), isBareName id = true ∧ id ≠ manifestFile := by
    change ∀ id ∈ ["kept.rs", "changed.rs", "added.rs"], _
    decide
  have hdistinct : (startedState.sink.pending.entries.map (·.id) ++
      (usedArtifacts.drop 1).map (·.id)).Nodup := by
    change ["kept.rs", "changed.rs", "added.rs"].Nodup
    decide
  obtain ⟨hlists, hmatches⟩ := manifest_lists_stored_iff hnames hdistinct hpending hfinish
  have hlisted := hlists.mpr hnone
  rw [Sink.stored_of_noneFailed hnone] at hlisted
  have hplaced := hmatches.mpr hnone
  rw [hlisted.sink] at hplaced
  exact ⟨after, hnone, hfinish, hlisted, hplaced⟩

/-- A sink over `blockedDisk`. -/
def blockedState : DirectoryState := ⟨{ dir := "out" }, blockedDisk⟩

/-- What cannot be stored there. -/
def blockedArtifact : Artifact := .ofOwner "" "Widget" ".autolog.g.rs" "impl Widget {}\n"

/-- **A failed write is listed.** A directory stands in the place of the file, so storing the
    artifact fails; the run is finished, and the manifest lists the artifact all the same. -/
theorem failed_write_is_listed :
    ∃ after, DirectorySink.new "out" blockedDisk = (.ok blockedState.sink, blockedState.disk) ∧
      (Sink.persistEach [blockedArtifact] blockedState).1 =
        [(blockedArtifact, .error (.disk "out/Widget.autolog.g.rs" .isADirectory))] ∧
      DirectorySink.finish (Sink.persistEach [blockedArtifact] blockedState).2 = (.ok (), after) ∧
      Sink.stored (Sink.persistEach [blockedArtifact] blockedState).1 = [] ∧
      after.Lists [.of blockedArtifact] ∧ ¬ after.Matches (.of blockedArtifact) := by
  have hopen : blockedState.disk.OpensAt blockedState.sink.dir ["out"] := opensAt_blockedDisk
  have hbare : ∀ a ∈ [blockedArtifact], isBareName a.id = true := by decide
  have ha := hbare _ (List.mem_singleton_self _)
  have hdir : blockedState.disk.get? (["out"] ++ [blockedArtifact.id]) = some .directory :=
    get?_blockedDisk _
  have hpersist : DirectorySink.persist blockedState blockedArtifact =
      (.error (.disk "out/Widget.autolog.g.rs" .isADirectory),
        ⟨blockedState.sink.list blockedArtifact, blockedDisk⟩) := by
    have hholds : ¬ blockedState.sink.holds blockedState.disk blockedArtifact = true := by
      rw [DirectorySink.holds_iff hopen ha, hdir]
      nofun
    rw [DirectorySink.persist_eq hopen ha, if_neg hholds, if_pos hdir]
    rfl
  have hcalls : (Sink.persistEach [blockedArtifact] blockedState).1 =
      [(blockedArtifact, .error (.disk "out/Widget.autolog.g.rs" .isADirectory))] :=
    congrArg (fun result => [(blockedArtifact, Prod.fst result)]) hpersist
  have hafter : (Sink.persistEach [blockedArtifact] blockedState).2 =
      ⟨blockedState.sink.list blockedArtifact, blockedDisk⟩ := congrArg Prod.snd hpersist
  -- no manifest was there, so nothing is left over, and the manifest can be written
  have hfinish : ∃ after, DirectorySink.finish (Sink.persistEach [blockedArtifact] blockedState).2 =
      (.ok (), after) := by
    rw [hafter]
    refine DirectorySink.exists_finish hopen fun name hname => ?_
    obtain rfl : name = manifestFile := List.mem_singleton.mp hname
    rw [get?_blockedDisk, if_neg (by decide)]
    nofun
  obtain ⟨after, hfinish⟩ := hfinish
  have hmatches : (Sink.persistEach [blockedArtifact] blockedState).2.Matches
      (.of blockedArtifact) ↔ false = true :=
    DirectorySink.matches_persistEach_iff hbare (List.nodup_singleton _)
      (blockedArtifact, .error (.disk "out/Widget.autolog.g.rs" .isADirectory)) (by simp [hcalls])
  refine ⟨after, ?_, hcalls, hfinish, by rw [hcalls]; rfl,
    DirectorySink.lists_of_persistEach hfinish, fun h => ?_⟩
  · rw [DirectorySink.new_of_opensAt opensAt_blockedDisk, Disk.manifestAt, get?_blockedDisk,
      if_neg (by decide)]
    rfl
  · have hlisted : ManifestEntry.of blockedArtifact ∈
        blockedState.sink.pending.entries ++ [blockedArtifact].map .of :=
      List.mem_singleton_self _
    have hkept := DirectorySink.matches_of_finish_iff ha (by decide) hlisted hfinish
    exact Bool.false_ne_true (hmatches.mp (hkept.mp h))

end LogMarkers
