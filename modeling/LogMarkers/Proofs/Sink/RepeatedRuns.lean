import LogMarkers.Proofs.Sink.MemoryRun

/-!
# A run that is repeated writes nothing

After a run everything it stored is in place, and a run that finds everything in place changes
nothing. Both hold for memory and for a directory, where the manifest is written, read back and
written again.

* `Report.Repeats`: the report on a run that found everything in place;
* `MemorySink.afterStore_afterStore`, `MemorySink.outcomes_afterStore`: memory;
* `Disk.InPlace`: what a directory has when the artifacts of a run are in place;
  `HostRun.inPlace_of_into`: it has that after a run that completes, and
  `DirectorySink.store_of_inPlace`: a run on such a directory leaves it as it is;
* `repeated_run_writes_nothing`: both, for whole runs.
-/

namespace LogMarkers

open DiskPath

/-! ## 1. Reports -/

/-- The report on a run that is like the one before and found everything in place. -/
structure Report.Repeats (again report : Report) : Prop where
  artifactIds : again.artifactIds = report.artifactIds
  written : again.written = []
  unchanged : again.unchanged = again.artifactIds.length
  diagnostics : again.diagnostics = report.diagnostics
  stats : again.stats = report.stats

theorem Host.writtenIds_of_unchanged {artifacts : List Artifact} {outcomes : List WriteOutcome}
    (h : ∀ outcome ∈ outcomes, outcome = .unchanged) : writtenIds artifacts outcomes = [] := by
  refine List.filterMap_eq_nil_iff.mpr fun ⟨a, outcome⟩ hmem => ?_
  rw [h outcome (List.of_mem_zip hmem).2]
  rfl

/-- A run of which nothing is written repeats every run with its output. -/
theorem Host.repeats_report (h : Host) (output : Output) (outcomes : List WriteOutcome)
    {again : List WriteOutcome} (hunchanged : ∀ outcome ∈ again, outcome = .unchanged) :
    (h.report output again).Repeats (h.report output outcomes) := by
  have hwritten : (h.report output again).written = [] := writtenIds_of_unchanged hunchanged
  refine ⟨rfl, hwritten, ?_, rfl, rfl⟩
  rw [Report.unchanged, hwritten]
  rfl

/-! ## 2. Memory -/

namespace MemorySink

variable {s : MemorySink} {artifacts : List Artifact}

theorem find?_id_of_mem (hdistinct : (artifacts.map (·.id)).Nodup) {a : Artifact}
    (ha : a ∈ artifacts) : artifacts.find? (·.id == a.id) = some a := by
  obtain ⟨b, hb⟩ := Option.isSome_iff_exists.mp (mem_map_id_iff.mp (List.mem_map_of_mem ha))
  have hid : b.id = a.id := by simpa using List.find?_some hb
  rw [hb, List.inj_on_of_nodup_map hdistinct (List.mem_of_find?_eq_some hb) ha hid]

/-- With distinct names, what was there decides what storing does. -/
theorem outcomes_eq_map (hdistinct : (artifacts.map (·.id)).Nodup) :
    s.outcomes artifacts = artifacts.map s.outcome := by
  induction artifacts generalizing s with
  | nil => rfl
  | cons a rest ih =>
    rw [List.map_cons, List.nodup_cons] at hdistinct
    rw [outcomes, ih hdistinct.2, List.map_cons]
    refine congrArg _ (List.map_congr_left fun b hb => ?_)
    have hne : b.id ≠ a.id := fun heq => hdistinct.1 (heq ▸ List.mem_map_of_mem hb)
    rw [outcome, outcome, holds, holds, get?_put, if_neg hne]

/-- Storing the artifacts of a run again writes nothing. -/
theorem outcomes_afterStore (h : s.current = []) (hdistinct : (artifacts.map (·.id)).Nodup) :
    ∀ outcome ∈ (s.afterStore artifacts).outcomes artifacts, outcome = .unchanged := by
  rw [outcomes_eq_map hdistinct]
  intro outcome hmem
  obtain ⟨a, ha, rfl⟩ := List.mem_map.mp hmem
  have hget : (s.afterStore artifacts).get? a.id = some a := by
    rw [get?_afterStore h hdistinct, find?_id_of_mem hdistinct ha]
  rw [MemorySink.outcome, holds, hget]
  simp

/-- **A run that is repeated in memory** leaves the sink as it is. -/
theorem afterStore_afterStore (h : s.current = []) (hdistinct : (artifacts.map (·.id)).Nodup) :
    (s.afterStore artifacts).afterStore artifacts = s.afterStore artifacts := by
  have hcurrent : (s.afterStore artifacts).current = [] := rfl
  -- all listed names are names of the run, and none of the run is new
  have hlisted : ∀ id ∈ (s.afterStore artifacts).order, id ∈ artifacts.map (·.id) := by
    intro id hid
    rw [order_afterStore h hdistinct] at hid
    rcases List.mem_append.mp hid with hid | hid
    · exact of_decide_eq_true (List.mem_filter.mp hid).2
    · exact (List.mem_filter.mp hid).1
  have hold : ∀ id ∈ artifacts.map (·.id),
      (s.afterStore artifacts).artifacts.contains id = true := by
    intro id hid
    show ((s.afterStore artifacts).get? id).isSome = true
    rw [get?_afterStore h hdistinct]
    exact mem_map_id_iff.mp hid
  refine afterStore_congr hcurrent h hdistinct ?_
  rw [order_afterStore hcurrent hdistinct,
    List.filter_eq_self.mpr fun id hid => decide_eq_true (hlisted id hid),
    List.filter_eq_nil_iff.mpr fun id hid => by simp [hold id hid], List.append_nil]

end MemorySink

/-! ## 3. A directory in which everything is in place -/

namespace Disk

variable {d d' : Disk} {dir : String} {place : DiskPlace} {artifacts : List Artifact}

/-- A file of the directory counts as having the text of an artifact. -/
def HoldsAt (d : Disk) (place : DiskPlace) (a : Artifact) : Prop :=
  ∃ text, d.get? (place ++ [a.id]) = some (.file text.toUTF8) ∧
    { a with text := text }.fingerprint = a.fingerprint

theorem holdsAt_congr {a : Artifact}
    (h : d'.get? (place ++ [a.id]) = d.get? (place ++ [a.id])) :
    d'.HoldsAt place a ↔ d.HoldsAt place a := by
  rw [HoldsAt, h, HoldsAt]

/-- The artifacts of a run are in place: their files are there, and the manifest lists them. -/
structure InPlace (d : Disk) (dir : String) (place : DiskPlace) (artifacts : List Artifact) :
    Prop where
  opens : d.OpensAt dir place
  files : ∀ a ∈ artifacts, d.HoldsAt place a
  manifest : d.get? (place ++ [manifestFile]) =
    some (.file (Manifest.render ⟨artifacts.map .of⟩).toUTF8)

/-- Writing what is there changes nothing. -/
theorem put_of_get? {p : DiskPlace} {entry : DiskEntry} (hne : p ≠ [])
    (h : d.get? p = some entry) : d.put p entry = d := by
  have htable : d.entries.insert p entry = d.entries := by
    refine Table.ext_get? fun q => ?_
    rw [Table.get?_insert]
    split
    · rename_i hq
      rw [hq, ← h, Disk.get?, if_neg hne]
    · rfl
  rw [Disk.put, htable]

end Disk

namespace DirectorySink

variable {st st' : DirectoryState} {place : DiskPlace} {a : Artifact} {artifacts : List Artifact}
  {outcomes : List WriteOutcome} {outcome : WriteOutcome}

/-- An artifact that was stored is in place. -/
theorem holdsAt_of_persist (hopen : st.disk.OpensAt st.sink.dir place)
    (ha : isBareName a.id = true) (h : persist st a = (.ok outcome, st')) :
    st'.disk.HoldsAt place a := by
  rw [persist_eq hopen ha] at h
  split at h
  · rename_i hholds
    cases h
    exact (holds_iff hopen ha).mp hholds
  · split at h
    · cases h
    · cases h
      exact ⟨a.text, by simp, rfl⟩

/-- **Artifacts with distinct names that were all stored** are all in place. -/
theorem holdsAt_of_persistAll (hopen : st.disk.OpensAt st.sink.dir place)
    (hbare : ∀ a ∈ artifacts, isBareName a.id = true) (hdistinct : (artifacts.map (·.id)).Nodup)
    (h : Sink.persistAll artifacts st = (.ok outcomes, st')) :
    ∀ a ∈ artifacts, st'.disk.HoldsAt place a := by
  induction artifacts generalizing st outcomes with
  | nil => nofun
  | cons a rest ih =>
    obtain ⟨outcome, s₁, tail, hpersist, htail, -⟩ := Sink.exists_of_persistAll_cons h
    change persist st a = _ at hpersist
    rw [List.map_cons, List.nodup_cons] at hdistinct
    have ha := hbare a List.mem_cons_self
    have hrest : ∀ b ∈ rest, isBareName b.id = true :=
      fun b hb => hbare b (List.mem_cons_of_mem _ hb)
    have hopen₁ := persist_opensAt hopen ha
    rw [hpersist] at hopen₁
    have hedited := (persistAll_edited hopen₁ hrest).1
    rw [htail] at hedited
    intro b hb
    rcases List.mem_cons.mp hb with rfl | hb
    · -- the later artifacts have other names
      exact (Disk.holdsAt_congr (hedited.get?_of_notMem hdistinct.1)).mpr
        (holdsAt_of_persist hopen ha hpersist)
    · exact ih hopen₁ hrest hdistinct.2 htail b hb

/-- **After a run that was stored** its artifacts are in place. -/
theorem inPlace_of_store (hopen : st.disk.OpensAt st.sink.dir place)
    (hfresh : st.sink.pending = {}) (hwrites : st.sink.writeManifest = true)
    (hnames : ∀ a ∈ artifacts, isBareName a.id = true ∧ a.id ≠ manifestFile)
    (hdistinct : (artifacts.map (·.id)).Nodup)
    (h : Sink.store artifacts st = (.ok outcomes, st')) :
    st'.disk.InPlace st.sink.dir place artifacts := by
  have hbare : ∀ a ∈ artifacts, isBareName a.id = true := fun a ha => (hnames a ha).1
  obtain ⟨disk, hpersist, hwritten, hfinished, hmanifest, -⟩ :=
    store_edited hopen hbare hfresh h
  refine ⟨hfinished.opensAt (hwritten.opensAt hopen), fun a ha => ?_, ?_⟩
  · have hkept : a.id ∉ manifestFile :: (st.sink.listing artifacts).staleNames := by
      intro hmem
      rcases List.mem_cons.mp hmem with heq | hstale
      · exact (hnames a ha).2 heq
      · exact (mem_staleNames_listing.mp hstale).2.1 (List.mem_map_of_mem ha)
    exact (Disk.holdsAt_congr (hfinished.get?_of_notMem hkept)).mpr
      (holdsAt_of_persistAll hopen hbare hdistinct hpersist a ha)
  · rw [hmanifest, manifestEntry?]
    exact if_pos hwrites

/-- Artifacts that are all in place are listed, and nothing is written. -/
theorem persistAll_of_holdsAt (hopen : st.disk.OpensAt st.sink.dir place)
    (hbare : ∀ a ∈ artifacts, isBareName a.id = true)
    (hheld : ∀ a ∈ artifacts, st.disk.HoldsAt place a) :
    Sink.persistAll artifacts st =
      (.ok (artifacts.map fun _ => .unchanged),
        ⟨{ st.sink with pending := ⟨st.sink.pending.entries ++ artifacts.map .of⟩ }, st.disk⟩) := by
  induction artifacts generalizing st with
  | nil => simp [Sink.persistAll]
  | cons a rest ih =>
    have ha := hbare a List.mem_cons_self
    have hholds : st.sink.holds st.disk a = true :=
      (holds_iff hopen ha).mpr (hheld a List.mem_cons_self)
    have hpersist : Sink.persist st a = (.ok .unchanged, ⟨st.sink.list a, st.disk⟩) := by
      show persist st a = _
      rw [persist_eq hopen ha, if_pos hholds]
    have hopen₁ : (⟨st.sink.list a, st.disk⟩ : DirectoryState).disk.OpensAt
      (⟨st.sink.list a, st.disk⟩ : DirectoryState).sink.dir place := hopen
    rw [Sink.persistAll, hpersist]
    dsimp only
    rw [ih hopen₁ (fun b hb => hbare b (List.mem_cons_of_mem _ hb))
      (fun b hb => hheld b (List.mem_cons_of_mem _ hb))]
    simp [list]

/-- Finishing a run that stored what the manifest says writes the manifest that is there. -/
theorem finish_of_listed (hopen : st.disk.OpensAt st.sink.dir place)
    (hwrites : st.sink.writeManifest = true) (hsame : st.sink.manifest = st.sink.pending)
    (hmanifest : st.disk.get? (place ++ [manifestFile]) =
      some (.file st.sink.pending.render.toUTF8)) :
    finish st = (.ok (), ⟨st.sink.advance, st.disk⟩) := by
  have hstale : st.sink.manifest.entries.filter st.sink.isStale = [] := by
    refine List.filter_eq_nil_iff.mpr fun e he hfresh => ?_
    have hmem : e.id ∈ st.sink.staleNames :=
      List.mem_map_of_mem (List.mem_filter.mpr ⟨he, hfresh⟩)
    rw [hsame] at he
    exact (mem_staleNames.mp hmem).2.1 (List.mem_map_of_mem he)
  have hwritten := Disk.writeText_inside hopen isBareName_manifestFile st.sink.pending.render
  change st.disk.writeText (st.sink.advance.pathOf manifestFile) st.sink.advance.manifest.render = _
    at hwritten
  have hstored : st.sink.advance.storeManifest st.disk = .ok st.disk := by
    rw [storeManifest, if_pos (show st.sink.advance.writeManifest = true from hwrites), hwritten,
      if_neg (by simp [hmanifest])]
    dsimp only
    rw [Disk.put_of_get? (by simp) hmanifest]
  rw [finish, hstale, removeAll]
  dsimp only
  rw [hstored]

/-- **A run into a directory in which its artifacts are in place** leaves the disk as it is. -/
theorem store_of_inPlace {d : Disk} {dir : String} (h : d.InPlace dir place artifacts)
    (hbare : ∀ a ∈ artifacts, isBareName a.id = true) :
    ∃ sink, Sink.store artifacts (HostRun.start dir place d d) =
      (.ok (artifacts.map fun _ => .unchanged), ⟨sink, d⟩) := by
  have hopen := HostRun.opensAt_start (d := d) h.opens
  have hmanifest : d.manifestAt place = ⟨artifacts.map .of⟩ := Disk.manifestAt_of_file h.manifest
  let st : DirectoryState := ⟨⟨dir, true, ⟨artifacts.map .of⟩, ⟨artifacts.map .of⟩⟩, d⟩
  have hpersist : Sink.persistAll artifacts (HostRun.start dir place d d) =
      (.ok (artifacts.map fun _ => .unchanged), st) := by
    rw [persistAll_of_holdsAt hopen hbare h.files]
    simp [HostRun.start, hmanifest, st]
  have hfinish : Sink.finish st = (.ok (), ⟨st.sink.advance, d⟩) :=
    finish_of_listed (show st.disk.OpensAt st.sink.dir place from h.opens) rfl rfl h.manifest
  refine ⟨st.sink.advance, ?_⟩
  rw [Sink.store, hpersist]
  dsimp only
  rw [hfinish]

end DirectorySink

/-! ## 4. Whole runs -/

namespace HostRun

variable {r : HostRun} {dir : String} {d after : Disk} {report : Report}

/-- A run into memory, repeated. -/
theorem repeats_in_memory (hr : r.StoresApart) {sink after : MemorySink} (hrest : sink.current = [])
    (h : r.host.generate r.sources sink = (.ok report, after)) :
    ∃ again, r.host.generate r.sources after = (.ok again, after) ∧ again.Repeats report := by
  obtain ⟨c, hlower⟩ := hr.lowers
  rw [MemorySink.generate_eq hlower] at h
  cases h
  rw [MemorySink.generate_eq hlower, MemorySink.afterStore_afterStore hrest hr.distinct]
  exact ⟨_, rfl, r.host.repeats_report _ _ (MemorySink.outcomes_afterStore hrest hr.distinct)⟩

/-- A run whose sources can be read, into a directory that is opened. -/
theorem into_eq {c : LoweredCrate} (hlower : r.sources.lower = .ok c) {place : DiskPlace}
    {opened : Disk}
    (hnew : DirectorySink.new dir d = (.ok (start dir place d opened).sink, opened)) :
    r.into dir d =
      ((Sink.store r.artifacts (start dir place d opened)).1.map (r.host.report (r.host.output c)),
        (Sink.store r.artifacts (start dir place d opened)).2.disk) := by
  rw [into, hnew]
  dsimp only
  rw [Host.generate_of_lower hlower, artifacts_of_lower hlower]
  rfl

/-- **After a run into a directory** its artifacts are in place. -/
theorem inPlace_of_into {c : LoweredCrate} (hlower : r.sources.lower = .ok c)
    (hdistinct : r.names.Nodup) (hnames : r.NamesFiles)
    (h : r.into dir d = (.ok report, after)) :
    ∃ place outcomes, after.InPlace dir place r.artifacts ∧
      report = r.host.report (r.host.output c) outcomes := by
  rcases hnew : DirectorySink.new dir d with ⟨result, opened⟩
  cases result with
  | error e =>
    rw [into, hnew] at h
    cases h
  | ok sink =>
    obtain ⟨place, hopen, rfl⟩ := DirectorySink.exists_place_of_new hnew
    rw [into_eq hlower hnew] at h
    rcases hstore : Sink.store r.artifacts (start dir place d opened) with ⟨result, st⟩
    rw [hstore] at h
    cases result with
    | error e => cases h
    | ok outcomes =>
      cases h
      exact ⟨place, outcomes, DirectorySink.inPlace_of_store (opensAt_start hopen) rfl rfl
        (fun a ha => hnames a.id (List.mem_map_of_mem ha)) hdistinct hstore, rfl⟩

theorem Completes.exists_into (h : r.Completes dir d) :
    ∃ report after, r.into dir d = (.ok report, after) := by
  obtain ⟨report, hreport⟩ := h
  exact ⟨report, (r.into dir d).2, Prod.ext hreport rfl⟩

/-- A run into a directory, repeated. -/
theorem repeats_in_directory (hr : r.StoresApart) (hnames : r.NamesFiles)
    (h : r.into dir d = (.ok report, after)) :
    ∃ again, r.into dir after = (.ok again, after) ∧ again.Repeats report := by
  obtain ⟨c, hlower⟩ := hr.lowers
  obtain ⟨place, outcomes, hplace, rfl⟩ := inPlace_of_into hlower hr.distinct hnames h
  obtain ⟨sink, hstore⟩ := DirectorySink.store_of_inPlace hplace hnames.isBareName
  rw [into_eq hlower (DirectorySink.new_of_opensAt hplace.opens), hstore]
  refine ⟨_, rfl, r.host.repeats_report _ _ fun outcome hmem => ?_⟩
  obtain ⟨a, -, rfl⟩ := List.mem_map.mp hmem
  rfl

end HostRun

/-- **A run that is repeated writes nothing.** The sources of a run can be read, its artifacts have
    distinct bare file names, and none has that of the manifest. Where the run succeeds and is
    repeated, it succeeds again with the same names and reports, writes nothing, and leaves all as
    it is:

    * in memory, into a sink in which no run is unfinished, and that is every sink after any runs;
    * in a directory with any content, each time with a new sink, and that is the whole disk: every
      file and the manifest. -/
theorem repeated_run_writes_nothing {r : HostRun} (hr : r.StoresApart) (hnames : r.NamesFiles) :
    (∀ history, (MemorySink.afterRuns history).current = []) ∧
      (∀ (sink after : MemorySink) (report : Report), sink.current = [] →
        r.host.generate r.sources sink = (.ok report, after) →
        ∃ again, r.host.generate r.sources after = (.ok again, after) ∧ again.Repeats report) ∧
      ∀ (dir : String) (before after : Disk) (report : Report),
        r.into dir before = (.ok report, after) →
        ∃ again, r.into dir after = (.ok again, after) ∧ again.Repeats report := by
  refine ⟨fun history => (MemorySink.atRest_afterRuns history).current, ?_, ?_⟩
  · intro sink after report hrest h
    exact HostRun.repeats_in_memory hr hrest h
  · intro dir before after report h
    exact HostRun.repeats_in_directory hr hnames h

open MemorySink in
/-- The run on a marked struct, into a sink that has the output of another run, and into an empty
    directory: the first time it writes the marker declarations there, the second time nothing. -/
theorem repeated_run_writes_nothing_widgetRun :
    widgetRun.StoresApart ∧ widgetRun.NamesFiles ∧
      (∃ report again, widgetRun.host.generate widgetRun.sources (afterRuns [pairRun]) =
          (.ok report, afterRuns [pairRun, widgetRun]) ∧
        widgetRun.host.generate widgetRun.sources (afterRuns [pairRun, widgetRun]) =
          (.ok again, afterRuns [pairRun, widgetRun]) ∧ again.Repeats report) ∧
      ∃ report after again, widgetRun.into "out" openDisk = (.ok report, after) ∧
        "autolog_markers.g.rs" ∈ widgetRun.written "out" openDisk ∧
        widgetRun.into "out" after = (.ok again, after) ∧ again.Repeats report := by
  have hr := storesApart_widgetRun
  have hnames := namesFiles_widgetRun
  obtain ⟨hrest, hmemory, hdirectory⟩ := repeated_run_writes_nothing hr hnames
  obtain ⟨report, hreport, -⟩ := exists_report [pairRun] hr
  obtain ⟨again, hagain, hrepeats⟩ := hmemory _ _ report (hrest _) hreport
  obtain ⟨c, a, hc, hartifacts, -⟩ := artifacts_widgetRun
  have hopen : openDisk.OpensAt "out" ["out"] := rfl
  have hcompletes : widgetRun.Completes "out" openDisk :=
    HostRun.completes_of_free hnames.isBareName hc hopen fun name _ => free_openDisk name
  have hwrote : "autolog_markers.g.rs" ∈ widgetRun.written "out" openDisk :=
    HostRun.mem_written_of_vacant hnames hopen hartifacts rfl
  obtain ⟨report', after, hinto⟩ := hcompletes.exists_into
  obtain ⟨again', hagain', hrepeats'⟩ := hdirectory _ _ after report' hinto
  exact ⟨hr, hnames, ⟨report, again, hreport, hagain, hrepeats⟩, report', after, again', hinto,
    hwrote, hagain', hrepeats'⟩

end LogMarkers
