import LogMarkers.Proofs.Emission.ArtifactNames
import LogMarkers.Proofs.Sink.EarlierRuns

/-!
# The file of the marker declarations

The file name of the marker declarations is a setting. It is checked alone, and stands in one
directory with the manifest, whose name is fixed, and with the extensions, whose names are made from
owners and a suffix that is another setting.

* `RunSettings.isBareName_iff_of_check`: of the accepted names only `.` and `..` are no file names;
* `isExtensionName_iff`: which names are those of extensions;
* `DirectorySink.get?_store_head`: what is stored first stays as it is, if its name is not used
  again;
* `namesStayApart_iff`: which accepted settings keep the three kinds of files apart, and with them
  whole runs.

The check misses all others: a name that an extension can have, and the name of the manifest
(`accepted_names_clash`).
-/

namespace LogMarkers

open DiskPath PathText Source

/-! ## 1. What the check of settings says about names -/

namespace RunSettings

variable {s : RunSettings}

theorem notMem_of_checkFileName {field value : String} (h : checkFileName field value = .ok ()) :
    value ≠ "" ∧ '/' ∉ value.toList := by
  unfold checkFileName at h
  split at h
  · cases h
  · rename_i hne
    split at h
    · cases h
    · rename_i hany
      refine ⟨hne, fun hmem => hany ?_⟩
      exact List.any_eq_true.mpr ⟨'/', hmem, rfl⟩

/-- What ends in `.rs` has these characters at its end. -/
theorem suffix_of_endsInRs {text : String} (h : endsInRs text = true) :
    ['.', 'r', 's'] <:+ text.toList := by
  unfold endsInRs at h
  split at h
  · rename_i before e
    refine ⟨before.reverse, ?_⟩
    rw [← List.reverse_reverse text.toList, e]
    simp
  · cases h

/-- The checks that accepted settings have passed. -/
theorem checks_of_check (h : s.check = .ok ()) :
    checkFileName "artifact_suffix" s.artifactSuffix = .ok () ∧ endsInRs s.artifactSuffix = true ∧
      checkFileName "marker_declarations_id" s.markersId = .ok () := by
  unfold check at h
  by_cases hthreshold : s.parallelThreshold = 0
  · rw [if_pos hthreshold] at h
    cases h
  rw [if_neg hthreshold] at h
  cases hsuffix : checkFileName "artifact_suffix" s.artifactSuffix with
  | error e =>
    rw [hsuffix] at h
    cases h
  | ok u =>
    rw [hsuffix] at h
    by_cases hends : endsInRs s.artifactSuffix = true
    · rw [hends] at h
      exact ⟨rfl, hends, h⟩
    · rw [Bool.eq_false_of_not_eq_true hends] at h
      cases h

/-- An accepted name of the marker declarations is a bare file name, unless it is one of two. -/
theorem isBareName_iff_of_check (h : s.check = .ok ()) :
    isBareName s.markersId = true ↔ s.markersId ∉ [".", ".."] := by
  obtain ⟨hempty, hslash⟩ := notMem_of_checkFileName (checks_of_check h).2.2
  rw [isBareName_iff]
  simp [hempty, hslash]

end RunSettings

/-! ## 2. The names of extensions -/

/-- A text that can name an item: a word, and none of those that cannot be written raw either. -/
def IsIdentifier (text : String) : Prop :=
  spellsWord text = true ∧ text ∉ ["_", "crate", "self", "Self", "super"]

instance (text : String) : Decidable (IsIdentifier text) := inferInstanceAs (Decidable (_ ∧ _))

/-- An owner whose module path is joined from identifiers and whose name is one. -/
def IsNamedOwner (space owner : String) : Prop :=
  (∃ names : List String, (∀ n ∈ names, IsIdentifier n) ∧ space = join names) ∧ IsIdentifier owner

theorem IsIdentifier.notMem {text : String} (h : IsIdentifier text) {c : Char}
    (hc : Text.isContinue c = false) : c ∉ text.toList := by
  obtain ⟨first, rest, e, hstart, hrest⟩ := exists_cons_of_spellsWord h.1
  intro hmem
  have hcontinue : Text.isContinue c = true := by
    rw [e] at hmem
    rcases List.mem_cons.mp hmem with rfl | hmem
    · exact isContinue_of_isStart hstart
    · exact hrest c hmem
  rw [hc] at hcontinue
  cases hcontinue

theorem IsIdentifier.isDotless {text : String} (h : IsIdentifier text) : IsDotless text := by
  refine ⟨⟨fun e => ?_, h.notMem Identifier.isContinue_colon⟩, h.notMem Identifier.isContinue_dot⟩
  rw [e] at h
  exact absurd h.1 (by decide)

/-- A file name that an extension can have: identifiers with dots between them, then the suffix. -/
def IsExtensionName (suffix id : String) : Prop :=
  suffix.toList <:+ id.toList ∧ ∀ n ∈ namesBefore suffix id, IsIdentifier n

instance (suffix id : String) : Decidable (IsExtensionName suffix id) :=
  inferInstanceAs (Decidable (_ ∧ _))

/-- **The file names that extensions can have** are those made from owners. -/
theorem isExtensionName_iff {suffix id : String} :
    IsExtensionName suffix id ↔
      ∃ space owner, IsNamedOwner space owner ∧ artifactId space owner suffix = id := by
  constructor
  · rintro ⟨hsuffix, hnames⟩
    have hne : namesBefore suffix id ≠ [] := by simp [namesBefore, List.splitOn_ne_nil]
    rcases List.eq_nil_or_concat (namesBefore suffix id) with e | ⟨names, owner, e⟩
    · exact absurd e hne
    rw [List.concat_eq_append] at e
    rw [e] at hnames
    have hbefore : ∀ n ∈ names, IsIdentifier n := fun n hn => hnames n (List.mem_append_left _ hn)
    exact ⟨join names, owner, ⟨⟨names, hbefore, rfl⟩, hnames owner (by simp)⟩,
      artifactId_of_namesBefore hsuffix (fun n hn => (hbefore n hn).isDotless.1) e⟩
  · rintro ⟨space, owner, ⟨⟨names, hnames, rfl⟩, howner⟩, rfl⟩
    have hdotless : ∀ n ∈ names, IsDotless n := fun n hn => (hnames n hn).isDotless
    refine ⟨?_, fun n hn => ?_⟩
    · rw [toList_artifactId fun n hn => (hdotless n hn).1]
      exact List.suffix_append _ _
    · rw [namesBefore_artifactId hdotless howner.isDotless] at hn
      rcases List.mem_append.mp hn with hn | hn
      · exact hnames n hn
      · exact List.mem_singleton.mp hn ▸ howner

/-- With an accepted suffix, the name of an extension is a bare file name and not that of the
    manifest. -/
theorem isBareName_artifactId {s : RunSettings} (hs : s.check = .ok ()) {space owner : String}
    (h : IsNamedOwner space owner) :
    isBareName (artifactId space owner s.artifactSuffix) = true ∧
      artifactId space owner s.artifactSuffix ≠ manifestFile := by
  obtain ⟨hsuffix, hends, -⟩ := RunSettings.checks_of_check hs
  obtain ⟨⟨names, hnames, rfl⟩, howner⟩ := h
  have hchars := toList_artifactId (fun n hn => (hnames n hn).isDotless.1) owner s.artifactSuffix
  have hrs : ['.', 'r', 's'] <:+ (artifactId (join names) owner s.artifactSuffix).toList := by
    rw [hchars]
    exact (RunSettings.suffix_of_endsInRs hends).trans (List.suffix_append _ _)
  have hother : ∀ other ∈ ["", ".", "..", manifestFile],
      artifactId (join names) owner s.artifactSuffix ≠ other := by
    intro other hother e
    rw [e] at hrs
    have hnone : ∀ other ∈ ["", ".", "..", manifestFile], ¬ ['.', 'r', 's'] <:+ other.toList := by
      decide
    exact hnone other hother hrs
  have hslash : '/' ∉ (artifactId (join names) owner s.artifactSuffix).toList := by
    rw [hchars, List.mem_append]
    rintro (hmem | hmem)
    · rcases mem_of_mem_intercalate hmem with e | ⟨cs, hcs, hc⟩
      · exact absurd e (by decide)
      · obtain ⟨n, hn, rfl⟩ := List.mem_map.mp hcs
        have hident : IsIdentifier n := by
          rcases List.mem_append.mp hn with hn | hn
          · exact hnames n hn
          · exact List.mem_singleton.mp hn ▸ howner
        exact hident.notMem (by decide) hc
    · exact (RunSettings.notMem_of_checkFileName hsuffix).2 hmem
  exact ⟨isBareName_iff.mpr ⟨hslash, hother _ (by simp), hother _ (by simp), hother _ (by simp)⟩,
    hother _ (by simp)⟩

/-! ## 3. What is stored first -/

theorem Sink.store_of_persistAll {σ : Type} [Sink σ] {artifacts : List Artifact} {s s₁ : σ}
    {outcomes : List WriteOutcome} (h : persistAll artifacts s = (.ok outcomes, s₁)) :
    (store artifacts s).2 = (finish s₁).2 := by
  rw [store, h]
  dsimp only
  split
  · rename_i hfinish
    rw [hfinish]
  · rename_i hfinish
    rw [hfinish]

namespace DirectorySink

variable {st : DirectoryState} {place : DiskPlace} {first : Artifact} {rest : List Artifact}

theorem get?_persistAll_head (hopen : st.disk.OpensAt st.sink.dir place)
    (hbare : ∀ a ∈ first :: rest, isBareName a.id = true) (hnew : first.id ∉ rest.map (·.id)) :
    (Sink.persistAll (first :: rest) st).2.disk.get? (place ++ [first.id]) =
      (persist st first).2.disk.get? (place ++ [first.id]) := by
  have hopen₁ := persist_opensAt hopen (hbare first List.mem_cons_self)
  rcases hpersist : Sink.persist st first with ⟨result, st₁⟩
  change persist st first = _ at hpersist
  rw [hpersist] at hopen₁ ⊢
  cases result with
  | error e => rw [Sink.persistAll_cons_of_error hpersist]
  | ok outcome =>
    rw [Sink.persistAll_cons_of_ok hpersist]
    exact (persistAll_edited hopen₁
      fun a ha => hbare a (List.mem_cons_of_mem _ ha)).1.get?_of_notMem hnew

/-- Finishing, failure or not, leaves what is listed in the run alone, the manifest apart. -/
theorem get?_finish_of_listed (hopen : st.disk.OpensAt st.sink.dir place) {name : String}
    (hlisted : name ∈ st.sink.pending.entries.map (·.id)) (hne : name ≠ manifestFile) :
    (finish st).2.disk.get? (place ++ [name]) = st.disk.get? (place ++ [name]) := by
  have hkept : name ∉ st.sink.staleNames := fun hmem => (mem_staleNames.mp hmem).2.1 hlisted
  rcases hfinish : finish st with ⟨result, st'⟩
  cases result with
  | error e => exact (finish_edited_of_error hopen hfinish).get?_of_notMem hkept
  | ok u =>
    refine (finish_edited hopen hfinish).1.get?_of_notMem fun hmem => ?_
    rcases List.mem_cons.mp hmem with e | hmem
    · exact hne e
    · exact hkept hmem

/-- **The file of what is stored first stays as it was stored**, whatever comes of the run, if no
    other artifact and not the manifest has its name. -/
theorem get?_store_head (hopen : st.disk.OpensAt st.sink.dir place)
    (hbare : ∀ a ∈ first :: rest, isBareName a.id = true)
    (hnew : first.id ∉ rest.map (·.id)) (hmanifest : first.id ≠ manifestFile) :
    (Sink.store (first :: rest) st).2.disk.get? (place ++ [first.id]) =
      (persist st first).2.disk.get? (place ++ [first.id]) := by
  rw [← get?_persistAll_head hopen hbare hnew]
  have hopen₁ := persistAll_opensAt hopen hbare
  rcases hall : Sink.persistAll (first :: rest) st with ⟨result, st₁⟩
  rw [hall] at hopen₁
  cases result with
  | error e => rw [Sink.store, hall]
  | ok outcomes =>
    -- the run is finished only after all were stored, so the name is listed
    have hlisted : first.id ∈ st₁.sink.pending.entries.map (·.id) := by
      rw [sink_of_persistAll hall]
      exact List.mem_map_of_mem (List.mem_append_right _ (List.mem_map_of_mem List.mem_cons_self))
    rw [Sink.store_of_persistAll hall]
    exact get?_finish_of_listed hopen₁ hlisted hmanifest

/-- The manifest of a run that was stored lists the artifacts after what was listed before. -/
theorem get?_manifestFile_of_store {artifacts : List Artifact} {outcomes : List WriteOutcome}
    {st' : DirectoryState} (hopen : st.disk.OpensAt st.sink.dir place)
    (hbare : ∀ a ∈ artifacts, isBareName a.id = true)
    (h : Sink.store artifacts st = (.ok outcomes, st')) :
    st'.disk.get? (place ++ [manifestFile]) =
      if st.sink.writeManifest then
        some (.file (Manifest.render ⟨st.sink.pending.entries ++ artifacts.map .of⟩).toUTF8)
      else none := by
  obtain ⟨st₁, hpersist, hfinish⟩ := Sink.exists_of_store h
  have hopen₁ := persistAll_opensAt hopen hbare
  rw [hpersist] at hopen₁
  rw [(finish_edited hopen₁ hfinish).2.1, sink_of_persistAll hpersist]
  rfl

end DirectorySink

/-! ## 4. Settings that keep the files apart -/

/-- What a run stores besides leaves the files of the marker declarations and of the manifest
    alone. -/
structure Host.FilesKept (h : Host) (sources : SourceSet) (c : LoweredCrate) (st : DirectoryState)
    (place : DiskPlace) : Prop where
  /-- At the end, failure or not, the file of the marker declarations is as it was stored. -/
  markers : (h.generate sources st).2.disk.get? (place ++ [h.settings.run.markersId]) =
    (DirectorySink.persist st h.generator.markerDeclarations).2.disk.get?
      (place ++ [h.settings.run.markersId])
  /-- Storing the artifacts, failure or not, does not touch the manifest. -/
  manifest : (Sink.persistAll (h.artifacts (h.output c)) st).2.disk.get? (place ++ [manifestFile]) =
    st.disk.get? (place ++ [manifestFile])
  /-- After a run that completes the manifest is there, if it is to be, and lists the artifacts. -/
  listed : ∀ report, (h.generate sources st).1 = .ok report →
    (h.generate sources st).2.disk.get? (place ++ [manifestFile]) =
      if st.sink.writeManifest then
        some (.file (Manifest.render
          ⟨st.sink.pending.entries ++ (h.artifacts (h.output c)).map .of⟩).toUTF8)
      else none

/-- The marker declarations, the manifest and the extensions never meet in one file. -/
structure NamesStayApart (s : RunSettings) : Prop where
  bare : isBareName s.markersId = true
  ne_manifest : s.markersId ≠ manifestFile
  ne_extension : ∀ space owner, IsNamedOwner space owner →
    artifactId space owner s.artifactSuffix ≠ s.markersId
  /-- Nor do they in a run, whatever stands in the directory. -/
  kept : ∀ (h : Host) (sources : SourceSet) (c : LoweredCrate), h.settings.run = s →
    sources.lower = .ok c →
    (∀ a ∈ (h.output c).artifacts, IsNamedOwner a.ownerNamespace a.ownerName) →
    ∀ (st : DirectoryState) (place : DiskPlace), st.disk.OpensAt st.sink.dir place →
      h.FilesKept sources c st place

/-- A run keeps the files apart if the names of its artifacts do. -/
theorem Host.filesKept {h : Host} {sources : SourceSet} {c : LoweredCrate} {st : DirectoryState}
    {place : DiskPlace} (hlower : sources.lower = .ok c)
    (hnames : ∀ a ∈ h.artifacts (h.output c), isBareName a.id = true ∧ a.id ≠ manifestFile)
    (hnew : h.settings.run.markersId ∉ (h.output c).artifacts.map (·.id))
    (hopen : st.disk.OpensAt st.sink.dir place) : h.FilesKept sources c st place := by
  have hbare : ∀ a ∈ h.artifacts (h.output c), isBareName a.id = true :=
    fun a ha => (hnames a ha).1
  refine ⟨?_, ?_, fun report hreport => ?_⟩
  · rw [generate_of_lower hlower]
    exact DirectorySink.get?_store_head hopen hbare hnew (hnames _ List.mem_cons_self).2
  · refine (DirectorySink.persistAll_edited hopen hbare).1.get?_of_notMem fun hmem => ?_
    obtain ⟨a, ha, e⟩ := List.mem_map.mp hmem
    exact (hnames a ha).2 e
  · rw [generate_of_lower hlower] at hreport ⊢
    dsimp only at hreport ⊢
    rcases hstore : Sink.store (h.artifacts (h.output c)) st with ⟨result, st'⟩
    rw [hstore] at hreport
    cases result with
    | error e => cases hreport
    | ok outcomes => exact DirectorySink.get?_manifestFile_of_store hopen hbare hstore

/-- **Which accepted settings keep the files apart**: those whose name for the marker declarations
    is not `.` or `..`, not that of the manifest, and not one that an extension can have. -/
theorem namesStayApart_iff {s : RunSettings} (hs : s.check = .ok ()) :
    NamesStayApart s ↔
      s.markersId ∉ [".", "..", manifestFile] ∧ ¬ IsExtensionName s.artifactSuffix s.markersId := by
  have hdots : ∀ other, s.markersId ∉ [".", "..", other] ↔
      s.markersId ∉ [".", ".."] ∧ s.markersId ≠ other := by
    intro other
    simp [and_assoc]
  rw [hdots, ← RunSettings.isBareName_iff_of_check hs]
  constructor
  · intro h
    refine ⟨⟨h.bare, h.ne_manifest⟩, fun hextension => ?_⟩
    obtain ⟨space, owner, howner, e⟩ := isExtensionName_iff.mp hextension
    exact h.ne_extension space owner howner e
  · rintro ⟨⟨hbare, hne⟩, hextension⟩
    have happart : ∀ space owner, IsNamedOwner space owner →
        artifactId space owner s.artifactSuffix ≠ s.markersId :=
      fun space owner howner e => hextension (isExtensionName_iff.mpr ⟨space, owner, howner, e⟩)
    refine ⟨hbare, hne, happart, ?_⟩
    rintro h sources c rfl hlower howners st place hopen
    have hids : ∀ a ∈ (h.output c).artifacts,
        a.id = artifactId a.ownerNamespace a.ownerName h.settings.run.artifactSuffix :=
      fun a ha => id_of_mem_emit ha
    refine Host.filesKept hlower (fun a ha => ?_) (fun hmem => ?_) hopen
    · rcases List.mem_cons.mp ha with rfl | ha
      · exact ⟨hbare, hne⟩
      · rw [hids a ha]
        exact isBareName_artifactId hs (howners a ha)
    · obtain ⟨a, ha, e⟩ := List.mem_map.mp hmem
      exact happart _ _ (howners a ha) ((hids a ha).symm.trans e)

/-- The default settings keep them apart. -/
theorem namesStayApart_default : ({} : RunSettings).check = .ok () ∧ NamesStayApart {} :=
  ⟨rfl, (namesStayApart_iff rfl).mpr (by decide)⟩

/-! ## 5. Accepted settings that do not -/

/-- A run on a marked struct, with the name of its extension for the marker declarations. -/
def clashingRun : HostRun :=
  ⟨⟨{ run := { markersId := "Widget.autolog.g.rs" } }, .standard, rfl⟩, markedSources⟩

/-- A run on a file without items, with the name of the manifest for the marker declarations. -/
def manifestRun : HostRun :=
  ⟨⟨{ run := { markersId := manifestFile } }, .standard, rfl⟩, oneFile ""⟩

/-- What it stores has one name and two texts. -/
theorem artifacts_clashingRun :
    ∃ a, clashingRun.artifacts = [clashingRun.host.generator.markerDeclarations, a] ∧
      a.id = clashingRun.host.settings.run.markersId ∧
      a.text ≠ clashingRun.host.generator.markerDeclarations.text := by
  obtain ⟨c, line, hc, hstruct⟩ := exists_isStruct_markedSources
  refine ⟨.ofOwner "" "Widget" ".autolog.g.rs" (Renderer.standard.extension "" "Widget"
    [Renderer.standard.snippet "Widget" .declaration]), ?_, by decide, by decide⟩
  rw [HostRun.artifacts_of_lower (r := clashingRun) hc]
  exact congrArg _ (hstruct.artifacts (by decide) clashingRun.host.generator rfl)

/-- The manifest that a run leaves in a directory that was there. -/
theorem HostRun.get?_manifestFile_of_completes {r : HostRun} {dir : String} {d : Disk}
    {place : DiskPlace} (hbare : ∀ a ∈ r.artifacts, DiskPath.isBareName a.id = true)
    (hopen : d.OpensAt dir place) (h : r.Completes dir d) :
    (r.into dir d).2.get? (place ++ [manifestFile]) =
      some (.file (Manifest.render ⟨r.artifacts.map .of⟩).toUTF8) := by
  rcases r.into_cases dir d with ⟨-, hfails, -⟩ | ⟨place', opened, hnew, hopen', -, hdisk, hiff⟩
  · exact absurd h hfails
  · rw [DirectorySink.new_of_opensAt hopen] at hnew
    subst hnew
    obtain rfl := hopen.unique hopen'
    obtain ⟨outcomes, hok⟩ := hiff.mp h
    rw [hdisk]
    exact DirectorySink.get?_manifestFile_of_store (opensAt_start hopen') hbare (Prod.ext hok rfl)

/-- A manifest starts with a brace, generated code with a comment. -/
theorem Manifest.render_ne_markerDeclarations (m : Manifest) (registry : Registry) :
    m.render ≠ Renderer.standard.markerDeclarations registry := by
  have hbrace : m.render.toList.head? = some '{' := by
    unfold render
    split
    · rfl
    · rw [String.toList_append, String.toList_append]
      rfl
  have hcomment : (Renderer.standard.markerDeclarations registry).toList.head? = some '/' := by
    show (Renderer.header ++ _ ++ _ ++ _).toList.head? = _
    rw [String.toList_append, String.toList_append, String.toList_append]
    rfl
  intro e
  rw [e, hcomment] at hbrace
  exact absurd (Option.some.inj hbrace) (by decide)

theorem artifacts_manifestRun :
    ∃ c, manifestRun.sources.lower = .ok c ∧
      manifestRun.artifacts = [manifestRun.host.generator.markerDeclarations] := by
  have hlower := lower_oneFile itemsOf_empty
  refine ⟨_, hlower, ?_⟩
  rw [HostRun.artifacts_of_lower (r := manifestRun) hlower]
  rfl

/-- The other run completes, and the marker declarations are lost. -/
theorem markers_lost_manifestRun :
    manifestRun.Completes "out" openDisk ∧
      (manifestRun.into "out" openDisk).2.get? ["out", manifestRun.host.settings.run.markersId] ≠
        some (.file manifestRun.host.generator.markerDeclarations.text.toUTF8) := by
  obtain ⟨c, hlower, hartifacts⟩ := artifacts_manifestRun
  have hbare : ∀ a ∈ manifestRun.artifacts, isBareName a.id = true := by
    intro a ha
    rw [hartifacts] at ha
    rw [List.mem_singleton.mp ha]
    exact isBareName_manifestFile
  have hopen : openDisk.OpensAt "out" ["out"] := rfl
  have hcompletes : manifestRun.Completes "out" openDisk :=
    HostRun.completes_of_free hbare hlower hopen fun name _ => free_openDisk name
  have hmanifest := HostRun.get?_manifestFile_of_completes hbare hopen hcompletes
  refine ⟨hcompletes, fun hkept => ?_⟩
  have htext := toUTF8_inj (DiskEntry.file.inj (Option.some.inj (hmanifest.symm.trans hkept)))
  exact Manifest.render_ne_markerDeclarations _ _ htext

/-- **Accepted settings under which files meet.** The check lets through `.` and `..`, the name of
    the manifest and that of an extension. With the last one a run stores two texts in one file;
    with the name of the manifest a run completes, and the marker declarations are lost. -/
theorem accepted_names_clash :
    (∀ id ∈ [".", "..", manifestFile, "Widget.autolog.g.rs"],
      ({ markersId := id } : RunSettings).check = .ok () ∧ ¬ NamesStayApart { markersId := id }) ∧
    (∃ a, clashingRun.artifacts = [clashingRun.host.generator.markerDeclarations, a] ∧
      a.id = clashingRun.host.settings.run.markersId ∧
      a.text ≠ clashingRun.host.generator.markerDeclarations.text) ∧
    manifestRun.Completes "out" openDisk ∧
    (manifestRun.into "out" openDisk).2.get? ["out", manifestRun.host.settings.run.markersId] ≠
      some (.file manifestRun.host.generator.markerDeclarations.text.toUTF8) := by
  refine ⟨?_, artifacts_clashingRun, markers_lost_manifestRun⟩
  simp only [List.forall_mem_cons, List.not_mem_nil, false_implies, implies_true, and_true]
  refine ⟨⟨rfl, fun h => ?_⟩, ⟨rfl, fun h => ?_⟩, ⟨rfl, fun h => ?_⟩, ⟨rfl, fun h => ?_⟩⟩
  · exact absurd h.bare (by decide)
  · exact absurd h.bare (by decide)
  · exact h.ne_manifest rfl
  · exact h.ne_extension "" "Widget" ⟨⟨[], nofun, rfl⟩, by decide⟩ rfl

end LogMarkers
