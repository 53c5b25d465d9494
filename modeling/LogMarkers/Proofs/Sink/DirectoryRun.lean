import LogMarkers.Proofs.Disk.Places
import LogMarkers.Proofs.Sink.ManifestText
import LogMarkers.Sink.Directory

/-!
# The directory after a run

Opening a directory, storing artifacts and finishing leave the directory in a state that is fixed by
what stood there before: the artifacts hold their texts, what only the last manifest lists is gone,
the manifest lists the artifacts, and nothing else is touched.

* `persist_eq`, `removeIfThere_eq`, `storeManifest_edited`: what one step does, as far as names are
  bare;
* `persistAll_edited`, `persistAll_texts`, `removeAll_edited`, `vacant_of_removeAll`: what the loops
  do;
* `store_edited`: what a run that was stored did;
* `exists_store`: a run can be stored where no directory stands in its way;
* `directory_after_store`: the directory after a run.
-/

namespace LogMarkers

open DiskPath

/-! ## 1. Texts and manifests on a disk -/

theorem fromUTF8?_eq_some_iff {content : ByteArray} {text : String} :
    String.fromUTF8? content = some text ↔ content = text.toUTF8 := by
  constructor
  · intro h
    unfold String.fromUTF8? at h
    split at h
    · cases h
      rfl
    · cases h
  · rintro rfl
    exact Disk.fromUTF8?_toUTF8 text

theorem toUTF8_inj {a b : String} (h : a.toUTF8 = b.toUTF8) : a = b := by
  have ha := Disk.fromUTF8?_toUTF8 a
  rw [h, Disk.fromUTF8?_toUTF8] at ha
  exact (Option.some.inj ha).symm

theorem isBareName_manifestFile : isBareName manifestFile = true := by decide

namespace Disk

/-- A file of a directory can be read as a text if it has the bytes of this text. -/
theorem readText_inside_eq_ok_iff {d : Disk} {dir name text : String} {place : DiskPlace}
    (hopen : d.OpensAt dir place) (hname : isBareName name = true) :
    d.readText (join dir name) = .ok text ↔
      d.get? (place ++ [name]) = some (.file text.toUTF8) := by
  rw [readText_inside hopen hname]
  cases d.get? (place ++ [name]) with
  | none => simp
  | some entry =>
    cases entry with
    | directory => simp
    | file content =>
      rw [Option.some.injEq, DiskEntry.file.injEq, ← fromUTF8?_eq_some_iff]
      dsimp only
      cases String.fromUTF8? content with
      | none => simp
      | some text' => simp

/-- The manifest in the directory at a place; one that is missing or cannot be read counts as
    empty. -/
def manifestAt (d : Disk) (place : DiskPlace) : Manifest :=
  match d.get? (place ++ [manifestFile]) with
  | some (.file content) => ((String.fromUTF8? content).bind Manifest.ofText?).getD {}
  | _ => {}

theorem manifestAt_of_file {d : Disk} {place : DiskPlace} {m : Manifest}
    (h : d.get? (place ++ [manifestFile]) = some (.file m.render.toUTF8)) :
    d.manifestAt place = m := by
  unfold manifestAt
  rw [h]
  show ((String.fromUTF8? m.render.toUTF8).bind Manifest.ofText?).getD {} = m
  rw [fromUTF8?_toUTF8, Option.bind_some, Manifest.ofText?_render, Option.getD_some]

theorem manifestAt_congr {d d' : Disk} {place : DiskPlace}
    (h : d'.get? (place ++ [manifestFile]) = d.get? (place ++ [manifestFile])) :
    d'.manifestAt place = d.manifestAt place := by
  unfold manifestAt
  rw [h]

theorem GrowsTo.manifestAt {d d' : Disk} (h : GrowsTo d d') (place : DiskPlace) :
    d'.manifestAt place = d.manifestAt place := by
  rcases h (place ++ [manifestFile]) with e | ⟨hnone, hdir⟩
  · exact manifestAt_congr e
  · unfold Disk.manifestAt
    rw [hnone, hdir]

end Disk

/-! ## 2. Opening -/

namespace DirectorySink

theorem previousManifest_eq {d : Disk} {dir : String} {place : DiskPlace}
    (h : d.OpensAt dir place) : previousManifest d dir = d.manifestAt place := by
  unfold previousManifest Manifest.load Disk.manifestAt
  rw [Disk.readText_inside h isBareName_manifestFile]
  cases d.get? (place ++ [manifestFile]) with
  | none => rfl
  | some entry =>
    cases entry with
    | directory => rfl
    | file content =>
      dsimp only
      cases String.fromUTF8? content with
      | none => rfl
      | some text =>
        dsimp only [Option.bind_some]
        unfold Manifest.ofText
        cases Manifest.ofText? text <;> rfl

theorem growsTo_new (dir : String) (d : Disk) : d.GrowsTo (new dir d).2 := by
  have hgrows : d.GrowsTo (d.makeDirectories dir).2 :=
    (Disk.growsTo_makeDirectoriesWithin (dir.length + 1) d dir).1
  unfold new
  split
  · rename_i hmake
    rw [hmake] at hgrows
    exact hgrows
  · rename_i hmake
    rw [hmake] at hgrows
    exact hgrows

/-- **An opened sink** has its directory on the disk and the manifest that was there. -/
theorem exists_place_of_new {dir : String} {d d' : Disk} {sink : DirectorySink}
    (h : new dir d = (.ok sink, d')) :
    ∃ place, d'.OpensAt dir place ∧ sink = { dir := dir, manifest := d.manifestAt place } := by
  have hgrows := growsTo_new dir d
  rw [h] at hgrows
  have hopen := (Disk.growsTo_makeDirectoriesWithin (dir.length + 1) d dir).2
  change (d.makeDirectories dir).1 = .ok () → ∃ place, (d.makeDirectories dir).2.OpensAt dir place
    at hopen
  unfold new at h
  split at h
  · cases h
  · rename_i d₁ hmake
    cases h
    rw [hmake] at hopen
    obtain ⟨place, hplace⟩ := hopen rfl
    exact ⟨place, hplace, by rw [previousManifest_eq hplace, hgrows.manifestAt]⟩

/-- Opening a directory that is there. -/
theorem new_of_opensAt {dir : String} {d : Disk} {place : DiskPlace} (h : d.OpensAt dir place) :
    new dir d = (.ok { dir := dir, manifest := d.manifestAt place }, d) := by
  rw [new, Disk.makeDirectories_of_opensAt h]
  dsimp only
  rw [previousManifest_eq h]

/-! ## 3. Storing -/

section Persist

variable {st : DirectoryState} {place : DiskPlace} {a : Artifact}

/-- A file counts as holding an artifact if its text has the artifact's fingerprint. -/
theorem holds_iff (hopen : st.disk.OpensAt st.sink.dir place) (ha : isBareName a.id = true) :
    st.sink.holds st.disk a = true ↔
      ∃ text, st.disk.get? (place ++ [a.id]) = some (.file text.toUTF8) ∧
        { a with text := text }.fingerprint = a.fingerprint := by
  have hiff : ∀ text, st.disk.readText (join st.sink.dir a.id) = .ok text ↔
      st.disk.get? (place ++ [a.id]) = some (.file text.toUTF8) :=
    fun _ => Disk.readText_inside_eq_ok_iff hopen ha
  unfold holds pathOf
  cases hread : st.disk.readText (join st.sink.dir a.id) with
  | error e =>
    refine iff_of_false (by simp) ?_
    rintro ⟨text, hfile, -⟩
    rw [(hiff text).mpr hfile] at hread
    cases hread
  | ok text =>
    constructor
    · intro h
      exact ⟨text, (hiff text).mp hread, by simpa using h⟩
    · rintro ⟨text', hfile, h⟩
      rw [(hiff text').mpr hfile] at hread
      cases hread
      simpa using h

/-- **Storing an artifact with a bare name.** -/
theorem persist_eq (hopen : st.disk.OpensAt st.sink.dir place) (ha : isBareName a.id = true) :
    persist st a =
      if st.sink.holds st.disk a then (.ok .unchanged, ⟨st.sink.list a, st.disk⟩)
      else if st.disk.get? (place ++ [a.id]) = some .directory then
        (.error (.disk (st.sink.pathOf a.id) .isADirectory), ⟨st.sink.list a, st.disk⟩)
      else (.ok .written,
        ⟨st.sink.list a, st.disk.put (place ++ [a.id]) (.file a.text.toUTF8)⟩) := by
  unfold persist
  dsimp only
  split
  · rfl
  · have hwrite := Disk.writeText_inside hopen ha a.text
    change st.disk.writeText (st.sink.pathOf a.id) a.text = _ at hwrite
    rw [hwrite]
    by_cases hdir : st.disk.get? (place ++ [a.id]) = some .directory
    · rw [if_pos hdir, if_pos hdir]
    · rw [if_neg hdir, if_neg hdir]

/-- The artifact is listed, failure or not. -/
theorem persist_sink (st : DirectoryState) (a : Artifact) :
    (persist st a).2.sink = st.sink.list a := by
  unfold persist
  dsimp only
  split
  · rfl
  · split <;> rfl

theorem persist_edited (hopen : st.disk.OpensAt st.sink.dir place) (ha : isBareName a.id = true) :
    Disk.EditedIn place [a.id] st.disk (persist st a).2.disk := by
  rw [persist_eq hopen ha]
  split
  · exact .refl ..
  · split
    · exact .refl ..
    · rename_i hdir
      exact .put (List.mem_singleton_self _) _ hdir

/-- The directory is still open after an artifact was stored. -/
theorem persist_opensAt (hopen : st.disk.OpensAt st.sink.dir place) (ha : isBareName a.id = true) :
    (persist st a).2.disk.OpensAt (persist st a).2.sink.dir place := by
  rw [persist_sink]
  exact (persist_edited hopen ha).opensAt hopen

/-- A file is where an artifact was stored. -/
theorem exists_file_of_persist {outcome : WriteOutcome} {st' : DirectoryState}
    (hopen : st.disk.OpensAt st.sink.dir place) (ha : isBareName a.id = true)
    (h : persist st a = (.ok outcome, st')) :
    ∃ content, st'.disk.get? (place ++ [a.id]) = some (.file content) := by
  rw [persist_eq hopen ha] at h
  split at h
  · rename_i hholds
    cases h
    obtain ⟨text, htext, -⟩ := (holds_iff hopen ha).mp hholds
    exact ⟨_, htext⟩
  · split at h
    · cases h
    · cases h
      exact ⟨a.text.toUTF8, by simp⟩

/-- An artifact that was stored has its text in its file, if no other text has its fingerprint; it
    was written unless the text was there. -/
theorem persist_text {outcome : WriteOutcome} {st' : DirectoryState}
    (hopen : st.disk.OpensAt st.sink.dir place) (ha : isBareName a.id = true)
    (hdigest : ∀ text, st.disk.get? (place ++ [a.id]) = some (.file text.toUTF8) →
      { a with text := text }.fingerprint = a.fingerprint → text = a.text)
    (h : persist st a = (.ok outcome, st')) :
    st'.disk.get? (place ++ [a.id]) = some (.file a.text.toUTF8) ∧
      outcome = if st.disk.get? (place ++ [a.id]) = some (.file a.text.toUTF8) then .unchanged
        else .written := by
  rw [persist_eq hopen ha] at h
  split at h
  · rename_i hholds
    cases h
    obtain ⟨text, htext, hprint⟩ := (holds_iff hopen ha).mp hholds
    rw [hdigest text htext hprint] at htext
    exact ⟨htext, by rw [if_pos htext]⟩
  · rename_i hholds
    split at h
    · cases h
    · cases h
      refine ⟨by simp, ?_⟩
      rw [if_neg fun htext => hholds ((holds_iff hopen ha).mpr ⟨a.text, htext, rfl⟩)]

end Persist

/-! ## 4. Storing one after the other -/

end DirectorySink

namespace Sink

variable {σ : Type} [Sink σ]

theorem persistAll_cons_of_error {a : Artifact} {rest : List Artifact} {s s₁ : σ} {e : Failure}
    (h : persist s a = (.error e, s₁)) : persistAll (a :: rest) s = (.error e, s₁) := by
  rw [persistAll, h]

theorem persistAll_cons_of_ok {a : Artifact} {rest : List Artifact} {s s₁ : σ}
    {outcome : WriteOutcome} (h : persist s a = (.ok outcome, s₁)) :
    (persistAll (a :: rest) s).2 = (persistAll rest s₁).2 := by
  rw [persistAll, h]
  dsimp only
  split
  · rename_i htail
    rw [htail]
  · rename_i htail
    rw [htail]

/-- What storing one artifact keeps, storing them all keeps, failure or not. -/
theorem persistAll_keeps {P : σ → Prop} {artifacts : List Artifact}
    (hstep : ∀ a ∈ artifacts, ∀ s, P s → P (persist s a).2) {s : σ} (h : P s) :
    P (persistAll artifacts s).2 := by
  induction artifacts generalizing s with
  | nil => exact h
  | cons a rest ih =>
    have ha := hstep a List.mem_cons_self s h
    rcases hpersist : persist s a with ⟨result, s₁⟩
    rw [hpersist] at ha
    cases result with
    | error e =>
      rw [persistAll_cons_of_error hpersist]
      exact ha
    | ok outcome =>
      rw [persistAll_cons_of_ok hpersist]
      exact ih (fun b hb => hstep b (List.mem_cons_of_mem _ hb)) ha

theorem exists_of_persistAll_cons {a : Artifact} {rest : List Artifact} {s s' : σ}
    {outcomes : List WriteOutcome} (h : persistAll (a :: rest) s = (.ok outcomes, s')) :
    ∃ outcome s₁ tail, persist s a = (.ok outcome, s₁) ∧ persistAll rest s₁ = (.ok tail, s') ∧
      outcomes = outcome :: tail := by
  unfold persistAll at h
  split at h
  · cases h
  · rename_i hpersist
    split at h
    · cases h
    · rename_i htail
      cases h
      exact ⟨_, _, _, hpersist, htail, rfl⟩

theorem exists_of_store {artifacts : List Artifact} {s s' : σ} {outcomes : List WriteOutcome}
    (h : store artifacts s = (.ok outcomes, s')) :
    ∃ s₁, persistAll artifacts s = (.ok outcomes, s₁) ∧ finish s₁ = (.ok (), s') := by
  unfold store at h
  split at h
  · cases h
  · rename_i hpersist
    split at h
    · cases h
    · rename_i hfinish
      cases h
      exact ⟨_, hpersist, hfinish⟩

end Sink

namespace DirectorySink

section PersistAll

variable {st st' : DirectoryState} {place : DiskPlace} {artifacts : List Artifact}
  {outcomes : List WriteOutcome}

/-- Storing artifacts, failure or not, writes their files only and lists them at most. -/
theorem persistAll_edited (hopen : st.disk.OpensAt st.sink.dir place)
    (hbare : ∀ a ∈ artifacts, isBareName a.id = true) :
    Disk.EditedIn place (artifacts.map (·.id)) st.disk (Sink.persistAll artifacts st).2.disk ∧
      ∃ pending, (Sink.persistAll artifacts st).2.sink = { st.sink with pending := pending } := by
  refine Sink.persistAll_keeps (P := fun s : DirectoryState =>
    Disk.EditedIn place (artifacts.map (·.id)) st.disk s.disk ∧
      ∃ pending, s.sink = { st.sink with pending := pending }) ?_ ⟨.refl .., _, rfl⟩
  rintro a ha s ⟨hedited, pending, hsink⟩
  have hs : s.disk.OpensAt s.sink.dir place := by
    rw [hsink]
    exact hedited.opensAt hopen
  refine ⟨hedited.trans ((persist_edited hs (hbare a ha)).mono ?_), _,
    (persist_sink s a).trans (by rw [list, hsink])⟩
  intro name hname
  rw [List.mem_singleton.mp hname]
  exact List.mem_map_of_mem ha

/-- The directory is still open after artifacts were stored. -/
theorem persistAll_opensAt (hopen : st.disk.OpensAt st.sink.dir place)
    (hbare : ∀ a ∈ artifacts, isBareName a.id = true) :
    (Sink.persistAll artifacts st).2.disk.OpensAt (Sink.persistAll artifacts st).2.sink.dir
      place := by
  obtain ⟨hedited, pending, hsink⟩ := persistAll_edited hopen hbare
  rw [hsink]
  exact hedited.opensAt hopen

/-- Artifacts that were all stored are all listed. -/
theorem sink_of_persistAll (h : Sink.persistAll artifacts st = (.ok outcomes, st')) :
    st'.sink = { st.sink with pending := ⟨st.sink.pending.entries ++ artifacts.map .of⟩ } := by
  induction artifacts generalizing st outcomes with
  | nil =>
    cases h
    simp
  | cons a rest ih =>
    obtain ⟨outcome, s₁, tail, hpersist, htail, -⟩ := Sink.exists_of_persistAll_cons h
    change persist st a = _ at hpersist
    have hsink₁ := persist_sink st a
    rw [hpersist] at hsink₁
    dsimp only at hsink₁
    rw [ih htail, hsink₁, list]
    simp

/-- **Artifacts with distinct names that were all stored** have their texts in their files; those
    were written whose texts were not there. -/
theorem persistAll_texts (hopen : st.disk.OpensAt st.sink.dir place)
    (hbare : ∀ a ∈ artifacts, isBareName a.id = true) (hdistinct : (artifacts.map (·.id)).Nodup)
    (hdigest : ∀ a ∈ artifacts, ∀ text,
      st.disk.get? (place ++ [a.id]) = some (.file text.toUTF8) →
        { a with text := text }.fingerprint = a.fingerprint → text = a.text)
    (h : Sink.persistAll artifacts st = (.ok outcomes, st')) :
    (∀ a ∈ artifacts, st'.disk.get? (place ++ [a.id]) = some (.file a.text.toUTF8)) ∧
      outcomes = artifacts.map fun a =>
        if st.disk.get? (place ++ [a.id]) = some (.file a.text.toUTF8) then .unchanged
        else .written := by
  induction artifacts generalizing st outcomes with
  | nil =>
    cases h
    exact ⟨nofun, rfl⟩
  | cons a rest ih =>
    obtain ⟨outcome, s₁, tail, hpersist, htail, rfl⟩ := Sink.exists_of_persistAll_cons h
    change persist st a = _ at hpersist
    rw [List.map_cons, List.nodup_cons] at hdistinct
    have ha := hbare a List.mem_cons_self
    have hbare' : ∀ b ∈ rest, isBareName b.id = true :=
      fun b hb => hbare b (List.mem_cons_of_mem _ hb)
    have hopen₁ := persist_opensAt hopen ha
    have hedited₁ := persist_edited hopen ha
    rw [hpersist] at hopen₁ hedited₁
    -- the file of a later artifact is as it was, for its name is another one
    have hsame : ∀ b ∈ rest, s₁.disk.get? (place ++ [b.id]) = st.disk.get? (place ++ [b.id]) := by
      intro b hb
      refine hedited₁.get?_of_notMem fun hmem => hdistinct.1 ?_
      rw [← List.mem_singleton.mp hmem]
      exact List.mem_map_of_mem hb
    obtain ⟨htext, houtcome⟩ :=
      persist_text hopen ha (hdigest a List.mem_cons_self) hpersist
    obtain ⟨hrest, houtcomes⟩ := ih hopen₁ hbare' hdistinct.2
      (fun b hb text hget => hdigest b (List.mem_cons_of_mem _ hb) text (hsame b hb ▸ hget)) htail
    have hedited := (persistAll_edited hopen₁ hbare').1
    rw [htail] at hedited
    constructor
    · intro b hb
      rcases List.mem_cons.mp hb with rfl | hb
      · rw [hedited.get?_of_notMem hdistinct.1]
        exact htext
      · exact hrest b hb
    · rw [List.map_cons, houtcome, houtcomes]
      refine congrArg _ (List.map_congr_left fun b hb => ?_)
      rw [hsame b hb]

/-- Artifacts can all be stored if no directory stands where a file goes. -/
theorem exists_persistAll (hopen : st.disk.OpensAt st.sink.dir place)
    (hbare : ∀ a ∈ artifacts, isBareName a.id = true)
    (hfree : ∀ a ∈ artifacts, st.disk.get? (place ++ [a.id]) ≠ some .directory) :
    ∃ outcomes st', Sink.persistAll artifacts st = (.ok outcomes, st') := by
  induction artifacts generalizing st with
  | nil => exact ⟨_, _, rfl⟩
  | cons a rest ih =>
    have ha := hbare a List.mem_cons_self
    have hok : ∃ outcome, (persist st a).1 = .ok outcome := by
      rw [persist_eq hopen ha, if_neg (hfree a List.mem_cons_self)]
      split
      · exact ⟨_, rfl⟩
      · exact ⟨_, rfl⟩
    obtain ⟨outcome, houtcome⟩ := hok
    have hpersist : Sink.persist st a = (.ok outcome, (persist st a).2) := Prod.ext houtcome rfl
    obtain ⟨outcomes, st', htail⟩ := ih (persist_opensAt hopen ha)
      (fun b hb => hbare b (List.mem_cons_of_mem _ hb))
      (fun b hb hdir => hfree b (List.mem_cons_of_mem _ hb)
        (((persist_edited hopen ha).directories _).mp hdir))
    exact ⟨outcome :: outcomes, st', by rw [Sink.persistAll, hpersist]; dsimp only; rw [htail]⟩

end PersistAll

/-! ## 5. Finishing -/

section Finish

variable {s : DirectorySink} {d d' : Disk} {place : DiskPlace}

/-- **Removing a file that may be missing.** -/
theorem removeIfThere_eq (hopen : d.OpensAt s.dir place) {name : String}
    (hname : isBareName name = true) :
    s.removeIfThere d name =
      match d.get? (place ++ [name]) with
      | none => .ok d
      | some .directory => .error (.disk (s.pathOf name) .isADirectory)
      | some (.file _) => .ok (d.erase (place ++ [name])) := by
  unfold removeIfThere pathOf
  rw [Disk.removeFile_inside hopen hname]
  cases d.get? (place ++ [name]) with
  | none => rfl
  | some entry =>
    cases entry with
    | directory => rfl
    | file content => rfl

theorem removeIfThere_edited (hopen : d.OpensAt s.dir place) {name : String}
    (hname : isBareName name = true) (h : s.removeIfThere d name = .ok d') :
    Disk.EditedIn place [name] d d' ∧ d'.get? (place ++ [name]) = none := by
  rw [removeIfThere_eq hopen hname] at h
  split at h
  · rename_i hnone
    cases h
    exact ⟨.refl .., hnone⟩
  · cases h
  · rename_i content hfile
    cases h
    refine ⟨.erase (List.mem_singleton_self _) ?_, by simp⟩
    rw [hfile]
    nofun

variable {entries : List ManifestEntry}

/-- Removing files, failure or not, removes those files only. -/
theorem removeAll_edited (hopen : d.OpensAt s.dir place)
    (hbare : ∀ e ∈ entries, isBareName e.id = true) :
    Disk.EditedIn place (entries.map (·.id)) d (s.removeAll entries d).2 := by
  induction entries generalizing d with
  | nil => exact .refl ..
  | cons e rest ih =>
    unfold removeAll
    split
    · rename_i d₁ hremove
      have hedited := (removeIfThere_edited hopen (hbare e List.mem_cons_self) hremove).1
      have hrest := ih (hedited.opensAt hopen) fun e' he' => hbare e' (List.mem_cons_of_mem _ he')
      exact (hedited.mono (by simp)).trans (hrest.mono (by simp))
    · exact .refl ..

/-- Files that were all removed are gone. -/
theorem vacant_of_removeAll (hopen : d.OpensAt s.dir place)
    (hbare : ∀ e ∈ entries, isBareName e.id = true) (h : s.removeAll entries d = (.ok (), d')) :
    ∀ e ∈ entries, d'.get? (place ++ [e.id]) = none := by
  induction entries generalizing d with
  | nil => nofun
  | cons e rest ih =>
    unfold removeAll at h
    split at h
    · rename_i d₁ hremove
      obtain ⟨hedited, hvacant⟩ := removeIfThere_edited hopen (hbare e List.mem_cons_self) hremove
      have hopen₁ := hedited.opensAt hopen
      have hbare' : ∀ e' ∈ rest, isBareName e'.id = true :=
        fun e' he' => hbare e' (List.mem_cons_of_mem _ he')
      have hrest := ih hopen₁ hbare' h
      intro e' he'
      rcases List.mem_cons.mp he' with rfl | he'
      · -- an entry can be listed twice: the second time nothing is there to remove
        by_cases hagain : e'.id ∈ rest.map (·.id)
        · obtain ⟨e'', he'', hid⟩ := List.mem_map.mp hagain
          rw [← hid]
          exact hrest e'' he''
        · have hedited' := removeAll_edited hopen₁ hbare'
          rw [h] at hedited'
          rw [hedited'.get?_of_notMem hagain, hvacant]
      · exact hrest e' he'
    · cases h

theorem exists_removeAll (hopen : d.OpensAt s.dir place)
    (hbare : ∀ e ∈ entries, isBareName e.id = true)
    (hfree : ∀ e ∈ entries, d.get? (place ++ [e.id]) ≠ some .directory) :
    ∃ d', s.removeAll entries d = (.ok (), d') := by
  induction entries generalizing d with
  | nil => exact ⟨_, rfl⟩
  | cons e rest ih =>
    have hok : ∃ d₁, s.removeIfThere d e.id = .ok d₁ := by
      rw [removeIfThere_eq hopen (hbare e List.mem_cons_self)]
      split
      · exact ⟨_, rfl⟩
      · exact absurd ‹_› (hfree e List.mem_cons_self)
      · exact ⟨_, rfl⟩
    obtain ⟨d₁, hremove⟩ := hok
    have hedited := (removeIfThere_edited hopen (hbare e List.mem_cons_self) hremove).1
    obtain ⟨d', hd'⟩ := ih (hedited.opensAt hopen)
      (fun e' he' => hbare e' (List.mem_cons_of_mem _ he'))
      (fun e' he' hdir => hfree e' (List.mem_cons_of_mem _ he') ((hedited.directories _).mp hdir))
    refine ⟨d', ?_⟩
    unfold removeAll
    rw [hremove]
    exact hd'

/-- What stands in the place of the manifest once it was stored. -/
def manifestEntry? (s : DirectorySink) : Option DiskEntry :=
  if s.writeManifest then some (.file s.manifest.render.toUTF8) else none

/-- A manifest that is stored, if that is switched on, was written to its file. -/
theorem writeText_of_storeManifest (hwrite : s.writeManifest = true)
    (h : s.storeManifest d = .ok d') :
    d.writeText (s.pathOf manifestFile) s.manifest.render = .ok d' := by
  rw [storeManifest, if_pos hwrite] at h
  split at h
  · rename_i hwritten
    cases h
    exact hwritten
  · cases h

/-- **Storing the manifest.** -/
theorem storeManifest_edited (hopen : d.OpensAt s.dir place) (h : s.storeManifest d = .ok d') :
    Disk.EditedIn place [manifestFile] d d' ∧
      d'.get? (place ++ [manifestFile]) = s.manifestEntry? := by
  unfold manifestEntry?
  by_cases hwrite : s.writeManifest = true
  · obtain ⟨place', hopen', hfree, rfl⟩ :=
      Disk.exists_opensAt_of_writeText isBareName_manifestFile (writeText_of_storeManifest hwrite h)
    obtain rfl := hopen'.unique hopen
    rw [if_pos hwrite]
    exact ⟨.put (List.mem_singleton_self _) _ hfree, by simp⟩
  · rw [storeManifest, if_neg hwrite] at h
    rw [if_neg hwrite]
    exact removeIfThere_edited hopen isBareName_manifestFile h

theorem exists_storeManifest (hopen : d.OpensAt s.dir place)
    (hfree : d.get? (place ++ [manifestFile]) ≠ some .directory) :
    ∃ d', s.storeManifest d = .ok d' := by
  unfold storeManifest
  split
  · have hwritten := Disk.writeText_inside hopen isBareName_manifestFile s.manifest.render
    change d.writeText (s.pathOf manifestFile) _ = _ at hwritten
    rw [hwritten, if_neg hfree]
    exact ⟨_, rfl⟩
  · rw [removeIfThere_eq hopen isBareName_manifestFile]
    split
    · exact ⟨_, rfl⟩
    · exact absurd ‹_› hfree
    · exact ⟨_, rfl⟩

/-- The names of the files that finishing removes. -/
def staleNames (s : DirectorySink) : List String := (s.manifest.entries.filter s.isStale).map (·.id)

theorem mem_staleNames {name : String} :
    name ∈ s.staleNames ↔ name ∈ s.manifest.entries.map (·.id) ∧
      name ∉ s.pending.entries.map (·.id) ∧ isBareName name = true := by
  have hstale : ∀ e : ManifestEntry, s.isStale e = true ↔
      e.id ∉ s.pending.entries.map (·.id) ∧ isBareName e.id = true := by
    intro e
    rw [isStale, Bool.and_eq_true, Bool.not_eq_true', ← Bool.not_eq_true, List.contains_iff_mem]
  constructor
  · intro h
    obtain ⟨e, he, rfl⟩ := List.mem_map.mp h
    obtain ⟨he, hfresh⟩ := List.mem_filter.mp he
    exact ⟨List.mem_map_of_mem he, (hstale e).mp hfresh⟩
  · rintro ⟨hlisted, hfresh⟩
    obtain ⟨e, he, rfl⟩ := List.mem_map.mp hlisted
    exact List.mem_map_of_mem (List.mem_filter.mpr ⟨he, (hstale e).mpr hfresh⟩)

theorem isBareName_of_isStale :
    ∀ e ∈ s.manifest.entries.filter s.isStale, isBareName e.id = true :=
  fun _ he => (mem_staleNames.mp (List.mem_map_of_mem he)).2.2

variable {st st' : DirectoryState}

/-- A run that was finished removed what was left over, and then stored the manifest. -/
theorem exists_of_finish (h : finish st = (.ok (), st')) :
    ∃ disk, st.sink.removeAll (st.sink.manifest.entries.filter st.sink.isStale) st.disk =
        (.ok (), disk) ∧
      st.sink.advance.storeManifest disk = .ok st'.disk ∧ st'.sink = st.sink.advance := by
  unfold finish at h
  split at h
  · cases h
  · rename_i disk hremove
    split at h
    · rename_i disk' hstored
      cases h
      exact ⟨disk, hremove, hstored, rfl⟩
    · cases h

/-- **A finished run.** What is left over is gone, the manifest is stored, and nothing else is
    touched. -/
theorem finish_edited (hopen : st.disk.OpensAt st.sink.dir place)
    (h : finish st = (.ok (), st')) :
    Disk.EditedIn place (manifestFile :: st.sink.staleNames) st.disk st'.disk ∧
      st'.disk.get? (place ++ [manifestFile]) = st.sink.advance.manifestEntry? ∧
      ∀ name ∈ st.sink.staleNames, name ≠ manifestFile →
        st'.disk.get? (place ++ [name]) = none := by
  obtain ⟨disk, hremove, hstored, -⟩ := exists_of_finish h
  have hremoved := removeAll_edited hopen (isBareName_of_isStale (s := st.sink))
  rw [hremove] at hremoved
  have hopen' : disk.OpensAt st.sink.advance.dir place := hremoved.opensAt hopen
  obtain ⟨hedited, hmanifest⟩ := storeManifest_edited hopen' hstored
  refine ⟨(hremoved.mono (List.subset_cons_self ..)).trans (hedited.mono (by simp)), hmanifest,
    fun name hname hne => ?_⟩
  obtain ⟨e, he, rfl⟩ := List.mem_map.mp hname
  rw [hedited.get?_of_notMem (by simpa using hne)]
  exact vacant_of_removeAll hopen isBareName_of_isStale hremove e he

/-- A run that could not be finished removed files of the last one at most. -/
theorem finish_edited_of_error {e : Failure} (hopen : st.disk.OpensAt st.sink.dir place)
    (h : finish st = (.error e, st')) :
    Disk.EditedIn place st.sink.staleNames st.disk st'.disk := by
  have hremoved := removeAll_edited hopen (isBareName_of_isStale (s := st.sink))
  unfold finish at h
  split at h
  · rename_i hremove
    rw [hremove] at hremoved
    cases h
    exact hremoved
  · rename_i hremove
    rw [hremove] at hremoved
    split at h
    · cases h
    · cases h
      exact hremoved

/-- A run can be finished if no directory stands where a file is to be removed or written. -/
theorem exists_finish (hopen : st.disk.OpensAt st.sink.dir place)
    (hfree : ∀ name ∈ manifestFile :: st.sink.staleNames,
      st.disk.get? (place ++ [name]) ≠ some .directory) :
    ∃ st', finish st = (.ok (), st') := by
  obtain ⟨disk, hremove⟩ := exists_removeAll hopen isBareName_of_isStale fun e he =>
    hfree e.id (List.mem_cons_of_mem _ (List.mem_map_of_mem he))
  have hremoved := removeAll_edited hopen (isBareName_of_isStale (s := st.sink))
  rw [hremove] at hremoved
  have hopen' : disk.OpensAt st.sink.advance.dir place := hremoved.opensAt hopen
  obtain ⟨disk', hstored⟩ := exists_storeManifest hopen' fun hdir =>
    hfree manifestFile List.mem_cons_self ((hremoved.directories _).mp hdir)
  refine ⟨⟨st.sink.advance, disk'⟩, ?_⟩
  rw [finish, hremove]
  dsimp only
  rw [hstored]

end Finish

/-! ## 6. The directory after a run -/

/-- The sink with these artifacts listed, and no others. -/
def listing (s : DirectorySink) (artifacts : List Artifact) : DirectorySink :=
  { s with pending := ⟨artifacts.map .of⟩ }

theorem mem_staleNames_listing {s : DirectorySink} {artifacts : List Artifact} {name : String} :
    name ∈ (s.listing artifacts).staleNames ↔ name ∈ s.manifest.entries.map (·.id) ∧
      name ∉ artifacts.map (·.id) ∧ isBareName name = true := by
  have hids : (artifacts.map ManifestEntry.of).map (·.id) = artifacts.map (·.id) := by
    rw [List.map_map]
    rfl
  rw [mem_staleNames, listing, hids]

section Store

variable {st st' : DirectoryState} {place : DiskPlace} {artifacts : List Artifact}
  {outcomes : List WriteOutcome}

/-- **A run that was stored.** First the files of the artifacts were written, then what is left over
    was removed and the manifest stored. -/
theorem store_edited (hopen : st.disk.OpensAt st.sink.dir place)
    (hbare : ∀ a ∈ artifacts, isBareName a.id = true) (hfresh : st.sink.pending = {})
    (h : Sink.store artifacts st = (.ok outcomes, st')) :
    ∃ disk, Sink.persistAll artifacts st = (.ok outcomes, ⟨st.sink.listing artifacts, disk⟩) ∧
      Disk.EditedIn place (artifacts.map (·.id)) st.disk disk ∧
      Disk.EditedIn place (manifestFile :: (st.sink.listing artifacts).staleNames) disk st'.disk ∧
      st'.disk.get? (place ++ [manifestFile]) =
        (st.sink.listing artifacts).advance.manifestEntry? ∧
      ∀ name ∈ (st.sink.listing artifacts).staleNames, name ≠ manifestFile →
        st'.disk.get? (place ++ [name]) = none := by
  obtain ⟨⟨sink, disk⟩, hpersist, hfinish⟩ := Sink.exists_of_store h
  have hwritten := (persistAll_edited hopen hbare).1
  rw [hpersist] at hwritten
  have hsink : sink = st.sink.listing artifacts := by
    have := sink_of_persistAll hpersist
    rw [hfresh] at this
    exact this
  subst hsink
  exact ⟨disk, hpersist, hwritten, finish_edited (hwritten.opensAt hopen) hfinish⟩

/-- **A run can be stored** if no directory stands where a file is to be written or removed. -/
theorem exists_store (hopen : st.disk.OpensAt st.sink.dir place)
    (hbare : ∀ a ∈ artifacts, isBareName a.id = true)
    (hfree : ∀ name ∈ manifestFile :: artifacts.map (·.id) ++ st.sink.manifest.entries.map (·.id),
      st.disk.get? (place ++ [name]) ≠ some .directory) :
    ∃ outcomes st', Sink.store artifacts st = (.ok outcomes, st') := by
  obtain ⟨outcomes, st₁, hpersist⟩ := exists_persistAll hopen hbare fun a ha =>
    hfree a.id (List.mem_append_left _ (List.mem_cons_of_mem _ (List.mem_map_of_mem ha)))
  obtain ⟨hwritten, pending, hsink⟩ := persistAll_edited hopen hbare
  have hopen₁ := persistAll_opensAt hopen hbare
  rw [hpersist] at hwritten hsink hopen₁
  dsimp only at hsink
  have hfree₁ : ∀ name ∈ manifestFile :: st₁.sink.staleNames,
      st₁.disk.get? (place ++ [name]) ≠ some .directory := by
    intro name hname hdir
    refine hfree name ?_ ((hwritten.directories _).mp hdir)
    rcases List.mem_cons.mp hname with rfl | hname
    · exact List.mem_cons_self
    · have hlisted := (mem_staleNames.mp hname).1
      rw [hsink] at hlisted
      exact List.mem_append_right _ hlisted
  obtain ⟨st', hfinish⟩ := exists_finish hopen₁ hfree₁
  refine ⟨outcomes, st', ?_⟩
  change Sink.finish st₁ = _ at hfinish
  rw [Sink.store, hpersist]
  dsimp only
  rw [hfinish]

end Store

end DirectorySink

open DirectorySink in
/-- **The directory after a run.** A directory with any content and any manifest is opened, artifacts
    with distinct bare names are stored, and the run is finished. If all succeeds and no file had
    another text with the fingerprint of its artifact, then

    * the file of each artifact has its text;
    * what else the manifest listed, as far as names are bare, is gone;
    * the manifest lists the artifacts in their order, or is gone if none is to be written;
    * every other file is as it was;
    * an artifact was unchanged exactly if its file had its text. -/
theorem directory_after_store {dir : String} {before opened : Disk} {sink : DirectorySink}
    {writeManifest : Bool} {artifacts : List Artifact} {outcomes : List WriteOutcome}
    {after : DirectoryState}
    (hopened : DirectorySink.new dir before = (.ok sink, opened))
    (hdistinct : (artifacts.map (·.id)).Nodup)
    (hnames : ∀ a ∈ artifacts, isBareName a.id = true ∧ a.id ≠ manifestFile)
    (hdigest : ∀ a ∈ artifacts, ∀ text, opened.readText (join dir a.id) = .ok text →
      { a with text := text }.fingerprint = a.fingerprint → text = a.text)
    (hstored : Sink.store artifacts (⟨sink.withManifest writeManifest, opened⟩ : DirectoryState) =
      (.ok outcomes, after)) :
    ∃ place, opened.OpensAt dir place ∧ after.disk.OpensAt dir place ∧
      (∀ a ∈ artifacts, after.disk.get? (place ++ [a.id]) = some (.file a.text.toUTF8)) ∧
      (∀ name ∈ (before.manifestAt place).entries.map (·.id), isBareName name = true →
        name ≠ manifestFile → name ∉ artifacts.map (·.id) →
        after.disk.get? (place ++ [name]) = none) ∧
      (if writeManifest then
          Manifest.load after.disk (join dir manifestFile) = .ok ⟨artifacts.map ManifestEntry.of⟩
        else after.disk.get? (place ++ [manifestFile]) = none) ∧
      (∀ p content,
        (∀ name, p = place ++ [name] → name ≠ manifestFile ∧ name ∉ artifacts.map (·.id) ∧
          (isBareName name = true → name ∉ (before.manifestAt place).entries.map (·.id))) →
        (after.disk.get? p = some (.file content) ↔ before.get? p = some (.file content))) ∧
      outcomes = artifacts.map fun a =>
        if before.get? (place ++ [a.id]) = some (.file a.text.toUTF8) then .unchanged
        else .written := by
  obtain ⟨place, hopen, rfl⟩ := exists_place_of_new hopened
  have hgrows := growsTo_new dir before
  rw [hopened] at hgrows
  have hbare : ∀ a ∈ artifacts, isBareName a.id = true := fun a ha => (hnames a ha).1
  have hopen₀ : (⟨withManifest ⟨dir, true, before.manifestAt place, {}⟩ writeManifest,
      opened⟩ : DirectoryState).disk.OpensAt dir place := hopen
  obtain ⟨disk, hpersist, hwritten, hfinished, hmanifest, hremoved⟩ :=
    store_edited hopen₀ hbare rfl hstored
  obtain ⟨htexts, houtcomes⟩ := persistAll_texts hopen₀ hbare hdistinct
    (fun a ha text hget =>
      hdigest a ha text ((Disk.readText_inside_eq_ok_iff hopen (hbare a ha)).mpr hget)) hpersist
  refine ⟨place, hopen, hfinished.opensAt (hwritten.opensAt hopen), ?_, ?_, ?_, ?_, ?_⟩
  · intro a ha
    rw [hfinished.get?_of_notMem]
    · exact htexts a ha
    · rw [List.mem_cons, not_or]
      exact ⟨(hnames a ha).2, fun hstale =>
        (mem_staleNames_listing.mp hstale).2.1 (List.mem_map_of_mem ha)⟩
  · intro name hlisted hname hne hother
    exact hremoved name (mem_staleNames_listing.mpr ⟨hlisted, hother, hname⟩) hne
  · cases writeManifest with
    | false => exact hmanifest
    | true =>
      change _ = some (DiskEntry.file (Manifest.render ⟨artifacts.map .of⟩).toUTF8) at hmanifest
      have hopen' := hfinished.opensAt (hwritten.opensAt hopen)
      rw [if_pos rfl, Manifest.load,
        (Disk.readText_inside_eq_ok_iff hopen' isBareName_manifestFile).mpr hmanifest]
      dsimp only
      rw [Manifest.ofText, Manifest.ofText?_render]
  · intro p content hp
    rw [hfinished.elsewhere p, hwritten.elsewhere p]
    · exact hgrows.file_iff
    · intro name hname e
      exact (hp name e).2.1 hname
    · intro name hname e
      rcases List.mem_cons.mp hname with rfl | hstale
      · exact (hp _ e).1 rfl
      · obtain ⟨hlisted, -, hbare'⟩ := mem_staleNames_listing.mp hstale
        exact (hp name e).2.2 hbare' hlisted
  · rw [houtcomes]
    refine List.map_congr_left fun a _ => ?_
    exact if_congr hgrows.file_iff rfl rfl

/-- What the manifest of `usedDisk` lists. -/
def usedManifest : Manifest :=
  ⟨["gone.rs", "kept.rs", "changed.rs"].map fun id => ⟨id, .extension, "0"⟩⟩

/-- A directory with a file of each kind: `gone.rs` is left over, `kept.rs` has its text already,
    `changed.rs` has another one, and `notes.txt` is not listed. -/
def usedDisk : Disk :=
  (((((({} : Disk).put ["out"] .directory).put ["out", "gone.rs"] (.file "old".toUTF8)).put
    ["out", "kept.rs"] (.file "same".toUTF8)).put ["out", "changed.rs"] (.file "old".toUTF8)).put
    ["out", "notes.txt"] (.file "mine".toUTF8)).put ["out", manifestFile]
    (.file usedManifest.render.toUTF8)

theorem get?_usedDisk (name : String) :
    usedDisk.get? (["out"] ++ [name]) =
      if name = manifestFile then some (.file usedManifest.render.toUTF8)
      else if name = "notes.txt" then some (.file "mine".toUTF8)
      else if name = "changed.rs" then some (.file "old".toUTF8)
      else if name = "kept.rs" then some (.file "same".toUTF8)
      else if name = "gone.rs" then some (.file "old".toUTF8) else none := by
  simp [usedDisk]

theorem free_usedDisk (name : String) : usedDisk.get? (["out"] ++ [name]) ≠ some .directory := by
  rw [get?_usedDisk]
  repeat' split
  all_goals nofun

/-- What a run stores there. -/
def usedArtifacts : List Artifact :=
  [⟨"kept.rs", .extension, "", "Kept", "same"⟩, ⟨"changed.rs", .extension, "", "Changed", "new"⟩,
    ⟨"added.rs", .extension, "", "Added", "new"⟩]

/-- The run keeps, changes and adds a file each, removes one and leaves one alone. -/
theorem directory_after_store_usedDisk :
    ∃ sink after, DirectorySink.new "out" usedDisk = (.ok sink, usedDisk) ∧
      Sink.store usedArtifacts (⟨sink.withManifest true, usedDisk⟩ : DirectoryState) =
        (.ok [.unchanged, .written, .written], after) ∧
      after.disk.get? ["out", "kept.rs"] = some (.file "same".toUTF8) ∧
      after.disk.get? ["out", "changed.rs"] = some (.file "new".toUTF8) ∧
      after.disk.get? ["out", "added.rs"] = some (.file "new".toUTF8) ∧
      after.disk.get? ["out", "gone.rs"] = none ∧
      after.disk.get? ["out", "notes.txt"] = some (.file "mine".toUTF8) := by
  have hopen : usedDisk.OpensAt "out" ["out"] := rfl
  have hlisted : usedDisk.manifestAt ["out"] = usedManifest := by
    refine Disk.manifestAt_of_file ?_
    rw [get?_usedDisk, if_pos rfl]
  have hnew := DirectorySink.new_of_opensAt hopen
  rw [hlisted] at hnew
  have hstore : ∃ outcomes after, Sink.store usedArtifacts
      (⟨DirectorySink.withManifest ⟨"out", true, usedManifest, {}⟩ true, usedDisk⟩ :
        DirectoryState) = (.ok outcomes, after) :=
    DirectorySink.exists_store hopen (by decide) fun name _ => free_usedDisk name
  obtain ⟨outcomes, after, hstore⟩ := hstore
  have hnames : ∀ a ∈ usedArtifacts, isBareName a.id = true ∧ a.id ≠ manifestFile := by decide
  have hchanged : Artifact.fingerprint ⟨"changed.rs", .extension, "", "Changed", "old"⟩ ≠
      Artifact.fingerprint ⟨"changed.rs", .extension, "", "Changed", "new"⟩ := by decide +kernel
  have hdigest : ∀ a ∈ usedArtifacts, ∀ text, usedDisk.readText (join "out" a.id) = .ok text →
      { a with text := text }.fingerprint = a.fingerprint → text = a.text := by
    intro a ha text hread hprint
    rw [Disk.readText_inside_eq_ok_iff hopen (hnames a ha).1, get?_usedDisk] at hread
    rcases List.mem_cons.mp ha with rfl | ha
    · exact (toUTF8_inj (DiskEntry.file.inj (Option.some.inj hread))).symm
    · rcases List.mem_cons.mp ha with rfl | ha
      · rw [← toUTF8_inj (DiskEntry.file.inj (Option.some.inj hread))] at hprint
        exact absurd hprint hchanged
      · rw [List.mem_singleton.mp ha] at hread
        cases hread
  obtain ⟨place, hopen', -, htexts, hremoved, -, hothers, houtcomes⟩ :=
    directory_after_store hnew (by decide) hnames hdigest hstore
  obtain rfl := hopen'.unique hopen
  rw [hlisted] at hremoved hothers
  simp only [get?_usedDisk] at houtcomes
  refine ⟨_, after, hnew, ?_, htexts _ (.head _), htexts _ (.tail _ (.head _)),
    htexts _ (.tail _ (.tail _ (.head _))), hremoved "gone.rs" (by decide) (by decide) (by decide)
    (by decide), (hothers ["out", "notes.txt"] _ ?_).mpr ?_⟩
  · rw [hstore, houtcomes]
    rfl
  · intro name hname
    obtain rfl : name = "notes.txt" := by simpa using hname.symm
    decide
  · exact get?_usedDisk "notes.txt"

end LogMarkers
