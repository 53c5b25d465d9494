import LogMarkers.Proofs.Sink.DirectoryRun

/-!
# A manifest survives the disk

A run that is finished leaves its manifest in the directory, and the next sink that is opened there
starts with it. This holds for every manifest, whatever characters its names and fingerprints have:
were one of them not read back, the manifest would count as empty, and the files of the run would
stay for ever.

* `Manifest.load_of_writeText`: it is loaded from a file its document was written to;
* `DirectorySink.manifest_of_finish`: what stands in the directory once a run is finished;
* `manifest_survives_disk`: the manifest is what the next sink starts with.
-/

namespace LogMarkers

open DiskPath

/-! ## 1. Loading -/

namespace Manifest

theorem ofText_render (m : Manifest) : ofText m.render = .ok m := by
  rw [ofText, ofText?_render]

theorem load_of_writeText {d d' : Disk} {path : String} {m : Manifest}
    (h : d.writeText path m.render = .ok d') : load d' path = .ok m := by
  rw [load, Disk.readText_of_writeText h]
  exact ofText_render m

end Manifest

/-! ## 2. A finished run -/

namespace DirectorySink

variable {st st' : DirectoryState}

/-- **A finished run has written its manifest**, in a directory that is there. -/
theorem manifest_of_finish (hwrite : st.sink.writeManifest = true)
    (h : finish st = (.ok (), st')) :
    ∃ (disk : Disk) (place : DiskPlace),
      disk.writeText (st.sink.pathOf manifestFile) st.sink.pending.render = .ok st'.disk ∧
      st'.disk.OpensAt st.sink.dir place ∧ st'.disk.manifestAt place = st.sink.pending := by
  obtain ⟨disk, -, hstored, -⟩ := exists_of_finish h
  have hwritten : disk.writeText (st.sink.pathOf manifestFile) st.sink.pending.render =
      .ok st'.disk := writeText_of_storeManifest (s := st.sink.advance) hwrite hstored
  obtain ⟨place, hopen, -⟩ := Disk.exists_opensAt_of_writeText isBareName_manifestFile hwritten
  obtain ⟨hedited, hentry⟩ := storeManifest_edited (s := st.sink.advance) hopen hstored
  refine ⟨disk, place, hwritten, hedited.opensAt hopen, Disk.manifestAt_of_file ?_⟩
  rw [hentry, manifestEntry?]
  exact if_pos hwrite

end DirectorySink

/-- **A manifest survives the disk**, whatever its names and fingerprints are:

    * its document is read as the manifest, in the order of the entries;
    * from a file that its document was written to, wherever this is, it is loaded;
    * a run that stored what it lists, and writes manifests, leaves it in the directory once it is
      finished, and a sink that is opened over this directory, whatever path leads there, starts
      with it. -/
theorem manifest_survives_disk (m : Manifest) :
    Manifest.ofText m.render = .ok m ∧
      (∀ (d d' : Disk) (path : String), d.writeText path m.render = .ok d' →
        Manifest.load d' path = .ok m) ∧
      ∀ st st' : DirectoryState, st.sink.pending = m → st.sink.writeManifest = true →
        DirectorySink.finish st = (.ok (), st') →
        Manifest.load st'.disk (st.sink.pathOf manifestFile) = .ok m ∧
          ∃ place, st'.disk.OpensAt st.sink.dir place ∧
            ∀ dir, st'.disk.OpensAt dir place →
              DirectorySink.new dir st'.disk = (.ok { dir := dir, manifest := m }, st'.disk) := by
  refine ⟨m.ofText_render, fun d d' path => Manifest.load_of_writeText, ?_⟩
  rintro st st' rfl hwrite hfinish
  obtain ⟨disk, place, hwritten, hopen, hmanifest⟩ :=
    DirectorySink.manifest_of_finish hwrite hfinish
  refine ⟨Manifest.load_of_writeText hwritten, place, hopen, fun dir hdir => ?_⟩
  rw [DirectorySink.new_of_opensAt hdir, hmanifest]

/-- A manifest whose texts need escapes or are longer in bytes than in characters. -/
def oddManifest : Manifest :=
  ⟨[⟨"a\"b\\c\n\x01.rs", .extension, "é\t\u2028"⟩, ⟨"😀/..", .markerDeclarations, ""⟩,
    ⟨"a\"b\\c\n\x01.rs", .extension, "\x00\x7f"⟩]⟩

/-- In a directory with the files of an earlier run, as a manifest and as a copy of it. -/
theorem manifest_survives_disk_oddManifest :
    (∃ after, DirectorySink.finish ⟨⟨"out", true, usedManifest, oddManifest⟩, usedDisk⟩ =
        (.ok (), after) ∧
      Manifest.load after.disk "out/autolog-manifest.json" = .ok oddManifest ∧
      DirectorySink.new "out" after.disk =
        (.ok { dir := "out", manifest := oddManifest }, after.disk)) ∧
      ∃ copied, usedDisk.writeText "out/copy.json" oddManifest.render = .ok copied ∧
        Manifest.load copied "out/copy.json" = .ok oddManifest := by
  have hopen : usedDisk.OpensAt "out" ["out"] := rfl
  obtain ⟨-, hcopy, hrun⟩ := manifest_survives_disk oddManifest
  constructor
  · have hdone : ∃ after,
        DirectorySink.finish ⟨⟨"out", true, usedManifest, oddManifest⟩, usedDisk⟩ =
          (.ok (), after) := DirectorySink.exists_finish hopen fun name _ => free_usedDisk name
    obtain ⟨after, hfinish⟩ := hdone
    obtain ⟨hload, place, hopen', hnew⟩ := hrun _ after rfl rfl hfinish
    exact ⟨after, hfinish, hload, hnew "out" hopen'⟩
  · have hwritten : usedDisk.writeText (join "out" "copy.json") oddManifest.render = _ :=
      Disk.writeText_inside hopen (by decide) _
    rw [if_neg (free_usedDisk _)] at hwritten
    exact ⟨_, hwritten, hcopy _ _ _ hwritten⟩

end LogMarkers
