import LogMarkers.Crate.Lowering
import LogMarkers.Proofs.Crate.Loading

/-!
# What is loaded

When loading ends with sources, these are the file that the crate starts with and everything that
declarations lead to from there, and nothing else; all of it can be lowered.

* `Loading.Records`: the visits that were made account for the sources, for what they lead to and for
  what is still to be visited;
* `Loading.Records.moves`, `Loading.exists_records`: every visit keeps that;
* `LoadedFrom`: how the modules of a source set are declared in each other;
* `exists_loadedFrom`: the sources that are loaded are loaded in this way.
-/

namespace LogMarkers

open DiskPath PathText

namespace Loading

/-! ## 1. The visits that were made -/

/-- These visits were made, the last one first, since loading started with `first`. -/
structure Records (disk : Disk) (first : Visit) (made : List Visit) (l : Loading) : Prop where
  /-- The sources are those of the visits. -/
  loaded : ∀ module f,
    l.sources.get? module = some f ↔ ∃ v ∈ made, v.module = module ∧ v.source disk = .ok f
  read : ∀ v ∈ made, ∃ f items, v.Reads disk f items
  distinct : (made.map (·.module)).Nodup
  started : made = [] ∧ l.pending = [first] ∨ first ∈ made
  /-- Every visit but the first is one that an earlier one leads to. -/
  declared : ∀ v ∈ made ++ l.pending, v = first ∨ ∃ u ∈ made, u.Leads disk v
  /-- What a visit leads to is loaded or is still to be visited. -/
  followed : ∀ u ∈ made, ∀ v, u.Leads disk v → v ∈ l.pending ∨ ∃ w ∈ made, w.module = v.module

namespace Records

variable {disk : Disk} {first : Visit} {made : List Visit} {l l' : Loading}

theorem contains_iff (h : Records disk first made l) {module : String} :
    l.sources.contains module = true ↔ ∃ v ∈ made, v.module = module := by
  rw [Table.contains, Option.isSome_iff_exists]
  constructor
  · rintro ⟨f, hf⟩
    obtain ⟨v, hv, hmodule, -⟩ := (h.loaded module f).mp hf
    exact ⟨v, hv, hmodule⟩
  · rintro ⟨v, hv, hmodule⟩
    obtain ⟨f, items, hreads⟩ := h.read v hv
    exact ⟨f, (h.loaded module f).mpr ⟨v, hv, hmodule, hreads.source⟩⟩

theorem start (disk : Disk) (first : Visit) : Records disk first [] { pending := [first] } where
  loaded module f := by simp
  read := nofun
  distinct := List.nodup_nil
  started := .inl ⟨rfl, rfl⟩
  declared v hv := .inl (List.mem_singleton.mp hv)
  followed := nofun

theorem first_mem {s : SourceSet} (h : Records disk first made ⟨s, []⟩) : first ∈ made := by
  rcases h.started with ⟨-, hpending⟩ | hmem
  · cases hpending
  · exact hmem

/-- A visit that is passed over is accounted for by the one that loaded its module. -/
theorem passed {s : SourceSet} {v : Visit} {rest : List Visit}
    (h : Records disk first made ⟨s, v :: rest⟩) (hloaded : s.contains v.module = true) :
    Records disk first made ⟨s, rest⟩ where
  loaded := h.loaded
  read := h.read
  distinct := h.distinct
  started := by
    obtain ⟨u, hu, -⟩ := h.contains_iff.mp hloaded
    rcases h.started with ⟨hnone, -⟩ | hfirst
    · rw [hnone] at hu
      cases hu
    · exact .inr hfirst
  declared u hu := by
    refine h.declared u ?_
    rcases List.mem_append.mp hu with hu | hu
    · exact List.mem_append_left _ hu
    · exact List.mem_append_right _ (List.mem_cons_of_mem _ hu)
  followed u hu w hleads := by
    rcases h.followed u hu w hleads with hw | hw
    · rcases List.mem_cons.mp hw with rfl | hw
      · exact .inr (h.contains_iff.mp hloaded)
      · exact .inl hw
    · exact .inr hw

theorem module_ne (h : Records disk first made l) {module : String}
    (hnew : l.sources.contains module = false) : ∀ u ∈ made, u.module ≠ module := by
  intro u hu hsame
  have hloaded := h.contains_iff.mpr ⟨u, hu, hsame⟩
  rw [hnew] at hloaded
  cases hloaded

/-- A visit that is made is accounted for by its file, and what it leads to is to be visited. -/
theorem made_cons {s : SourceSet} {v : Visit} {rest : List Visit} {f : SourceFile}
    {items : List Item} (h : Records disk first made ⟨s, v :: rest⟩)
    (hnew : s.contains v.module = false) (hreads : v.Reads disk f items) :
    Records disk first (v :: made)
      ⟨s.insert v.module f, (v.next disk items).reverse ++ rest⟩ where
  loaded module f' := by
    show (s.insert v.module f).get? module = some f' ↔ _
    rw [Table.get?_insert]
    by_cases hmodule : module = v.module
    · subst hmodule
      rw [if_pos rfl]
      constructor
      · rintro ⟨⟩
        exact ⟨v, List.mem_cons_self, rfl, hreads.source⟩
      · rintro ⟨u, hu, hsame, hsource⟩
        rcases List.mem_cons.mp hu with rfl | hu
        · rw [hreads.source] at hsource
          cases hsource
          rfl
        · exact absurd hsame (h.module_ne hnew u hu)
    · rw [if_neg hmodule]
      refine (h.loaded module f').trans ⟨?_, ?_⟩
      · rintro ⟨u, hu, hu'⟩
        exact ⟨u, List.mem_cons_of_mem _ hu, hu'⟩
      · rintro ⟨u, hu, hsame, hsource⟩
        rcases List.mem_cons.mp hu with rfl | hu
        · exact absurd hsame.symm hmodule
        · exact ⟨u, hu, hsame, hsource⟩
  read u hu := by
    rcases List.mem_cons.mp hu with rfl | hu
    · exact ⟨f, items, hreads⟩
    · exact h.read u hu
  distinct := by
    rw [List.map_cons, List.nodup_cons]
    refine ⟨fun hmem => ?_, h.distinct⟩
    obtain ⟨u, hu, hsame⟩ := List.mem_map.mp hmem
    exact h.module_ne hnew u hu hsame
  started := by
    rcases h.started with ⟨-, hfirst⟩ | hfirst
    · cases hfirst
      exact .inr List.mem_cons_self
    · exact .inr (List.mem_cons_of_mem _ hfirst)
  declared u hu := by
    -- either the visit leads there, or it was accounted for before
    have hcases : u ∈ v.next disk items ∨ u ∈ made ++ v :: rest := by
      simp only [List.cons_append, List.mem_cons, List.mem_append, List.mem_reverse] at hu ⊢
      rcases hu with hu | hu | hu | hu
      · exact .inr (.inr (.inl hu))
      · exact .inr (.inl hu)
      · exact .inl hu
      · exact .inr (.inr (.inr hu))
    rcases hcases with hu | hu
    · exact .inr ⟨v, List.mem_cons_self, f, items, hreads, hu⟩
    · rcases h.declared u hu with hfirst | ⟨w, hw, hleads⟩
      · exact .inl hfirst
      · exact .inr ⟨w, List.mem_cons_of_mem _ hw, hleads⟩
  followed u hu w hleads := by
    rcases List.mem_cons.mp hu with rfl | hu
    · obtain ⟨f', items', hreads', hw⟩ := hleads
      rw [(hreads.unique hreads').2] at hw
      exact .inl (List.mem_append_left _ (List.mem_reverse.mpr hw))
    · rcases h.followed u hu w hleads with hw | ⟨w', hw', hsame⟩
      · rcases List.mem_cons.mp hw with rfl | hw
        · exact .inr ⟨_, List.mem_cons_self, rfl⟩
        · exact .inl (List.mem_append_right _ hw)
      · exact .inr ⟨w', List.mem_cons_of_mem _ hw', hsame⟩

/-- **One visit** keeps the account. -/
theorem moves (h : Records disk first made l) (hmoves : Moves disk l l') :
    ∃ made', Records disk first made' l' := by
  cases hmoves with
  | passed hloaded => exact ⟨made, h.passed hloaded⟩
  | made hnew hreads => exact ⟨_, h.made_cons hnew hreads⟩

end Records

/-- **Every state of loading** has an account of the visits that were made. -/
theorem exists_records {disk : Disk} {first : Visit} {l : Loading}
    (h : Reaches disk { pending := [first] } l) : ∃ made, Records disk first made l := by
  induction h with
  | refl => exact ⟨[], .start disk first⟩
  | tail _ hmoves ih =>
    obtain ⟨made, hrecords⟩ := ih
    exact hrecords.moves hmoves

end Loading

/-! ## 2. Sources that can be lowered -/

theorem exists_mapM_ok {ε α β : Type} {f : α → Except ε β} {l : List α}
    (h : ∀ x ∈ l, ∃ y, f x = .ok y) : ∃ ys, l.mapM f = .ok ys := by
  induction l with
  | nil => exact ⟨[], rfl⟩
  | cons x rest ih =>
    obtain ⟨y, hy⟩ := h x List.mem_cons_self
    obtain ⟨ys, hys⟩ := ih fun z hz => h z (List.mem_cons_of_mem _ hz)
    exact ⟨y :: ys, by rw [List.mapM_cons, hy, hys]; rfl⟩

/-- A source set can be lowered if each of its files can be read. -/
theorem SourceSet.exists_lower {set : SourceSet}
    (h : ∀ module f, set.get? module = some f → ∃ items, Source.itemsOf f.text = .ok items) :
    ∃ c, set.lower = .ok c := by
  have hparse : ∀ e ∈ set.entries, ∃ parsed, e.2.parse e.1 = .ok parsed := by
    intro e he
    obtain ⟨items, hitems⟩ := h e.1 e.2 (Table.lookup_of_mem set.sorted he)
    exact ⟨⟨e.1, e.2.fileName, items⟩, by rw [SourceFile.parse, hitems]⟩
  obtain ⟨files, hfiles⟩ := exists_mapM_ok hparse
  refine ⟨lowerFiles files, ?_⟩
  rw [SourceSet.lower, SourceSet.parse, hfiles]
  rfl

/-! ## 3. How modules are declared in each other -/

/-- **The sources of a crate on a disk.** `dirOf` gives the directory of the submodules of each
    module. -/
structure LoadedFrom (disk : Disk) (root : String) (set : SourceSet) (dirOf : String → String) :
    Prop where
  /-- The submodules of the root of the crate are in the source root. -/
  rootDir : dirOf "" = root
  /-- The crate starts with `lib.rs` if that is there, else with `main.rs`. -/
  rootFile : ∃ f, set.get? "" = some f ∧ f.fileName =
    if disk.isFile (join root "lib.rs") then join root "lib.rs" else join root "main.rs"
  /-- Every module has the text of its file. -/
  text : ∀ module f, set.get? module = some f →
    disk.isFile f.fileName = true ∧ disk.readText f.fileName = .ok f.text
  /-- Every module is there that a file of the set declares, if one of the files is there that can
      hold it. -/
  complete : ∀ module f items names name attributes, set.get? module = some f →
    Source.itemsOf f.text = .ok items → DeclaredIn items names name attributes →
    (∃ file ∈ candidateFiles f.fileName (dirOf module) names name attributes,
      disk.isFile file = true) →
    set.contains ((names ++ [name]).foldl within module) = true
  /-- Every module but the root is declared by another one of the set, and its file is the first
      that is there of those that can hold it. -/
  sound : ∀ module f, set.get? module = some f → module ≠ "" →
    ∃ parent f' items names name attributes, parent ≠ module ∧ set.get? parent = some f' ∧
      Source.itemsOf f'.text = .ok items ∧ DeclaredIn items names name attributes ∧
      module = (names ++ [name]).foldl within parent ∧
      (candidateFiles f'.fileName (dirOf parent) names name attributes).find? disk.isFile =
        some f.fileName ∧
      dirOf module = submoduleDir f.fileName (isNamedFile names attributes)
  /-- Every file of the set can be read. -/
  lowers : ∃ c, set.lower = .ok c

namespace Loading.Records

variable {disk : Disk} {root : String} {first : Visit} {made : List Visit} {set : SourceSet}

/-- The directory of the submodules of a module that was visited. -/
def dirOf (made : List Visit) (root module : String) : String :=
  ((made.find? (·.module = module)).map (·.dir)).getD root

theorem find?_module {v : Visit} (hdistinct : (made.map (·.module)).Nodup) (hv : v ∈ made) :
    made.find? (·.module = v.module) = some v := by
  induction made with
  | nil => cases hv
  | cons u rest ih =>
    rw [List.map_cons, List.nodup_cons] at hdistinct
    rcases List.mem_cons.mp hv with rfl | hv
    · exact List.find?_cons_of_pos (by simp)
    · have hne : u.module ≠ v.module := by
        intro hsame
        rw [hsame] at hdistinct
        exact hdistinct.1 (List.mem_map_of_mem hv)
      rw [List.find?_cons_of_neg (by simpa using hne)]
      exact ih hdistinct.2 hv

theorem dirOf_of_mem {l : Loading} (h : Records disk first made l) {v : Visit} (hv : v ∈ made) :
    dirOf made root v.module = v.dir := by
  rw [dirOf, find?_module h.distinct hv]
  rfl

/-- The source of a visit names its file and has its text. -/
theorem fileName_of_source {v : Visit} {f : SourceFile} (h : v.source disk = .ok f) :
    f.fileName = v.file ∧ disk.readText v.file = .ok f.text := by
  unfold Visit.source at h
  split at h
  · rename_i text hread
    cases h
    exact ⟨rfl, hread⟩
  · cases h

/-- The first visit of a crate. -/
theorem firstVisit?_eq {v : Visit} (h : firstVisit? disk root = some v) :
    v = ⟨"", if disk.isFile (join root "lib.rs") then join root "lib.rs" else join root "main.rs",
      root⟩ := by
  obtain ⟨file, hfile, rfl⟩ := Option.map_eq_some_iff.mp h
  unfold entryFiles at hfile
  by_cases hlib : disk.isFile (join root "lib.rs") = true
  · rw [List.find?_cons_of_pos hlib] at hfile
    cases hfile
    rw [if_pos hlib]
  · rw [List.find?_cons_of_neg hlib, List.find?_singleton] at hfile
    split at hfile
    · cases hfile
      rw [if_neg hlib]
    · cases hfile

/-- A module that is loaded was visited. -/
theorem exists_visit {l : Loading} (h : Records disk first made l) (root : String)
    {module : String} {f : SourceFile} (hget : l.sources.get? module = some f) :
    ∃ v ∈ made, v.module = module ∧ v.source disk = .ok f ∧ v.file = f.fileName ∧
      dirOf made root module = v.dir := by
  obtain ⟨v, hv, rfl, hsource⟩ := (h.loaded module f).mp hget
  exact ⟨v, hv, rfl, hsource, (fileName_of_source hsource).1.symm, h.dirOf_of_mem hv⟩

/-- What a visited file declares is loaded, if a file for it is there. -/
theorem contains_of_declaredIn (h : Records disk first made ⟨set, []⟩) {v : Visit} (hv : v ∈ made)
    {f : SourceFile} {items : List Item} (hreads : v.Reads disk f items) {names : List String}
    {name : String} {attributes : List Attribute} (hin : DeclaredIn items names name attributes)
    (hfile : ∃ file ∈ candidateFiles v.file v.dir names name attributes, disk.isFile file = true) :
    set.contains ((names ++ [name]).foldl within v.module) = true := by
  obtain ⟨file, hfound⟩ := Option.isSome_iff_exists.mp (List.find?_isSome.mpr hfile)
  have hnext := Visit.mem_next_iff.mpr ⟨names, name, attributes, hin, file, hfound, rfl⟩
  rcases h.followed v hv _ ⟨f, items, hreads, hnext⟩ with hpending | hloaded
  · cases hpending
  · exact h.contains_iff.mpr hloaded

/-- **When nothing is left to visit**, the sources are those of the crate. -/
theorem loadedFrom (h : Records disk first made ⟨set, []⟩)
    (hfirst : firstVisit? disk root = some first) :
    LoadedFrom disk root set (dirOf made root) where
  rootDir := by
    have hstart := h.first_mem
    rw [firstVisit?_eq hfirst] at hstart
    exact h.dirOf_of_mem hstart
  rootFile := by
    obtain ⟨f, items, hreads⟩ := h.read first h.first_mem
    have hmodule : first.module = "" := by rw [firstVisit?_eq hfirst]
    refine ⟨f, (h.loaded "" f).mpr ⟨first, h.first_mem, hmodule, hreads.source⟩, ?_⟩
    rw [(fileName_of_source hreads.source).1, firstVisit?_eq hfirst]
  text module f hget := by
    obtain ⟨v, hv, -, hsource, hfile, -⟩ := h.exists_visit root hget
    refine ⟨?_, hfile ▸ (fileName_of_source hsource).2⟩
    rw [← hfile]
    rcases h.declared v (List.mem_append_left _ hv) with rfl | ⟨u, -, hleads⟩
    · exact Visit.isFile_of_firstVisit? hfirst
    · exact hleads.isFile
  complete module f items names name attributes hget hitems hin hcandidate := by
    obtain ⟨v, hv, rfl, hsource, hfile, hdir⟩ := h.exists_visit root hget
    rw [hdir, ← hfile] at hcandidate
    exact h.contains_of_declaredIn hv ⟨hsource, hitems⟩ hin hcandidate
  sound module f hget hne := by
    obtain ⟨v, hv, rfl, hsource, hfile, hdir⟩ := h.exists_visit root hget
    rcases h.declared v (List.mem_append_left _ hv) with rfl | ⟨u, hu, hleads⟩
    · rw [firstVisit?_eq hfirst] at hne
      exact absurd rfl hne
    · have hlonger := hleads.length_lt
      obtain ⟨f', items, hreads, hnext⟩ := hleads
      obtain ⟨names, name, attributes, hin, file, hfound, rfl⟩ := Visit.mem_next_iff.mp hnext
      refine ⟨u.module, f', items, names, name, attributes, ?_, ?_, hreads.items, hin, rfl, ?_, ?_⟩
      · intro hsame
        rw [← hsame] at hlonger
        exact Nat.lt_irrefl _ hlonger
      · exact (h.loaded u.module f').mpr ⟨u, hu, rfl, hreads.source⟩
      · rw [h.dirOf_of_mem hu, (fileName_of_source hreads.source).1, hfound, ← hfile]
      · rw [hdir, ← hfile]
  lowers := by
    refine SourceSet.exists_lower fun module f hget => ?_
    obtain ⟨v, hv, -, hsource, -⟩ := h.exists_visit root hget
    obtain ⟨f', items, hreads⟩ := h.read v hv
    have hsame := hreads.source
    rw [hsource] at hsame
    cases hsame
    exact ⟨items, hreads.items⟩

end Loading.Records

/-- **What is loaded** is the file that the crate starts with and what declarations lead to from
    there, and all of it can be lowered. -/
theorem exists_loadedFrom {disk : Disk} {root : String} {steps : Nat} {set : SourceSet}
    (h : SourceSet.load? disk root steps = some (.ok set)) :
    ∃ dirOf, LoadedFrom disk root set dirOf := by
  unfold SourceSet.load? at h
  split at h
  · rename_i first hfirst
    rcases Loading.reaches_of_run? h with ⟨s, hs, hreaches⟩ | ⟨⟨e, he⟩, -⟩
    · cases hs
      obtain ⟨made, hrecords⟩ := Loading.exists_records hreaches
      exact ⟨_, hrecords.loadedFrom hfirst⟩
    · cases he
  · cases h

/-- A crate with modules beside the declaring one, in a directory, in an inline module, and in a file
    that is named. -/
def layeredDisk : Disk :=
  [ (["src", "lib.rs"], "mod ui;\n#[path = \"other/net.rs\"]\nmod net;\nmod tools { mod cli; }\n"),
    (["src", "main.rs"], "mod unused;\n"),
    (["src", "ui", "mod.rs"], "mod view;\n"),
    (["src", "ui", "view.rs"], "struct View;\n"),
    (["src", "other", "net.rs"], "mod proto;\n"),
    (["src", "other", "proto.rs"], ""),
    (["src", "tools", "cli.rs"], "mod missing;\n") ].foldl
    (fun d (place, text) => d.put place (.file text.toUTF8))
    ([["src"], ["src", "ui"], ["src", "other"], ["src", "tools"]].foldl (·.put · .directory) {})

/-- Its modules are found in all these places. -/
theorem exists_loadedFrom_layeredDisk :
    ∃ set dirOf, SourceSet.load? layeredDisk "src" 6 = some (.ok set) ∧
      set.entries.map (fun e => (e.1, e.2.fileName)) =
        [("", "src/lib.rs"), ("net", "src/other/net.rs"), ("net::proto", "src/other/proto.rs"),
          ("tools::cli", "src/tools/cli.rs"), ("ui", "src/ui/mod.rs"),
          ("ui::view", "src/ui/view.rs")] ∧
      LoadedFrom layeredDisk "src" set dirOf := by
  have hload : ((SourceSet.load? layeredDisk "src" 6).bind (·.toOption)).map
      (fun set => set.entries.map fun e => (e.1, e.2.fileName)) =
        some [("", "src/lib.rs"), ("net", "src/other/net.rs"), ("net::proto", "src/other/proto.rs"),
          ("tools::cli", "src/tools/cli.rs"), ("ui", "src/ui/mod.rs"),
          ("ui::view", "src/ui/view.rs")] := by decide +kernel
  obtain ⟨set, hset, hfiles⟩ := Option.map_eq_some_iff.mp hload
  obtain ⟨result, hresult, hok⟩ := Option.bind_eq_some_iff.mp hset
  rw [eq_ok_of_toOption hok] at hresult
  obtain ⟨dirOf, hloaded⟩ := exists_loadedFrom hresult
  exact ⟨set, dirOf, hresult, hfiles, hloaded⟩

end LogMarkers
