import LogMarkers.Proofs.Crate.LoadedModules
import LogMarkers.Proofs.Crate.Placement

/-!
# The modules of a loaded crate hang together

Two traversals name the modules of a crate. Loading goes from file to file and names a module by the
inline modules its declaration stands in; lowering goes through each file and names a module when it
is entered. On what is loaded they agree: the root is a module, and every other module stands in one
that declares its name.

* `ScopeIndex.DeclaresModule`: some module declares the last name of a module's path;
* `Step.known_or_declared`: a module that lowering knows is that of a file or declared;
* `SourceSet.isSome_item?_lower`: what a file declares, at any depth, is declared in the scopes;
* `modules_hang_together`: both together, for everything that is loaded.
-/

namespace LogMarkers

open PathText

/-! ## 1. Modules that lowering comes to -/

namespace ScopeIndex

/-- Some module declares the last name of this path. -/
def DeclaresModule (x : ScopeIndex) (module : String) : Prop :=
  ∃ parent name, IsName name ∧ module = within parent name ∧
    parent ∈ x.modules.keys ∧ (x.item? parent name).isSome = true

theorem declaresModule_of_isSome {x : ScopeIndex} {parent name : String} (hname : IsName name)
    (h : (x.item? parent name).isSome = true) : x.DeclaresModule (within parent name) := by
  obtain ⟨kind, hkind⟩ := Option.isSome_iff_exists.mp h
  exact ⟨parent, name, hname, rfl, mem_keys_of_item? hkind, h⟩

end ScopeIndex

namespace Lowering

variable {G : Given} {l l' : Lowering}

theorem Step.declaresModule (h : Step G l l') {module : String}
    (hd : l.scopes.DeclaresModule module) : l'.scopes.DeclaresModule module := by
  obtain ⟨parent, name, hname, rfl, -, hitem⟩ := hd
  exact ScopeIndex.declaresModule_of_isSome hname (h.isSome_item? hitem)

/-- **A step comes to modules of files and to declared ones only.** -/
theorem Step.known_or_declared (h : Step G l l')
    (hl : ∀ module ∈ l.known, G.file module ∨ l.scopes.DeclaresModule module) :
    ∀ module ∈ l'.known, G.file module ∨ l'.scopes.DeclaresModule module := by
  have hold : ∀ module ∈ l.known, G.file module ∨ l'.scopes.DeclaresModule module :=
    fun module hm => (hl module hm).imp_right h.declaresModule
  -- a scope that is changed was there before, or is that of a file or of an inline module
  have halter : ∀ {changed : String} {f : ModuleScope → ModuleScope},
      G.file changed ∨ l'.scopes.DeclaresModule changed →
      ∀ module ∈ (l.scopes.alterScope changed f).modules.keys,
        G.file module ∨ l'.scopes.DeclaresModule module := by
    intro changed f hchanged module hm
    rcases (ScopeIndex.mem_keys_alterScope _ _ _).mp hm with rfl | hm
    · exact hchanged
    · exact hold module hm
  cases h with
  | file hm => exact halter (.inl hm)
  | leaf | openNode | close | generic | selfType => exact hold
  | declare hm | aliased hm | imports hm | renamed hm => exact halter (hold _ hm)
  | enter hm name hd =>
    have hentered := Step.enter (G := G) l hm name hd
    exact halter (.inr (hentered.declaresModule
      (ScopeIndex.declaresModule_of_isSome name.isName_text hd)))

theorem Steps.known_or_declared (h : Steps G {} l) :
    ∀ module ∈ l.known, G.file module ∨ l.scopes.DeclaresModule module := by
  induction h with
  | refl => exact fun _ hm => by cases hm
  | tail _ hs ih => exact hs.known_or_declared ih

/-! ## 2. Modules that files declare -/

theorem Steps.isSome_item? (h : Steps G l l') {module name : String}
    (hd : (l.scopes.item? module name).isSome = true) :
    (l'.scopes.item? module name).isSome = true := by
  induction h with
  | refl => exact hd
  | tail _ hs ih => exact hs.isSome_item? ih

/-- **Items declare the modules whose items are elsewhere**, in the inline module that the
    declaration stands in. -/
theorem isSome_item?_items {here : String} {is : List Item} {names : List String} {name : String}
    {attributes : List Attribute} (h : DeclaredIn is names name attributes) (fileName : String)
    (hm : here ∈ l.known) :
    ((items ⟨here, fileName⟩ is l).scopes.item? (names.foldl within here) name).isSome = true := by
  induction h generalizing l here with
  | here hi =>
    refine items_of_mem (fun hs hd => hs.isSome_item? hd) (fun l _ => ?_) hi hm
    exact isSome_item?_declare l _ _ .submodule
  | inside hi _ ih =>
    refine items_of_mem (fun hs hd => hs.isSome_item? hd) (fun l hm => ?_) hi hm
    unfold item
    exact ih (mem_known_addModule _ _)

theorem isSome_item?_file (l : Lowering) {f : ParsedFile} {names : List String} {name : String}
    {attributes : List Attribute} (h : DeclaredIn f.items names name attributes) :
    ((l.file f).scopes.item? (names.foldl within f.module) name).isSome = true :=
  isSome_item?_items (l := (l.addModule f.module).openNode f.module (fileContent f.module)) h
    f.fileName (mem_known_addModule l f.module)

end Lowering

/-- **What a file declares is declared in the scopes of the crate.** -/
theorem SourceSet.isSome_item?_lower {s : SourceSet} {c : LoweredCrate} (h : s.lower = .ok c)
    {module : String} {f : SourceFile} {is : List Item} (hget : s.get? module = some f)
    (hitems : Source.itemsOf f.text = .ok is) {names : List String} {name : String}
    {attributes : List Attribute} (hin : DeclaredIn is names name attributes) :
    (c.scopes.item? (names.foldl within module) name).isSome = true := by
  obtain ⟨files, hparse, rfl⟩ := Lowering.exists_parse_of_lower h
  have hf : ⟨module, f.fileName, is⟩ ∈ files :=
    (Lowering.mem_parse_iff hparse).mpr ⟨f, hget, rfl, hitems⟩
  exact Lowering.files_of_mem (fun hs hd => hs.isSome_item? hd)
    (fun l => Lowering.isSome_item?_file l hin) hf {}

/-! ## 3. What is loaded -/

/-- A module of a loaded crate that is that of a file is declared, unless it is the root. -/
theorem LoadedFrom.declaresModule {disk : Disk} {root : String} {set : SourceSet}
    {dirOf : String → String} (hset : LoadedFrom disk root set dirOf) {c : LoweredCrate}
    (hc : set.lower = .ok c) {module : String} (hm : module ∈ set.keys) (hne : module ≠ "") :
    c.scopes.DeclaresModule module := by
  obtain ⟨⟨_, f⟩, hentry, rfl⟩ := List.mem_map.mp hm
  have hget : set.get? _ = some f := Table.lookup_of_mem set.sorted hentry
  obtain ⟨parent, f', is, names, name, attributes, -, hparent, hitems, hin, hmodule, -, -⟩ :=
    hset.sound _ f hget hne
  have hdeclared := SourceSet.isSome_item?_lower hc hparent hitems hin
  rw [hmodule, List.foldl_append]
  exact ScopeIndex.declaresModule_of_isSome
    (hin.isName name (List.mem_append_right _ (List.mem_singleton_self _))) hdeclared

/-- The root of a crate is a file, and every module that lowering comes to is that of a file or
    declared; the files are declared by each other. -/
theorem LoadedFrom.hangs_together {disk : Disk} {root : String} {set : SourceSet}
    {dirOf : String → String} (hset : LoadedFrom disk root set dirOf) {c : LoweredCrate}
    (hc : set.lower = .ok c) :
    "" ∈ c.scopes.modules.keys ∧
      ∀ module ∈ c.scopes.modules.keys, module ≠ "" → c.scopes.DeclaresModule module := by
  refine ⟨?_, fun module hm hne => ?_⟩
  · obtain ⟨f, hroot, -⟩ := hset.rootFile
    exact SourceSet.keys_subset_lower hc (List.mem_map.mpr ⟨_, Table.mem_of_lookup hroot, rfl⟩)
  · obtain ⟨l, hsteps, rfl⟩ := Lowering.steps_lower hc
    rcases hsteps.known_or_declared module hm with hfile | hdeclared
    · exact hset.declaresModule hc hfile hne
    · exact hdeclared

/-- Sources that are loaded are those of a crate. -/
theorem exists_dirOf_of_load? {disk : Disk} {root : String} {steps : Nat} {set : SourceSet}
    (h : SourceSet.load? disk root steps = some (.ok set)) :
    ∃ dirOf, LoadedFrom disk root set dirOf := by
  unfold SourceSet.load? at h
  split at h
  · rename_i first hfirst
    rcases Loading.reaches_of_run? h with ⟨s, hs, hreaches⟩ | ⟨⟨e, he⟩, -⟩
    · cases hs
      obtain ⟨made, hrecords⟩ := Loading.exists_records hreaches
      exact ⟨_, hrecords.loadedFrom hfirst⟩
    · cases he
  · cases h

/-- **The modules of a loaded crate hang together.** Everything that is loaded can be lowered; then
    the root is a module, and every other module is that of a name in a module that has an item of
    this name. -/
theorem modules_hang_together {disk : Disk} {root : String} {steps : Nat} {set : SourceSet}
    (h : SourceSet.load? disk root steps = some (.ok set)) :
    ∃ c, set.lower = .ok c ∧ "" ∈ c.scopes.modules.keys ∧
      ∀ module ∈ c.scopes.modules.keys, module ≠ "" →
        ∃ parent name, IsName name ∧ module = within parent name ∧
          parent ∈ c.scopes.modules.keys ∧ (c.scopes.item? parent name).isSome = true := by
  obtain ⟨dirOf, hset⟩ := exists_dirOf_of_load? h
  obtain ⟨c, hc⟩ := hset.lowers
  exact ⟨c, hc, hset.hangs_together hc⟩

/-- A crate whose inline modules hold modules of files, one of them named by a raw identifier, and
    whose files hold inline modules again. -/
def foldedDisk : Disk :=
  [ (["src", "main.rs"], "mod app \x7b mod r#fn; mod view \x7b mod list; \x7d \x7d\n"),
    (["src", "app", "fn.rs"], "mod inner \x7b mod leaf; \x7d\n"),
    (["src", "app", "fn", "inner", "leaf", "mod.rs"], "struct Leaf;\n"),
    (["src", "app", "view", "list.rs"], "") ].foldl
    (fun d (place, text) => d.put place (.file text.toUTF8))
    ([["src"], ["src", "app"], ["src", "app", "fn"], ["src", "app", "fn", "inner"],
      ["src", "app", "fn", "inner", "leaf"], ["src", "app", "view"]].foldl
      (·.put · .directory) {})

/-- Its modules hang together, down to one that stands in an inline module of a file in an inline
    module. -/
theorem modules_hang_together_foldedDisk :
    ∃ set c, SourceSet.load? foldedDisk "src" 4 = some (.ok set) ∧
      set.keys = ["", "app::fn", "app::fn::inner::leaf", "app::view::list"] ∧
      set.lower = .ok c ∧
      ∃ parent name, IsName name ∧ "app::fn::inner::leaf" = within parent name ∧
        parent ∈ c.scopes.modules.keys ∧ (c.scopes.item? parent name).isSome = true := by
  have hload : ((SourceSet.load? foldedDisk "src" 4).bind (·.toOption)).map (·.keys) =
      some ["", "app::fn", "app::fn::inner::leaf", "app::view::list"] := by decide +kernel
  obtain ⟨set, hset, hkeys⟩ := Option.map_eq_some_iff.mp hload
  obtain ⟨result, hresult, hok⟩ := Option.bind_eq_some_iff.mp hset
  rw [eq_ok_of_toOption hok] at hresult
  obtain ⟨c, hc, -, hmodules⟩ := modules_hang_together hresult
  have hleaf : "app::fn::inner::leaf" ∈ c.scopes.modules.keys :=
    SourceSet.keys_subset_lower hc (by rw [hkeys]; decide)
  exact ⟨set, c, hresult, hkeys, hc, hmodules _ hleaf (by decide)⟩

end LogMarkers
