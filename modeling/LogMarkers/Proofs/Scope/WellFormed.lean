import LogMarkers.Proofs.Scope.Lookup
import LogMarkers.Proofs.Text.PathNames

/-!
# Well-formed indexes

An index is well formed when its modules hang together as those of a crate do: the root has a scope,
every other module is declared by the module around it, and every declared or imported name is a
plain one.

* `WellFormed.module_induction`: what holds of the root and passes from a module to the modules it
  declares holds of every module;
* `resolveInside_segments_of_links`, `resolveInside_segments`: the names of a module lead from the
  root to the module, as long as no declared name but aliases is being looked up already;
* `mem_keys_of_within_mem`: only a module has modules inside it;
* `isModule_cases`: a module has a scope or is declared without one.
-/

namespace LogMarkers

/-- A name that is written with no colon and is none of the three words with a meaning of their
    own. -/
structure IsPlain (name : String) : Prop where
  isName : PathText.IsName name
  ne_crate : name ≠ "crate"
  ne_self : name ≠ "self"
  ne_super : name ≠ "super"

instance (name : String) : Decidable (IsPlain name) :=
  decidable_of_iff (PathText.IsName name ∧ name ≠ "crate" ∧ name ≠ "self" ∧ name ≠ "super")
    ⟨fun ⟨hname, hcrate, hself, hsuper⟩ => ⟨hname, hcrate, hself, hsuper⟩,
      fun h => ⟨h.isName, h.ne_crate, h.ne_self, h.ne_super⟩⟩

namespace ScopeIndex

/-- The modules of an index hang together, and its names are plain. -/
structure WellFormed (x : ScopeIndex) : Prop where
  root : "" ∈ x.modules.keys
  /-- A module that is not the root is declared by the module around it, and not as an alias. -/
  declared : ∀ module ∈ x.modules.keys, module ≠ "" →
    ∃ parent ∈ x.modules.keys, ∃ name kind, module = PathText.within parent name ∧
      x.item? parent name = some kind ∧ ∀ target, kind ≠ .typeAlias target
  /-- Declared and imported names are plain. -/
  plain : ∀ key ∈ x.linkKeys, IsPlain key.2

theorem contains_of_mem_keys {x : ScopeIndex} {module : String} (h : module ∈ x.modules.keys) :
    x.modules.contains module = true := by
  obtain ⟨⟨k, s⟩, he, rfl⟩ := List.mem_map.mp h
  have hget : x.modules.get? k = some s := Table.lookup_of_mem x.modules.sorted he
  unfold Table.contains
  rw [hget]
  rfl

theorem isModule_of_mem {x : ScopeIndex} {module : String} (h : module ∈ x.modules.keys) :
    x.isModule module = true := by
  unfold isModule
  rw [contains_of_mem_keys h, Bool.true_or]

/-- What holds of the root and passes to declared modules holds of every module. -/
theorem WellFormed.module_induction {x : ScopeIndex} (hx : x.WellFormed) {motive : String → Prop}
    (root : motive "")
    (child : ∀ parent ∈ x.modules.keys, ∀ name kind,
      PathText.within parent name ∈ x.modules.keys → x.item? parent name = some kind →
      (∀ target, kind ≠ .typeAlias target) → motive parent →
      motive (PathText.within parent name)) :
    ∀ module ∈ x.modules.keys, motive module := by
  intro module
  induction hn : module.length using Nat.strongRecOn generalizing module with
  | ind n ih =>
    intro hm
    by_cases he : module = ""
    · rw [he]
      exact root
    · obtain ⟨parent, hp, name, kind, rfl, hi, hk⟩ := hx.declared module hm he
      have hname : IsPlain name := hx.plain _ (item_mem_linkKeys hi)
      have hlt := PathText.length_lt_length_within parent hname.isName.1
      exact child parent hp name kind hm hi hk (ih _ (hn ▸ hlt) parent rfl hp)

/-- A module of a well-formed index is a joined list of names. -/
theorem WellFormed.exists_names {x : ScopeIndex} (hx : x.WellFormed) :
    ∀ module ∈ x.modules.keys,
      ∃ names : List String, (∀ n ∈ names, PathText.IsName n) ∧ module = PathText.join names := by
  refine hx.module_induction ⟨[], by simp, rfl⟩ ?_
  rintro parent - name kind - hi - ⟨names, hnames, rfl⟩
  have hname : IsPlain name := hx.plain _ (item_mem_linkKeys hi)
  refine ⟨names ++ [name], fun n hn => ?_, PathText.within_join hnames name⟩
  rcases List.mem_append.mp hn with hn | hn
  · exact hnames n hn
  · exact List.mem_singleton.mp hn ▸ hname.isName

theorem WellFormed.join_segments {x : ScopeIndex} (hx : x.WellFormed) {module : String}
    (hm : module ∈ x.modules.keys) : PathText.join (PathText.segments module) = module := by
  obtain ⟨names, hnames, rfl⟩ := hx.exists_names module hm
  rw [PathText.segments_join hnames]

/-- The canonical path of a name in a module whose path is joined names. -/
theorem itemPath_join {names : List String} (h : ∀ n ∈ names, PathText.IsName n) (name : String) :
    itemPath (PathText.join names) name = crateWord :: (names ++ [name]) := by
  unfold itemPath modulePath
  rw [PathText.segments_join h, List.cons_append]

/-- The path of a declared module is that of the name that declares it. -/
theorem WellFormed.itemPath_eq {x : ScopeIndex} (hx : x.WellFormed) {parent name : String}
    (hp : parent ∈ x.modules.keys) (hname : IsPlain name) :
    itemPath parent name = modulePath (PathText.within parent name) := by
  obtain ⟨names, hnames, rfl⟩ := hx.exists_names parent hp
  unfold itemPath modulePath
  rw [PathText.segments_within hnames hname.isName, List.cons_append]

theorem WellFormed.localModule?_modulePath {x : ScopeIndex} (hx : x.WellFormed) {module : String}
    (hm : module ∈ x.modules.keys) : localModule? (modulePath module) = some module := by
  simp [modulePath, hx.join_segments hm]

/-- Names behind the path of a module are resolved inside it. -/
theorem WellFormed.descend_modulePath {x : ScopeIndex} (hx : x.WellFormed) {module : String}
    (hm : module ∈ x.modules.keys) (rest : List String) (guarded : Guard) :
    x.descend (modulePath module) rest guarded = x.resolveInside module rest guarded := by
  by_cases hrest : rest = []
  · simp [hrest]
  · exact x.descend_module hrest (hx.localModule?_modulePath hm) (isModule_of_mem hm)

/-- The lookups under way are those of aliases and imports; the other declared names need none. -/
def OnlyLinks (x : ScopeIndex) (guarded : Guard) : Prop :=
  ∀ key ∈ guarded, ∀ kind, x.item? key.1 key.2 = some kind → ∃ target, kind = .typeAlias target

theorem onlyLinks_nil (x : ScopeIndex) : x.OnlyLinks [] := by simp [OnlyLinks]

/-- **The names of a module lead from the root to the module**, as long as only aliases and imports
    are being looked up. -/
theorem WellFormed.resolveInside_segments_of_links {x : ScopeIndex} (hx : x.WellFormed)
    {guarded : Guard} (hg : x.OnlyLinks guarded) :
    ∀ module ∈ x.modules.keys, ∀ rest : List String,
      x.resolveInside "" (PathText.segments module ++ rest) guarded =
        x.resolveInside module rest guarded := by
  refine hx.module_induction (fun rest => rfl) ?_
  intro parent hp name kind hm hi hk ih rest
  have hname : IsPlain name := hx.plain _ (item_mem_linkKeys hi)
  have hsegments : PathText.segments (PathText.within parent name) =
      PathText.segments parent ++ [name] := by
    obtain ⟨names, hnames, rfl⟩ := hx.exists_names parent hp
    exact PathText.segments_within hnames hname.isName
  have hfree : (parent, name) ∉ guarded := fun hmem => by
    obtain ⟨target, e⟩ := hg _ hmem kind hi
    exact hk target e
  -- the declared name is found before any glob is asked, and its path is the module's
  have hlookup : x.lookup parent name guarded =
      some (modulePath (PathText.within parent name)) := by
    rw [← hx.itemPath_eq hp hname]
    exact x.lookup_of_explicit (x.lookupExplicit_item hfree hi hk)
  calc x.resolveInside "" (PathText.segments (PathText.within parent name) ++ rest) guarded
      = x.resolveInside "" (PathText.segments parent ++ name :: rest) guarded := by
        rw [hsegments, List.append_assoc]
        rfl
    _ = x.resolveInside parent (name :: rest) guarded := ih (name :: rest)
    _ = x.descend (modulePath (PathText.within parent name)) rest guarded := by
        rw [x.resolveInside_name hname.ne_self hname.ne_super, hlookup]
        rfl
    _ = x.resolveInside (PathText.within parent name) rest guarded :=
        hx.descend_modulePath hm rest guarded

/-- The names of a module lead to it unless a lookup of a declared name is under way. -/
theorem WellFormed.resolveInside_segments {x : ScopeIndex} (hx : x.WellFormed) {guarded : Guard}
    (hg : ∀ key ∈ guarded, x.item? key.1 key.2 = none) :
    ∀ module ∈ x.modules.keys, ∀ rest : List String,
      x.resolveInside "" (PathText.segments module ++ rest) guarded =
        x.resolveInside module rest guarded :=
  hx.resolveInside_segments_of_links fun key hkey kind hi => by
    rw [hg key hkey] at hi
    cases hi

/-! ## Modules inside modules -/

theorem WellFormed.getLast?_ne_colon {x : ScopeIndex} (hx : x.WellFormed) :
    ∀ module ∈ x.modules.keys, module.toList.getLast? ≠ some ':' := by
  refine hx.module_induction (by decide) ?_
  rintro parent - name kind - hi - -
  have hname : IsPlain name := hx.plain _ (item_mem_linkKeys hi)
  have hne : name.toList ≠ [] := fun e => hname.isName.1 (String.toList_eq_nil_iff.mp e)
  have hlast : name.toList.getLast? ≠ some ':' := fun e =>
    hname.isName.2 (List.mem_of_getLast? e)
  unfold PathText.within
  split
  · exact hlast
  · rw [List.getLast?_eq_some_getLast hne] at hlast
    rw [String.toList_append, List.getLast?_append, List.getLast?_eq_some_getLast hne]
    exact hlast

/-- **Only a module has modules inside it**, whatever text stands behind the separator. -/
theorem WellFormed.mem_keys_of_within_mem {x : ScopeIndex} (hx : x.WellFormed) {outer inner : String}
    (h : PathText.within outer inner ∈ x.modules.keys) : outer ∈ x.modules.keys := by
  by_cases hroot : outer = ""
  · rw [hroot]
    exact hx.root
  -- every separator of a module's path stands behind the path of a module
  have hcut : ∀ module ∈ x.modules.keys, ∀ after : List Char,
      module.toList = outer.toList ++ ':' :: ':' :: after → outer ∈ x.modules.keys := by
    refine hx.module_induction (fun after e => ?_) ?_
    · simp at e
    rintro parent hp name kind - hi - ih after e
    have hname : IsPlain name := hx.plain _ (item_mem_linkKeys hi)
    by_cases hempty : parent = ""
    · rw [hempty, PathText.within_empty] at e
      exact absurd (e ▸ List.mem_append_right _ List.mem_cons_self) hname.isName.2
    · have hchars : (PathText.within parent name).toList =
          parent.toList ++ ':' :: ':' :: name.toList := by
        simp [PathText.within, hempty]
      rw [hchars] at e
      rcases PathText.eq_or_append_of_append_eq hname.isName.2 (hx.getLast?_ne_colon parent hp) e
        with e | ⟨between, e⟩
      · exact String.toList_injective e ▸ hp
      · exact ih between e
  refine hcut _ h inner.toList ?_
  simp [PathText.within, hroot]

/-- A module that is not the root stands inside the module around it. -/
theorem parentModule?_within (parent : String) {name : String} (h : PathText.IsName name) :
    parentModule? (PathText.within parent name) = some parent := by
  unfold parentModule?
  by_cases hp : parent = ""
  · rw [hp, PathText.within_empty, if_neg h.1, PathText.cutLast?_of_isName h]
  · have hlt := PathText.length_lt_length_within parent h.1
    have hne : PathText.within parent name ≠ "" := by
      intro e
      rw [e] at hlt
      exact absurd hlt (Nat.not_lt_zero _)
    rw [if_neg hne, PathText.within, if_neg hp, PathText.cutLast?_append parent h]

/-- **A module has a scope, or the module around it declares it.** -/
theorem WellFormed.isModule_cases {x : ScopeIndex} (hx : x.WellFormed) {module : String}
    (h : x.isModule module = true) :
    module ∈ x.modules.keys ∨
      ∃ parent name, x.item? parent name = some .submodule ∧
        PathText.segments module = PathText.segments parent ++ [name] ∧
        parentModule? module = some parent := by
  unfold isModule at h
  rcases Bool.or_eq_true_iff.mp h with hkey | hdeclared
  · obtain ⟨s, hs⟩ := Option.isSome_iff_exists.mp hkey
    exact .inl (mem_keys_of_scope? hs)
  right
  cases hcut : PathText.cutLast? module with
  | some cut =>
    obtain ⟨parent, name⟩ := cut
    rw [hcut] at hdeclared
    have hitem : x.item? parent name = some .submodule := beq_iff_eq.mp hdeclared
    have hname : IsPlain name := hx.plain _ (item_mem_linkKeys hitem)
    obtain ⟨names, hnames, hparent⟩ := hx.exists_names parent (mem_keys_of_item? hitem)
    have hmodule := PathText.eq_append_of_cutLast? hcut
    refine ⟨parent, name, hitem, ?_, ?_⟩
    · rw [hmodule, hparent, PathText.segments_append hnames hname.isName,
        PathText.segments_join hnames]
    · have hne : module ≠ "" := fun e => by
        rw [e] at hcut
        cases hcut
      rw [parentModule?, if_neg hne, hcut]
  | none =>
    rw [hcut] at hdeclared
    have hitem : x.item? "" module = some .submodule := beq_iff_eq.mp hdeclared
    have hname : IsPlain module := hx.plain _ (item_mem_linkKeys hitem)
    refine ⟨"", module, hitem, ?_, ?_⟩
    · have hsegments : PathText.segments (PathText.join [module]) = [module] :=
        PathText.segments_join (by simpa using hname.isName)
      exact hsegments
    · rw [parentModule?, if_neg hname.isName.1, hcut]

theorem WellFormed.isModule_parent {x : ScopeIndex} (hx : x.WellFormed) {module parent : String}
    (h : x.isModule module = true) (hp : parentModule? module = some parent) :
    parent ∈ x.modules.keys := by
  rcases hx.isModule_cases h with hm | ⟨around, name, hitem, -, haround⟩
  · by_cases hroot : module = ""
    · rw [hroot] at hp
      cases hp
    · obtain ⟨around, haround, name, kind, rfl, hi, -⟩ := hx.declared module hm hroot
      have hname : IsPlain name := hx.plain _ (item_mem_linkKeys hi)
      rw [parentModule?_within around hname.isName] at hp
      cases hp
      exact haround
  · rw [haround] at hp
    cases hp
    exact mem_keys_of_item? hitem

end ScopeIndex

end LogMarkers
