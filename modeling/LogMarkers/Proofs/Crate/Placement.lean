import LogMarkers.Proofs.Crate.Steps

/-!
# Where the nodes of a lowered crate stand

Every node stands in a module that has a scope, and a struct, enum or union is declared in the
module it stands in. A declaration can be replaced by a later one, but the name stays declared, so
every step keeps this (`Step.placed`).

* `SourceSet.placed_lower`: lowered crates have it;
* `SourceSet.keys_subset_lower`: every file of a lowered crate is one of its modules.
-/

namespace LogMarkers

/-! ## 1. Declared names stay declared -/

namespace ScopeIndex

variable {x : ScopeIndex}

/-- A change that keeps the names of a scope keeps those of the index. -/
theorem isSome_item?_alterScope {changed : String} {f : ModuleScope → ModuleScope}
    (hf : ∀ (s : ModuleScope) (n : String), (s.items.get? n).isSome = true →
      ((f s).items.get? n).isSome = true)
    {module name : String} (h : (x.item? module name).isSome = true) :
    ((x.alterScope changed f).item? module name).isSome = true := by
  obtain ⟨kind, hkind⟩ := Option.isSome_iff_exists.mp h
  obtain ⟨s, hs, hitem⟩ := Option.bind_eq_some_iff.mp hkind
  unfold item?
  rw [scope?_alterScope]
  split
  · rename_i e
    rw [← e, hs]
    exact hf s name (by rw [hitem]; rfl)
  · rw [hs]
    exact Option.isSome_of_eq_some hitem

end ScopeIndex

theorem ModuleScope.items_addImports (s : ModuleScope) (leadingColon : Bool)
    (imports : List Import) : (s.addImports leadingColon imports).items = s.items := by
  unfold addImports
  induction imports generalizing s with
  | nil => rfl
  | cons i rest ih =>
    rw [List.foldl_cons, ih]
    cases i <;> rfl

namespace Lowering

variable {G : Given} {l l' : Lowering}

/-- A step takes no declared name away. -/
theorem Step.isSome_item? (h : Step G l l') {module name : String}
    (hd : (l.scopes.item? module name).isSome = true) :
    (l'.scopes.item? module name).isSome = true := by
  have hinsert : ∀ (kind : ItemKind) (declared : String) (s : ModuleScope) (n : String),
      (s.items.get? n).isSome = true → ((s.items.insert declared kind).get? n).isSome = true := by
    intro kind declared s n hn
    rw [Table.get?_insert]
    split
    · rfl
    · exact hn
  cases h with
  | leaf | openNode | close | generic | selfType => exact hd
  | file | enter => exact ScopeIndex.isSome_item?_alterScope (fun _ _ hn => hn) hd
  | declare _ name kind => exact ScopeIndex.isSome_item?_alterScope (hinsert kind name.text) hd
  | aliased _ name target =>
    exact ScopeIndex.isSome_item?_alterScope (hinsert (.typeAlias target.written) name.text) hd
  | imports =>
    refine ScopeIndex.isSome_item?_alterScope (fun s n hn => ?_) hd
    rw [ModuleScope.items_addImports]
    exact hn
  | renamed =>
    refine ScopeIndex.isSome_item?_alterScope (fun s n hn => ?_) hd
    exact hn

/-! ## 2. Nodes and their modules -/

/-- Nodes stand in modules that have a scope, and types where they are declared. -/
structure Placed (x : ScopeIndex) (t : Tree) : Prop where
  known : ∀ i module, x.nodeModules.get? i = some module → module ∈ x.modules.keys
  declared : ∀ i n, t.node? i = some n → n.kind.isTypeDeclaration = true → ∀ name ∈ n.name,
    (x.item? (x.moduleOf i) name).isSome = true

/-- A new node in its module. -/
theorem Placed.grow {x : ScopeIndex} {b : TreeBuilder} (h : Placed x b.tree) {module : String}
    (hm : module ∈ x.modules.keys) {content : NodeContent}
    (hd : content.kind.isTypeDeclaration = true → ∀ name ∈ content.name,
      (x.item? module name).isSome = true) :
    Placed (x.recordNode b.nextId module) (b.grow content) where
  known i other hi := by
    unfold ScopeIndex.recordNode at hi
    rw [Table.get?_insert] at hi
    split at hi
    · cases hi
      exact hm
    · exact h.known i other hi
  declared i n hn hk name hname := by
    rw [x.moduleOf_recordNode]
    unfold TreeBuilder.grow Tree.node? at hn
    rw [Array.getElem?_push] at hn
    split at hn
    · rename_i e
      cases hn
      have hlast : i = b.nextId := e
      rw [if_pos hlast]
      exact hd hk name hname
    · rename_i hne
      have hother : i ≠ b.nextId := hne
      rw [if_neg hother]
      exact h.declared i n hn hk name hname

/-- More scopes and more declared names. -/
theorem Placed.mono {x x' : ScopeIndex} {t : Tree} (h : Placed x t)
    (hnodes : x'.nodeModules = x.nodeModules) (hkeys : x.modules.keys ⊆ x'.modules.keys)
    (hitems : ∀ module name, (x.item? module name).isSome = true →
      (x'.item? module name).isSome = true) : Placed x' t where
  known i module hi := hkeys (h.known i module (hnodes ▸ hi))
  declared i n hn hk name hname := by
    have hmodule : x'.moduleOf i = x.moduleOf i := by
      rw [ScopeIndex.moduleOf, hnodes]
      rfl
    rw [hmodule]
    exact hitems _ _ (h.declared i n hn hk name hname)

/-- **Every step keeps nodes in their places.** -/
theorem Step.placed (h : Step G l l') (hl : Placed l.scopes l.builder.tree) :
    Placed l'.scopes l'.builder.tree := by
  have hkeys : l.known ⊆ l'.known := h.known_subset
  have hitems : ∀ module name, (l.scopes.item? module name).isSome = true →
      (l'.scopes.item? module name).isSome = true := fun _ _ => h.isSome_item?
  cases h with
  | @file module hm =>
    have hentered : Placed (l.addModule module).scopes l.builder.tree :=
      hl.mono rfl hkeys hitems
    exact hentered.grow (mem_known_addModule l module) fun hk => by cases hk
  | leaf h => exact hl.grow h.known h.declared
  | openNode h => exact hl.grow h.known h.declared
  | close | declare | aliased | generic | enter | selfType | imports | renamed =>
    exact hl.mono rfl hkeys hitems

theorem Steps.placed (h : Steps G l l') (hl : Placed l.scopes l.builder.tree) :
    Placed l'.scopes l'.builder.tree := by
  induction h with
  | refl => exact hl
  | tail _ hs ih => exact hs.placed ih

/-! ## 3. Files -/

/-- A file that has been gone through has its module. -/
theorem mem_known_file (l : Lowering) (f : ParsedFile) : f.module ∈ (l.file f).known := by
  have hm : f.module ∈ ((l.addModule f.module).openNode f.module (fileContent f.module)).known :=
    mem_known_addModule l f.module
  have hinside : Steps .any _ (l.file f) :=
    (steps_items ⟨f.module, f.fileName⟩ f.items (fun _ _ => trivial) hm).tail (.close _)
  exact hinside.known_subset hm

end Lowering

/-- **The nodes of a lowered crate stand in its modules, and types where they are declared.** -/
theorem SourceSet.placed_lower {s : SourceSet} {c : LoweredCrate} (h : s.lower = .ok c) :
    Lowering.Placed c.scopes c.tree := by
  obtain ⟨l, hl, rfl⟩ := Lowering.steps_lower h
  have hempty : Lowering.Placed {} Tree.empty :=
    { known := fun _ _ e => by cases e
      declared := fun _ _ e => by cases e }
  exact hl.placed hempty

/-- Every file of a source set stands for a module of the lowered crate. -/
theorem SourceSet.keys_subset_lower {s : SourceSet} {c : LoweredCrate} (h : s.lower = .ok c) :
    s.keys ⊆ c.scopes.modules.keys := by
  obtain ⟨files, hparse, rfl⟩ := Lowering.exists_parse_of_lower h
  intro module hm
  obtain ⟨f, hf, rfl⟩ := (Lowering.mem_keys_iff_of_parse hparse).mp hm
  exact Lowering.files_of_mem (fun hs hm => hs.known_subset hm)
    (fun l => Lowering.mem_known_file l f) hf {}

end LogMarkers
