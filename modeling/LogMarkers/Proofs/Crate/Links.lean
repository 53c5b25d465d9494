import LogMarkers.Proofs.Crate.Steps

/-!
# Where the names and the links of a crate come from

What a lowered crate declares and imports is spelled by identifiers, and what its aliases, imports
and globs lead to is written in its sources. Only a renamed crate adds a path that is written
nowhere: its name, as a path from the root of all crates.

* `IsSpelled`: a name that an identifier spells; `spelled_of_mem_links` says that paths which items
  lead to are made of such names.
* `ScopeIndex.ComesFrom` is what holds of the scopes, every step of lowering keeps it
  (`Step.comesFrom`), and `SourceSet.comesFrom_lower` says it of a lowered crate and its sources.
-/

namespace LogMarkers

/-! ## 1. Names that are spelled -/

/-- An identifier spells this name. -/
def IsSpelled (name : String) : Prop := ∃ ident : Identifier, ident.text = name

/-- All names of the path are spelled. -/
def WrittenPath.Spelled (p : WrittenPath) : Prop := ∀ name ∈ p.segments, IsSpelled name

/-- A binding has a spelled name and a path of such names, a glob a path of them. -/
def Import.Spelled : Import → Prop
  | .binding newName target => IsSpelled newName ∧ ∀ name ∈ target, IsSpelled name
  | .everything source => ∀ name ∈ source, IsSpelled name

theorem Identifier.isSpelled_text (i : Identifier) : IsSpelled i.text := ⟨i, rfl⟩

theorem IsSpelled.isName {name : String} (h : IsSpelled name) : PathText.IsName name := by
  obtain ⟨ident, rfl⟩ := h
  exact ident.isName_text

theorem SourcePath.spelled_written (p : SourcePath) : p.written.Spelled := by
  intro name hname
  obtain ⟨ident, -, rfl⟩ := List.mem_map.mp hname
  exact ident.isSpelled_text

theorem isSpelled_of_mem_concat {before : List String} (h : ∀ name ∈ before, IsSpelled name)
    (last : Identifier) : ∀ name ∈ before ++ [last.text], IsSpelled name := by
  intro name hname
  rcases List.mem_append.mp hname with hname | hname
  · exact h name hname
  · exact List.mem_singleton.mp hname ▸ last.isSpelled_text

theorem leafPath_spelled {before : List String} (h : ∀ name ∈ before, IsSpelled name)
    (last : Identifier) : ∀ name ∈ leafPath before last, IsSpelled name := by
  unfold leafPath
  split
  · exact h
  · exact isSpelled_of_mem_concat h last

/-- **A tree of imports behind spelled names imports spelled names.** -/
theorem UseTree.imports_spelled : ∀ (tree : UseTree) {before : List String},
    (∀ name ∈ before, IsSpelled name) → ∀ i ∈ tree.imports before, i.Spelled
  | .path first rest, before, h, i, hi => by
    unfold imports at hi
    exact rest.imports_spelled (isSpelled_of_mem_concat h first) i hi
  | .name last, before, h, i, hi => by
    unfold imports at hi
    split at hi
    · rename_i newName hlast
      cases List.mem_singleton.mp hi
      have hpath := leafPath_spelled h last
      exact ⟨hpath newName (List.mem_of_getLast? hlast), hpath⟩
    · cases hi
  | .rename last newName, before, h, i, hi => by
    unfold imports at hi
    split at hi
    · cases hi
    · cases List.mem_singleton.mp hi
      exact ⟨newName.isSpelled_text, leafPath_spelled h last⟩
  | .glob, before, h, i, hi => by
    unfold imports at hi
    cases List.mem_singleton.mp hi
    exact h
  | .group trees, before, h, i, hi => by
    unfold imports at hi
    obtain ⟨tree, htree, hi⟩ := List.mem_flatMap.mp hi
    exact tree.imports_spelled h i hi

theorem UseTree.imports_nil_spelled (tree : UseTree) : ∀ i ∈ tree.imports [], i.Spelled :=
  tree.imports_spelled fun _ h => by cases h

mutual

/-- The paths that an item leads to are made of spelled names. -/
theorem Item.spelled_of_mem_links : ∀ (i : Item), ∀ path ∈ i.links, path.Spelled
  | .typeAlias _ (some target), path, h => List.mem_singleton.mp h ▸ target.spelled_written
  | .imports leadingColon tree, path, h => by
    obtain ⟨i, hi, rfl⟩ := List.mem_map.mp h
    have himport := tree.imports_nil_spelled i hi
    cases i with
    | binding newName target => exact himport.2
    | everything source => exact himport
  | .inlineModule _ _ contained, path, h => spelled_of_mem_links contained path h
  | .typeAlias _ none, _, h | .struct .., _, h | .union .., _, h | .enum .., _, h
  | .trait .., _, h | .impl .., _, h | .function .., _, h | .const .., _, h | .static .., _, h
  | .fileModule .., _, h | .externCrate .., _, h | .other, _, h => by cases h

/-- The paths that items lead to are made of spelled names. -/
theorem spelled_of_mem_links : ∀ (is : List Item), ∀ path ∈ links is, path.Spelled
  | [], _, h => by cases h
  | i :: rest, path, h => by
    rcases List.mem_append.mp h with h | h
    · exact i.spelled_of_mem_links path h
    · exact spelled_of_mem_links rest path h

end

theorem SourceSet.Links.spelled {s : SourceSet} {path : WrittenPath} (h : s.Links path) :
    path.Spelled := by
  obtain ⟨_, -, f, -, hlink⟩ := h
  exact spelled_of_mem_links f.items path hlink

/-! ## 2. What is noted in scopes -/

/-- A path that an import can lead to: one that the sources give, or the name of another crate. -/
def Given.Imports (G : Given) (p : WrittenPath) : Prop :=
  G.link p ∨ ∃ crate : Identifier, p = ⟨[crate.text], true⟩

/-- Names of the scope are spelled, its links are given. -/
structure ModuleScope.ComesFrom (G : Given) (s : ModuleScope) : Prop where
  items : ∀ name kind, s.items.get? name = some kind →
    IsSpelled name ∧ ∀ target, kind = .typeAlias target → G.link target
  imports : ∀ name target, s.imports.get? name = some target → IsSpelled name ∧ G.Imports target
  globs : ∀ glob ∈ s.globs, G.link glob

/-- All scopes come from what is given, and self types are paths of a source. -/
structure ScopeIndex.ComesFrom (G : Given) (x : ScopeIndex) : Prop where
  scopes : ∀ module s, x.scope? module = some s → s.ComesFrom G
  targets : ∀ i target, x.implTargets.get? i = some target → ∃ p : SourcePath, target = p.written

variable {G : Given}

theorem Given.Imports.spelled {p : WrittenPath} (h : G.Imports p)
    (hG : ∀ path, G.link path → path.Spelled) : p.Spelled := by
  rcases h with hlink | ⟨crate, rfl⟩
  · exact hG p hlink
  · intro name hname
    exact List.mem_singleton.mp hname ▸ crate.isSpelled_text

namespace ModuleScope

theorem comesFrom_empty : ({} : ModuleScope).ComesFrom G where
  items _ _ h := by cases h
  imports _ _ h := by cases h
  globs _ h := by cases h

namespace ComesFrom

variable {s : ModuleScope}

theorem declare (h : s.ComesFrom G) (name : Identifier) {kind : ItemKind}
    (hk : ∀ target, kind = .typeAlias target → G.link target) :
    ({ s with items := s.items.insert name.text kind } : ModuleScope).ComesFrom G where
  items other k ho := by
    rw [Table.get?_insert] at ho
    split at ho
    · rename_i e
      cases ho
      exact ⟨e ▸ name.isSpelled_text, hk⟩
    · exact h.items other k ho
  imports := h.imports
  globs := h.globs

theorem addImport (h : s.ComesFrom G) {name : String} (hn : IsSpelled name)
    {target : WrittenPath} (ht : G.Imports target) :
    ({ s with imports := s.imports.insert name target } : ModuleScope).ComesFrom G where
  items := h.items
  imports other p ho := by
    rw [Table.get?_insert] at ho
    split at ho
    · rename_i e
      cases ho
      exact ⟨e ▸ hn, ht⟩
    · exact h.imports other p ho
  globs := h.globs

theorem addGlob (h : s.ComesFrom G) {glob : WrittenPath} (hg : G.link glob) :
    ({ s with globs := s.globs ++ [glob] } : ModuleScope).ComesFrom G where
  items := h.items
  imports := h.imports
  globs other ho := by
    rcases List.mem_append.mp ho with ho | ho
    · exact h.globs other ho
    · exact List.mem_singleton.mp ho ▸ hg

theorem addImports (h : s.ComesFrom G) (leadingColon : Bool) {imports : List Import}
    (hs : ∀ i ∈ imports, i.Spelled) (hl : ∀ i ∈ imports, G.link ⟨i.path, leadingColon⟩) :
    (s.addImports leadingColon imports).ComesFrom G := by
  induction imports generalizing s with
  | nil => exact h
  | cons i rest ih =>
    have hspelled : ∀ j ∈ rest, j.Spelled := fun j hj => hs j (List.mem_cons_of_mem _ hj)
    have hlinks : ∀ j ∈ rest, G.link ⟨j.path, leadingColon⟩ :=
      fun j hj => hl j (List.mem_cons_of_mem _ hj)
    have hfirst := hs i List.mem_cons_self
    have hlink := hl i List.mem_cons_self
    cases i with
    | binding newName target => exact ih (h.addImport hfirst.1 (.inl hlink)) hspelled hlinks
    | everything source => exact ih (h.addGlob hlink) hspelled hlinks

end ComesFrom

end ModuleScope

/-! ## 3. Steps keep it -/

namespace ScopeIndex

variable {x : ScopeIndex}

theorem comesFrom_empty : ({} : ScopeIndex).ComesFrom G where
  scopes _ _ e := by cases e
  targets _ _ e := by cases e

namespace ComesFrom

/-- A changed scope. -/
theorem alterScope (h : x.ComesFrom G) (module : String) {f : ModuleScope → ModuleScope}
    (hf : ∀ s : ModuleScope, s.ComesFrom G → (f s).ComesFrom G) :
    (x.alterScope module f).ComesFrom G where
  scopes other s hs := by
    rw [scope?_alterScope] at hs
    split at hs
    · cases hs
      refine hf _ ?_
      cases hold : x.scope? module with
      | none => exact ModuleScope.comesFrom_empty
      | some old => exact h.scopes module old hold
    · exact h.scopes other s hs
  targets := h.targets

theorem recordImplTarget (h : x.ComesFrom G) (i : NodeId) (target : SourcePath) :
    (x.recordImplTarget i target.written).ComesFrom G where
  scopes := h.scopes
  targets j other hj := by
    unfold ScopeIndex.recordImplTarget at hj
    rw [Table.get?_insert] at hj
    split at hj
    · cases hj
      exact ⟨target, rfl⟩
    · exact h.targets j other hj

theorem of_item? (h : x.ComesFrom G) {module name : String} {kind : ItemKind}
    (hi : x.item? module name = some kind) :
    IsSpelled name ∧ ∀ target, kind = .typeAlias target → G.link target := by
  obtain ⟨s, hs, hitem⟩ := Option.bind_eq_some_iff.mp hi
  exact (h.scopes module s hs).items name kind hitem

theorem of_import? (h : x.ComesFrom G) {module name : String} {target : WrittenPath}
    (hm : x.import? module name = some target) : IsSpelled name ∧ G.Imports target := by
  obtain ⟨s, hs, himport⟩ := Option.bind_eq_some_iff.mp hm
  exact (h.scopes module s hs).imports name target himport

end ComesFrom

end ScopeIndex

namespace Lowering

variable {l l' : Lowering}

/-- **Every step notes what the sources give**, and spelled names. -/
theorem Step.comesFrom (h : Step G l l') (hl : l.scopes.ComesFrom G) :
    l'.scopes.ComesFrom G := by
  cases h with
  | @file module hm =>
    have hentered := hl.alterScope module fun _ hs => hs
    exact ⟨hentered.scopes, hentered.targets⟩
  | leaf | openNode | close | generic => exact ⟨hl.scopes, hl.targets⟩
  | @declare module hm name kind hk =>
    exact hl.alterScope module fun _ hs => hs.declare name fun target e => absurd e (hk target)
  | @aliased module hm name target ht =>
    exact hl.alterScope module fun _ hs => hs.declare name fun _ e => by
      cases e
      exact ht
  | enter hm name => exact hl.alterScope _ fun _ hs => hs
  | selfType i target => exact hl.recordImplTarget i target
  | @imports module hm leadingColon tree ht =>
    exact hl.alterScope module fun _ hs => hs.addImports leadingColon tree.imports_nil_spelled ht
  | @renamed module hm name newName =>
    exact hl.alterScope module fun _ hs =>
      hs.addImport newName.isSpelled_text (.inr ⟨name, rfl⟩)

theorem Steps.comesFrom (h : Steps G l l') (hl : l.scopes.ComesFrom G) :
    l'.scopes.ComesFrom G := by
  induction h with
  | refl => exact hl
  | tail _ hs ih => exact hs.comesFrom ih

end Lowering

/-- **The scopes of a lowered crate come from its sources.** -/
theorem SourceSet.comesFrom_lower {s : SourceSet} {c : LoweredCrate} (h : s.lower = .ok c) :
    c.scopes.ComesFrom s.given := by
  obtain ⟨l, hl, rfl⟩ := Lowering.steps_lower h
  exact hl.comesFrom ScopeIndex.comesFrom_empty

end LogMarkers
