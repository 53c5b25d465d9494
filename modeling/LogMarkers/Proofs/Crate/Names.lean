import LogMarkers.Proofs.Crate.Links

/-!
# Names of a lowered crate

What a lowered crate notes is made of names: its modules are joined names, names are declared and
imported in them, and the paths that these lead to are made of names. The modules of files are
given, so for them this is assumed; everything else comes from identifiers.

* `ScopeIndex.Named` is what lowered crates have (`SourceSet.named_lower`). The part of it that asks
  nothing of the files is `ScopeIndex.LinksNamed`, which every lowered crate has
  (`SourceSet.linksNamed_lower`), since an identifier spells a name.
* `SourceSet.wordNamed_lower`: the nodes of a lowered crate, files apart, are named by words.
-/

namespace LogMarkers

/-! ## 1. What is made of names -/

/-- All segments are names. -/
def WrittenPath.Named (p : WrittenPath) : Prop := ∀ name ∈ p.segments, PathText.IsName name

/-- The path of an alias is made of names. -/
def ItemKind.Named (kind : ItemKind) : Prop := ∀ target, kind = .typeAlias target → target.Named

/-- Everything in the scope of a module is made of names. -/
structure ModuleScope.Named (s : ModuleScope) : Prop where
  items : ∀ name kind, s.items.get? name = some kind → PathText.IsName name ∧ kind.Named
  imports : ∀ name target, s.imports.get? name = some target →
    PathText.IsName name ∧ target.Named
  globs : ∀ glob ∈ s.globs, glob.Named

/-- Everything declared, imported or extended in a crate is made of names. -/
structure ScopeIndex.LinksNamed (x : ScopeIndex) : Prop where
  scopes : ∀ module s, x.scope? module = some s → s.Named
  targets : ∀ i target, x.implTargets.get? i = some target → target.Named

/-- Everything noted about a crate is made of names. -/
structure ScopeIndex.Named (x : ScopeIndex) : Prop where
  scopes : ∀ module s, x.scope? module = some s → PathText.IsPath module ∧ s.Named
  targets : ∀ i target, x.implTargets.get? i = some target → target.Named

theorem WrittenPath.Spelled.named {p : WrittenPath} (h : p.Spelled) : p.Named :=
  fun name hname => (h name hname).isName

/-! ## 2. Names of a lowered crate -/

namespace ScopeIndex

variable {x : ScopeIndex}

namespace LinksNamed

theorem isName_item (h : x.LinksNamed) {module name : String} {kind : ItemKind}
    (hi : x.item? module name = some kind) : PathText.IsName name := by
  obtain ⟨s, hs, hitem⟩ := Option.bind_eq_some_iff.mp hi
  exact ((h.scopes module s hs).items name kind hitem).1

/-- The paths that lookups follow are made of names. -/
theorem named_of_follows (h : x.LinksNamed) {p : WrittenPath} (hp : x.Follows p) : p.Named := by
  cases hp with
  | glob hs hg => exact (h.scopes _ _ hs).globs p hg
  | aliased hi =>
    obtain ⟨s, hs, hitem⟩ := Option.bind_eq_some_iff.mp hi
    exact ((h.scopes _ s hs).items _ _ hitem).2 p rfl
  | imported _ _ _ hm =>
    obtain ⟨s, hs, himport⟩ := Option.bind_eq_some_iff.mp hm
    exact ((h.scopes _ s hs).imports _ p himport).2

end LinksNamed

namespace Named

theorem linksNamed (h : x.Named) : x.LinksNamed :=
  ⟨fun module s hs => (h.scopes module s hs).2, h.targets⟩

theorem isPath (h : x.Named) {module : String} (hm : module ∈ x.modules.keys) :
    PathText.IsPath module := by
  obtain ⟨s, hs⟩ := mem_keys_iff_scope?.mp hm
  exact (h.scopes module s hs).1

end Named

/-- What comes from sources whose links are spelled is made of names. -/
theorem ComesFrom.linksNamed {G : Given} (h : x.ComesFrom G)
    (hG : ∀ path, G.link path → path.Spelled) : x.LinksNamed where
  scopes module s hs :=
    have hscope := h.scopes module s hs
    { items := fun name kind hi =>
        have ⟨hname, htarget⟩ := hscope.items name kind hi
        ⟨hname.isName, fun target e => (hG target (htarget target e)).named⟩
      imports := fun name target hm =>
        have ⟨hname, htarget⟩ := hscope.imports name target hm
        ⟨hname.isName, (htarget.spelled hG).named⟩
      globs := fun glob hg => (hG glob (hscope.globs glob hg)).named }
  targets i target ht := by
    obtain ⟨p, rfl⟩ := h.targets i target ht
    exact p.spelled_written.named

end ScopeIndex

namespace Lowering

variable {G : Given} {l l' : Lowering}

/-- Every step keeps modules joined names, where files stand for joined names. -/
theorem Step.isPath_of_mem_known (hG : ∀ module, G.file module → PathText.IsPath module)
    (h : Step G l l') (hl : ∀ module ∈ l.known, PathText.IsPath module) :
    ∀ module ∈ l'.known, PathText.IsPath module := by
  -- a scope that is changed or created is that of `changed`
  have halter : ∀ {changed : String} {f : ModuleScope → ModuleScope}, PathText.IsPath changed →
      ∀ module ∈ (l.scopes.alterScope changed f).modules.keys, PathText.IsPath module := by
    intro changed f hchanged module hm
    rcases (ScopeIndex.mem_keys_alterScope _ _ _).mp hm with rfl | hm
    · exact hchanged
    · exact hl module hm
  cases h with
  | file hm => exact halter (hG _ hm)
  | leaf | openNode | close | generic | selfType => exact hl
  | declare hm | aliased hm | imports hm | renamed hm => exact halter (hl _ hm)
  | enter hm name => exact halter ((hl _ hm).within name.isName_text)

theorem Steps.isPath_of_mem_known (hG : ∀ module, G.file module → PathText.IsPath module)
    (h : Steps G l l') (hl : ∀ module ∈ l.known, PathText.IsPath module) :
    ∀ module ∈ l'.known, PathText.IsPath module := by
  induction h with
  | refl => exact hl
  | tail _ hs ih => exact hs.isPath_of_mem_known hG ih

end Lowering

/-- **What a lowered crate declares, imports and extends is made of names**, whatever its files
    stand for. -/
theorem SourceSet.linksNamed_lower {s : SourceSet} {c : LoweredCrate} (h : s.lower = .ok c) :
    c.scopes.LinksNamed :=
  (SourceSet.comesFrom_lower h).linksNamed fun _ hlink => SourceSet.Links.spelled hlink

/-- **The scopes of a lowered crate are made of names.** -/
theorem SourceSet.named_lower {s : SourceSet} (hs : ∀ module ∈ s.keys, PathText.IsPath module)
    {c : LoweredCrate} (h : s.lower = .ok c) : c.scopes.Named := by
  have hlinks := SourceSet.linksNamed_lower h
  obtain ⟨l, hl, rfl⟩ := Lowering.steps_lower h
  have hpaths : ∀ module ∈ l.known, PathText.IsPath module :=
    hl.isPath_of_mem_known hs fun _ hm => by cases hm
  exact ⟨fun module s hscope =>
    ⟨hpaths module (ScopeIndex.mem_keys_of_scope? hscope), hlinks.scopes module s hscope⟩,
    hlinks.targets⟩

/-! ## 3. Names of nodes -/

/-- All nodes but files are named by words, where they have a name. -/
def Tree.WordNamed (t : Tree) : Prop :=
  ∀ i n, t.node? i = some n → n.kind ≠ .sourceFile → ∀ name ∈ n.name, IsWord name

theorem TreeBuilder.wordNamed_grow {b : TreeBuilder} {content : NodeContent}
    (hb : b.tree.WordNamed) (hc : content.kind ≠ .sourceFile → content.IsNamed) :
    (b.grow content).WordNamed := by
  intro i n hn hk
  unfold grow Tree.node? at hn
  rw [Array.getElem?_push] at hn
  split at hn
  · cases hn
    exact hc hk
  · exact hb i n hn hk

/-- Every step names its node by a word, unless it starts a file. -/
theorem Lowering.Step.wordNamed {G : Given} {l l' : Lowering} (h : Step G l l')
    (hl : l.builder.tree.WordNamed) : l'.builder.tree.WordNamed := by
  cases h with
  | file hm => exact TreeBuilder.wordNamed_grow hl fun hk => absurd rfl hk
  | leaf h => exact TreeBuilder.wordNamed_grow hl fun _ => h.named
  | openNode h => exact TreeBuilder.wordNamed_grow hl fun _ => h.named
  | close | declare | aliased | generic | enter | selfType | imports | renamed => exact hl

theorem Lowering.Steps.wordNamed {G : Given} {l l' : Lowering} (h : Steps G l l')
    (hl : l.builder.tree.WordNamed) : l'.builder.tree.WordNamed := by
  induction h with
  | refl => exact hl
  | tail _ hs ih => exact hs.wordNamed ih

/-- **The nodes of a lowered crate are named by words**, files apart. -/
theorem SourceSet.wordNamed_lower {s : SourceSet} {c : LoweredCrate} (h : s.lower = .ok c) :
    c.tree.WordNamed := by
  obtain ⟨l, hl, rfl⟩ := Lowering.steps_lower h
  exact hl.wordNamed fun _ _ e => by cases e

end LogMarkers
