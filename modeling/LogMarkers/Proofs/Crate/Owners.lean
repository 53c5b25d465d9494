import LogMarkers.Finding
import LogMarkers.Proofs.Crate.SelfTypes
import LogMarkers.Proofs.Scope.Canonical

/-!
# The owners of findings

Every finding of a crate belongs to a struct, an enum, a union or an `impl` block, and is named
after the symbol that this node declares (`LoweredCrate.exists_symbol_of_findTarget`). The path of
such a symbol denotes itself (`SourceSet.isFixed_symbol`): a type is declared where it stands, and
the self type of an `impl` block is a path that resolution has made.
-/

namespace LogMarkers

/-! ## 1. What a finding says about its owner -/

/-- The node that owns a declaration is there, and members can belong to it. -/
theorem Tree.node?_of_owner? {t : Tree} {i j : NodeId} {n : Node} (h : t.owner? i = some (j, n)) :
    t.node? j = some n ∧ n.kind.isOwnerScope = true := by
  have hamong : ∀ chain : List NodeId, t.ownerAmong chain = some (j, n) →
      t.node? j = some n ∧ n.kind.isOwnerScope = true := by
    intro chain
    induction chain with
    | nil =>
      intro hnone
      cases hnone
    | cons k rest ih =>
      intro hfound
      unfold Tree.ownerAmong at hfound
      split at hfound
      · cases hfound
      · split at hfound
        · rename_i hk hscope
          cases hfound
          exact ⟨hk, hscope⟩
        · split at hfound
          · cases hfound
          · exact ih hfound
  unfold Tree.owner? at h
  split at h
  · cases h
  · split at h
    · rename_i hi hscope
      cases h
      exact ⟨hi, hscope⟩
    · exact hamong _ h

/-- What a finding says about its owner is what the model says the owning node declares. -/
theorem exists_owner_of_findTarget {t : Tree} {model : SemanticModel} {i : NodeId} {n : Node}
    {m : Marker} {augmentation : Augmentation} {f : Finding}
    (h : findTarget t model i n m augmentation = .ok f) :
    f.target.augmentation = augmentation ∧ ∃ node, t.node? f.owner = some node ∧
      node.kind.isOwnerScope = true ∧
      f.target.ownerName = ownerName? node (model.declared? f.owner) ∧
      f.target.ownerNamespace = ((model.declared? f.owner).map (·.container.path)).getD "" ∧
      ∀ s, model.declared? f.owner = some s → s.generic = false := by
  unfold findTarget at h
  split at h
  · cases h
  · rename_i owner node howner
    obtain ⟨hnode, hscope⟩ := Tree.node?_of_owner? howner
    dsimp only at h
    split at h
    · cases h
    · rename_i hplain
      cases h
      refine ⟨rfl, node, hnode, hscope, rfl, rfl, fun s hs => ?_⟩
      simpa [hs] using hplain

/-- An attribute denotes what its path denotes for the node. -/
theorem ScopeIndex.attribute?_of_node (x : ScopeIndex) {t : Tree} {i : NodeId} {n : Node} {k : Nat}
    {path : WrittenPath} (hn : t.node? i = some n) (hk : n.attributes[k]? = some path) :
    (x.model t).attribute? i k = x.attributeSymbol? i path := by
  have hmodel : (x.model t).attribute? i k = (t.node? i).bind fun n =>
    n.attributes[k]?.bind (x.attributeSymbol? i) := rfl
  rw [hmodel, hn, Option.bind_some, hk, Option.bind_some]

/-- An attribute with a leading colon denotes the path it spells. -/
theorem ScopeIndex.attribute?_of_leadingColon (x : ScopeIndex) {t : Tree} {i : NodeId} {n : Node}
    {k : Nat} {segments : List String} (hn : t.node? i = some n)
    (hk : n.attributes[k]? = some ⟨segments, true⟩) (hne : segments ≠ []) :
    (x.model t).attribute? i k = some (.ofSegments segments) := by
  rw [x.attribute?_of_node hn hk]
  exact congrArg (Option.map _) (resolveWritten_leadingColon _ hne)

/-- A type stands for its name in its module. -/
theorem ScopeIndex.nodeSymbol?_type (x : ScopeIndex) (i : NodeId) {n : Node}
    (h : n.kind.isTypeDeclaration = true) :
    x.nodeSymbol? i n = n.name.map (x.declaredIn (x.moduleOf i)) := by
  unfold nodeSymbol?
  cases hk : n.kind <;> first | rfl | (rw [hk] at h; cases h)

theorem ScopeIndex.declared?_type (x : ScopeIndex) {t : Tree} {i : NodeId} {n : Node}
    (hn : t.node? i = some n) (hk : n.kind.isTypeDeclaration = true) :
    (x.model t).declared? i = n.name.map (x.declaredIn (x.moduleOf i)) := by
  have hmodel : (x.model t).declared? i = (t.node? i).bind (x.nodeSymbol? i) := rfl
  rw [hmodel, hn, Option.bind_some, x.nodeSymbol?_type i hk]

theorem LoweredCrate.declared?_type {c : LoweredCrate} {i : NodeId} {n : Node}
    (hn : c.tree.node? i = some n) (hk : n.kind.isTypeDeclaration = true) :
    c.model.declared? i = n.name.map (c.scopes.declaredIn (c.scopes.moduleOf i)) :=
  c.scopes.declared?_type hn hk

/-- **The owner of a finding of a crate is a symbol that the crate declares**, without
    parameters. -/
theorem LoweredCrate.exists_symbol_of_findTarget {c : LoweredCrate} {i : NodeId} {n : Node}
    {m : Marker} {augmentation : Augmentation} {f : Finding}
    (h : findTarget c.tree c.model i n m augmentation = .ok f) {owner : String}
    (howner : f.target.ownerName = some owner) :
    ∃ node s, c.tree.node? f.owner = some node ∧ node.kind.isOwnerScope = true ∧
      c.model.declared? f.owner = some s ∧ s.name = owner ∧
      s.container.path = f.target.ownerNamespace ∧ s.generic = false := by
  obtain ⟨-, node, hnode, hscope, hname, hspace, hplain⟩ := exists_owner_of_findTarget h
  rw [howner] at hname
  cases hs : c.model.declared? f.owner with
  | some s =>
    rw [hs] at hname hspace
    exact ⟨node, s, hnode, hscope, rfl, (Option.some.inj hname).symm, hspace.symm, hplain s hs⟩
  | none =>
    -- a type without a symbol has no name, and nothing else is named without one
    rw [hs, ownerName?] at hname
    split at hname
    · rename_i htype
      rw [declared?_type hnode htype, ← hname] at hs
      cases hs
    · cases hname

/-! ## 2. The paths of owners -/

/-- A declared name that is no alias denotes itself, with its module before it. -/
theorem ScopeIndex.WellFormed.isFixed_of_isSome_item? {x : ScopeIndex} (hx : x.WellFormed)
    {module name : String} (hm : module ∈ x.modules.keys)
    (h : (x.item? module name).isSome = true)
    (hno : x.NoAlias (PathText.segments module ++ [name])) :
    x.IsFixed (PathText.segments module ++ [name]) := by
  obtain ⟨kind, hkind⟩ := Option.isSome_iff_exists.mp h
  refine hx.isFixed_of_item hkind fun target e => ?_
  refine hno (PathText.segments module) name [] rfl target ?_
  rw [hx.join_segments hm, hkind, e]

/-- **The symbol of an owner denotes itself**, in a well-formed crate and without an alias on the
    way. -/
theorem SourceSet.isFixed_symbol {sources : SourceSet} {c : LoweredCrate}
    (hc : sources.lower = .ok c) (hx : c.scopes.WellFormed)
    (habsolute : ∀ p ∈ c.scopes.linkPaths ++ c.scopes.implTargets.values,
      p.leadingColon = true → p.segments.head? ≠ some crateWord)
    {i : NodeId} {n : Node} (hn : c.tree.node? i = some n) (hk : n.kind.isOwnerScope = true)
    {s : DeclaredSymbol} (hs : c.model.declared? i = some s) :
    ∃ names : List String, (∀ m ∈ names, PathText.IsName m) ∧
      s.container.path = PathText.join names ∧
      (c.scopes.NoAlias (names ++ [s.name]) → c.scopes.IsFixed (names ++ [s.name])) := by
  have hplaced := SourceSet.placed_lower hc
  have hm : c.scopes.moduleOf i ∈ c.scopes.modules.keys := by
    unfold ScopeIndex.moduleOf
    cases hmodule : c.scopes.nodeModules.get? i with
    | none => exact hx.root
    | some module => exact hplaced.known i module hmodule
  rcases Bool.or_eq_true_iff.mp hk with htype | himpl
  · rw [LoweredCrate.declared?_type hn htype] at hs
    obtain ⟨name, hname, rfl⟩ := Option.map_eq_some_iff.mp hs
    have hpath : PathText.IsPath (c.scopes.moduleOf i) := hx.exists_names _ hm
    refine ⟨PathText.segments (c.scopes.moduleOf i), hpath.isName_of_mem, ?_, ?_⟩
    · rw [hpath.join_segments]
      exact Namespace.path_ofPath _
    · exact hx.isFixed_of_isSome_item? hm (hplaced.declared i n hn htype name hname)
  · have hsources : ∀ module ∈ sources.keys, PathText.IsPath module := fun module hmodule =>
      hx.exists_names module (SourceSet.keys_subset_lower hc hmodule)
    rw [LoweredCrate.declared?_impl hn (beq_iff_eq.mp himpl)] at hs
    obtain ⟨target, htarget, hs⟩ := Option.bind_eq_some_iff.mp hs
    obtain ⟨path, hpath, hsymbol⟩ := Option.bind_eq_some_iff.mp hs
    have horigin := (SourceSet.named_lower hsources hc).hasOrigin_of_selfType hplaced habsolute
      htarget hpath
    have hmem : target ∈ c.scopes.implTargets.values :=
      List.mem_map.mpr ⟨(i, target), Table.mem_of_lookup htarget, rfl⟩
    have hclosed := hx.resultClosed_isFixed fun p hp => habsolute p (List.mem_append_left _ hp)
    have hfixed := (ScopeIndex.resolveWritten_closed hclosed).1 _ target false true []
      (ScopeIndex.isModule_of_mem hm) (fun _ _ => trivial)
      (fun hl hne => ⟨hne, fun _ e => absurd (by rw [e]; rfl)
        (habsolute target (List.mem_append_right _ hmem) hl)⟩) path hpath
    obtain ⟨names, rfl, hcontainer⟩ := ScopeIndex.exists_names_of_symbolAt? hsymbol
    obtain ⟨hnames, -⟩ := horigin.2 _ rfl
    exact ⟨names, fun m hm => hnames m (List.mem_append_left _ hm), hcontainer, hfixed.2 _ rfl⟩

end LogMarkers
