import LogMarkers.Proofs.Crate.Owners
import LogMarkers.Proofs.Emission.Owners
import LogMarkers.Proofs.Run.Prefilter

/-!
# A type and its `impl` blocks are extended together

A type is named by the module it stands in, an `impl` block by the path its self type resolves to.
Where both lead to one path, both nodes declare one symbol, and whatever is marked inside either of
them has one fate.

* `ScopeIndex.symbolAt?_itemPath`: the symbol with the path of a declared name is the symbol of the
  declaration;
* `Settled`: what comes of a marker inside an owner that declares a symbol, and
  `settled_of_declared?`: this is what comes of it;
* `finding_of_markedBy`: what a marker that counts leads to;
* `exists_group_of_key_eq`: targets of one owner share a group;
* `impl_shares_group_with_type`: all of it for a type and an `impl` block of it.
-/

namespace LogMarkers

/-! ## 1. The symbol of a path -/

namespace ScopeIndex

/-- **The symbol with the path of a declared name is the symbol of the declaration.** -/
theorem symbolAt?_itemPath (x : ScopeIndex) {names : List String}
    (h : ∀ n ∈ names, PathText.IsName n) (name : String) :
    x.symbolAt? (itemPath (PathText.join names) name) =
      some (x.declaredIn (PathText.join names) name) := by
  rw [itemPath_join h, symbolAt?_concat, declaredIn, itemPath_join h]

end ScopeIndex

/-! ## 2. What comes of a marker -/

/-- The marker that counts on a declaration, and what it asks for. -/
structure MarkedBy (t : Tree) (model : SemanticModel) (r : Registry) (k : NodeId) (n : Node)
    (m : Marker) (augmentation : Augmentation) : Prop where
  node : t.node? k = some n
  chosen : (weigh n none (markersOn model r k n)).1 = some m
  asked : m.augmentation? n = some augmentation

/-- A single attribute that denotes a fitting marker decides. -/
theorem markedBy_of_single {t : Tree} {model : SemanticModel} {r : Registry} {k : NodeId} {n : Node}
    (hn : t.node? k = some n) (hsingle : n.attributes.length = 1) {p : SymbolPath}
    (hp : model.attribute? k 0 = some p) {m : Marker} (hm : r.find? p = some m)
    (hfits : m.appliesTo n.kind = true) {augmentation : Augmentation}
    (hasked : m.augmentation? n = some augmentation) : MarkedBy t model r k n m augmentation where
  node := hn
  chosen := by
    have hmarkers : markersOn model r k n = [m] := by simp [markersOn, hsingle, hp, hm]
    rw [hmarkers, weigh_fst]
    simp [hfits]
  asked := hasked

/-- What the markers on the declaration `k` come to if its owner declares the symbol `s`. -/
structure Settled (t : Tree) (model : SemanticModel) (s : DeclaredSymbol) (k : NodeId) : Prop where
  /-- Nothing is found for an owner with parameters, and the marker is reported. -/
  rejected : s.generic = true → ∀ r n m augmentation, MarkedBy t model r k n m augmentation →
    (resolve t model r k).finding = none ∧ ownerGeneric n m s ∈ (resolve t model r k).diagnostics
  /-- A marker that counts leads to a finding for every other owner. -/
  found : s.generic = false → ∀ r n m augmentation, MarkedBy t model r k n m augmentation →
    (resolve t model r k).finding.isSome = true
  /-- What is found belongs to the symbol, which has no parameters. -/
  named : ∀ r f, (resolve t model r k).finding = some f →
    s.generic = false ∧ f.target.key = ⟨s.container.path, some s.name⟩

/-- A finding is about the symbol that its owner declares. -/
theorem findTarget_of_declared? {t : Tree} {model : SemanticModel} {k owner : NodeId} {node : Node}
    (howner : t.owner? k = some (owner, node)) {s : DeclaredSymbol}
    (hs : model.declared? owner = some s) (n : Node) (m : Marker) (augmentation : Augmentation) :
    findTarget t model k n m augmentation =
      if s.generic then .error (ownerGeneric n m s)
      else .ok ⟨owner,
        ⟨some s.name, s.container.path, augmentation, m.identity, n.location⟩⟩ := by
  unfold findTarget
  cases hgeneric : s.generic <;> simp [howner, hs, hgeneric, Option.filter, ownerName?]

/-- A marker that counts decides what is resolved. -/
theorem resolve_of_markedBy {t : Tree} {model : SemanticModel} {r : Registry} {k : NodeId}
    {n : Node} {m : Marker} {augmentation : Augmentation}
    (h : MarkedBy t model r k n m augmentation) :
    resolve t model r k =
      match findTarget t model k n m augmentation with
      | .error report =>
        { diagnostics := (weigh n none (markersOn model r k n)).2 ++ [report] }
      | .ok finding =>
        { finding := some finding, diagnostics := (weigh n none (markersOn model r k n)).2 } := by
  cases hfind : findTarget t model k n m augmentation with
  | error report => simp [resolve, h.node, h.chosen, h.asked, hfind]
  | ok finding => simp [resolve, h.node, h.chosen, h.asked, hfind]

/-- A marker that counts leads to a finding about the symbol that the owner declares, unless that
    has parameters. -/
theorem finding_of_markedBy {t : Tree} {model : SemanticModel} {r : Registry} {k owner : NodeId}
    {n node : Node} {m : Marker} {augmentation : Augmentation} {s : DeclaredSymbol}
    (h : MarkedBy t model r k n m augmentation) (howner : t.owner? k = some (owner, node))
    (hs : model.declared? owner = some s) :
    (resolve t model r k).finding =
      if s.generic then none
      else some ⟨owner,
        ⟨some s.name, s.container.path, augmentation, m.identity, n.location⟩⟩ := by
  rw [resolve_of_markedBy h, findTarget_of_declared? howner hs]
  cases s.generic <;> rfl

/-- **What is marked inside an owner is settled by the symbol the owner declares.** -/
theorem settled_of_declared? {t : Tree} {model : SemanticModel} {k owner : NodeId} {node : Node}
    (howner : t.owner? k = some (owner, node)) {s : DeclaredSymbol}
    (hs : model.declared? owner = some s) : Settled t model s k where
  rejected hgeneric r n m augmentation hm := by
    rw [resolve_of_markedBy hm, findTarget_of_declared? howner hs, if_pos hgeneric]
    exact ⟨rfl, List.mem_append_right _ (List.mem_singleton_self _)⟩
  found hgeneric r n m augmentation hm := by
    rw [finding_of_markedBy hm howner hs, hgeneric]
    rfl
  named r f hf := by
    obtain ⟨n, m, augmentation, -, -, -, -, hfound⟩ := exists_marker_of_finding hf
    rw [findTarget_of_declared? howner hs] at hfound
    cases hgeneric : s.generic with
    | true =>
      rw [hgeneric] at hfound
      cases hfound
    | false =>
      rw [hgeneric] at hfound
      cases hfound
      exact ⟨rfl, rfl⟩

/-! ## 3. One group -/

/-- Targets of one owner share a group. -/
theorem exists_group_of_key_eq {targets : List Target} {t t' : Target} (ht : t ∈ targets)
    (ht' : t' ∈ targets) (h : t.key = t'.key) :
    ∃ g ∈ groups targets, g.key = t.key ∧ t ∈ g.targets ∧ t' ∈ g.targets :=
  ⟨⟨t.key, targets.filter (·.key = t.key)⟩,
    List.mem_map.mpr ⟨t.key, mem_ownerKeys.mpr ⟨t, ht, rfl⟩, rfl⟩, rfl,
    List.mem_filter.mpr ⟨ht, decide_eq_true rfl⟩,
    List.mem_filter.mpr ⟨ht', decide_eq_true h.symm⟩⟩

/-- **An `impl` block shares the group of its type**: if a type stands in the module `names` and the
    self type of an `impl` block resolves to its path, from whatever module and in whatever
    spelling, then both nodes declare one symbol, with the name, the namespace and the parameters of
    the type. What is marked inside either of them is rejected because the type is generic, or is
    found; and any two findings are in one group of every list of targets that has both. -/
theorem impl_shares_group_with_type (x : ScopeIndex) (t : Tree) (names : List String)
    (hnames : ∀ n ∈ names, PathText.IsName n) (name : String) {i j : NodeId} {n b : Node}
    (hn : t.node? i = some n) (htype : n.kind = .struct ∨ n.kind = .enum ∨ n.kind = .union)
    (hname : n.name = some name) (hmodule : x.moduleOf i = PathText.join names)
    (hb : t.node? j = some b) (himpl : b.kind = .impl) {target : WrittenPath}
    (htarget : x.implTargets.get? j = some target)
    (hresolved : x.resolve (x.moduleOf j) target = some (crateWord :: (names ++ [name]))) :
    ∃ s : DeclaredSymbol, (x.model t).declared? i = some s ∧ (x.model t).declared? j = some s ∧
      s.name = name ∧ s.container.path = PathText.join names ∧
      (∀ k owner node, t.owner? k = some (owner, node) → owner = i ∨ owner = j →
        Settled t (x.model t) s k) ∧
      ∀ (r : Registry) (k k' owner owner' : NodeId) (node node' : Node) (f f' : Finding),
        t.owner? k = some (owner, node) → owner = i ∨ owner = j →
        t.owner? k' = some (owner', node') → owner' = i ∨ owner' = j →
        (resolve t (x.model t) r k).finding = some f →
        (resolve t (x.model t) r k').finding = some f' →
        ∀ targets : List Target, f.target ∈ targets → f'.target ∈ targets →
          ∃ g ∈ groups targets, f.target ∈ g.targets ∧ f'.target ∈ g.targets := by
  have hkind : n.kind.isTypeDeclaration = true := by
    rcases htype with h | h | h <;> rw [h] <;> rfl
  let s : DeclaredSymbol := x.declaredIn (PathText.join names) name
  have hi : (x.model t).declared? i = some s := by
    rw [x.declared?_type hn hkind, hname, hmodule]
    rfl
  have hj : (x.model t).declared? j = some s := by
    rw [x.declared?_impl hb himpl, htarget, Option.bind_some, hresolved, Option.bind_some,
      ← ScopeIndex.itemPath_join hnames, x.symbolAt?_itemPath hnames]
  have hsettled : ∀ k owner node, t.owner? k = some (owner, node) → owner = i ∨ owner = j →
      Settled t (x.model t) s k := by
    rintro k owner node howner (rfl | rfl)
    · exact settled_of_declared? howner hi
    · exact settled_of_declared? howner hj
  refine ⟨s, hi, hj, rfl, Namespace.path_ofPath _, hsettled, ?_⟩
  intro r k k' owner owner' node node' f f' howner hmem howner' hmem' hf hf' targets ht ht'
  have hkey := ((hsettled k owner node howner hmem).named r f hf).2
  have hkey' := ((hsettled k' owner' node' howner' hmem').named r f' hf').2
  obtain ⟨g, hg, -, hin, hin'⟩ := exists_group_of_key_eq ht ht' (hkey.trans hkey'.symm)
  exact ⟨g, hg, hin, hin'⟩

/-- A struct in the module `ui` with a marked field, and an `impl` block at the root with a marked
    method. -/
def widgetTree : Tree := Tree.build
  [ .openNode { kind := .sourceFile },
    .openNode { kind := .inlineModule, name := some "ui" },
    .openNode { kind := .struct, name := some "Widget" },
    .leaf { kind := .field, name := some "size",
            attributes := [⟨["autolog", "auto_log_property"], true⟩] },
    .close,
    .close,
    .openNode { kind := .impl, name := some "W" },
    .leaf { kind := .method, name := some "draw",
            attributes := [⟨["autolog", "auto_log_method"], true⟩] } ]

/-- Its scopes: the root imports the struct under another name, and the self type spells that. -/
def widgetScopes : ScopeIndex :=
  (((({} : ScopeIndex).declare "" "ui" .submodule).declare "ui" "Widget" .nominal).addImport
    "" "W" ⟨["crate", "ui", "Widget"], false⟩).recordNode 2 "ui" |>.recordImplTarget
    4 ⟨["W"], false⟩

/-- The self type leads through the import to the struct. -/
theorem resolve_renamed_widgetScopes :
    widgetScopes.resolve (widgetScopes.moduleOf 4) ⟨["W"], false⟩ =
      some ["crate", "ui", "Widget"] := by
  have hmodule : widgetScopes.moduleOf 4 = "" := by decide
  have hui : widgetScopes.item? "" "ui" = some .submodule := by decide
  have hwidget : widgetScopes.item? "ui" "Widget" = some .nominal := by decide
  have hlink : widgetScopes.import? "" "W" = some ⟨["crate", "ui", "Widget"], false⟩ := by decide
  have htarget : widgetScopes.resolveInside "ui" ["Widget"] [("", "W")] =
      some ["crate", "ui", "Widget"] := by
    rw [ScopeIndex.resolveInside_single _ (by decide) (by decide), ScopeIndex.lookup_of_explicit _
      (ScopeIndex.lookupExplicit_item _ (by decide) hwidget (by simp))]
    decide
  have hfollowed : widgetScopes.lookupExplicit "" "W" [] = some ["crate", "ui", "Widget"] := by
    rw [ScopeIndex.lookupExplicit_import _ (by decide) (by decide) hlink,
      ScopeIndex.resolveWritten_crate, ScopeIndex.resolveInside_name _ (by decide) (by decide),
      ScopeIndex.lookup_of_explicit _
        (ScopeIndex.lookupExplicit_item _ (by decide) hui (by simp)), Option.bind_some,
      ScopeIndex.descend_module _ (by simp) (by decide : _ = some "ui") (by decide), htarget]
  rw [hmodule, ScopeIndex.resolve_single _ (by decide) (by decide) (by decide),
    ScopeIndex.lookup_of_explicit _ hfollowed]

/-- The field and the method are found, and share a group. -/
theorem impl_shares_group_with_type_widgetTree :
    ∃ (s : DeclaredSymbol) (f f' : Finding),
      (widgetScopes.model widgetTree).declared? 2 = some s ∧
      (widgetScopes.model widgetTree).declared? 4 = some s ∧ s.name = "Widget" ∧
      s.container.path = "ui" ∧ s.generic = false ∧
      (resolve widgetTree (widgetScopes.model widgetTree) .standard 3).finding = some f ∧
      (resolve widgetTree (widgetScopes.model widgetTree) .standard 5).finding = some f' ∧
      ∃ g ∈ groups [f.target, f'.target], f.target ∈ g.targets ∧ f'.target ∈ g.targets := by
  have hstruct : widgetTree.owner? 3 = some (2, ⟨.struct, some "Widget", some 1, [], none⟩) := by
    decide +kernel
  have hblock : widgetTree.owner? 5 = some (4, ⟨.impl, some "W", some 0, [], none⟩) := by
    decide +kernel
  obtain ⟨s, hs, hs', hname, hpath, hsettled, hgroup⟩ :=
    impl_shares_group_with_type widgetScopes widgetTree ["ui"] (by decide) "Widget"
      (Tree.node?_of_owner? hstruct).1 (.inl rfl) rfl (by decide) (Tree.node?_of_owner? hblock).1
      rfl rfl resolve_renamed_widgetScopes
  have hplain : s.generic = false := by
    have hdeclared : (widgetScopes.model widgetTree).declared? 2 =
        some (widgetScopes.declaredIn "ui" "Widget") := by
      rw [widgetScopes.declared?_type (Tree.node?_of_owner? hstruct).1 rfl]
      rfl
    rw [hs] at hdeclared
    rw [Option.some.inj hdeclared]
    decide
  have hfieldNode : widgetTree.node? 3 =
      some ⟨.field, some "size", some 2, [⟨["autolog", "auto_log_property"], true⟩], none⟩ := by
    decide
  have hsize : MarkedBy widgetTree (widgetScopes.model widgetTree) .standard 3
      ⟨.field, some "size", some 2, [⟨["autolog", "auto_log_property"], true⟩], none⟩
      ⟨⟨"autolog::auto_log_property"⟩, .member .property, [.field]⟩ (.member "size" .property) :=
    markedBy_of_single hfieldNode rfl
      (widgetScopes.attribute?_of_leadingColon hfieldNode rfl (by simp)) (by decide) rfl rfl
  have hmethodNode : widgetTree.node? 5 =
      some ⟨.method, some "draw", some 4, [⟨["autolog", "auto_log_method"], true⟩], none⟩ := by
    decide
  have hdraw : MarkedBy widgetTree (widgetScopes.model widgetTree) .standard 5
      ⟨.method, some "draw", some 4, [⟨["autolog", "auto_log_method"], true⟩], none⟩
      ⟨⟨"autolog::auto_log_method"⟩, .member .method, [.method]⟩ (.member "draw" .method) :=
    markedBy_of_single hmethodNode rfl
      (widgetScopes.attribute?_of_leadingColon hmethodNode rfl (by simp)) (by decide) rfl rfl
  have hfield := finding_of_markedBy hsize hstruct hs
  have hmethod := finding_of_markedBy hdraw hblock hs'
  rw [hplain, if_neg Bool.false_ne_true] at hfield hmethod
  exact ⟨s, _, _, hs, hs', hname, hpath, hplain, hfield, hmethod,
    hgroup .standard 3 5 2 4 _ _ _ _ hstruct (.inl rfl) hblock (.inr rfl) hfield hmethod _
      (by simp) (by simp)⟩

end LogMarkers
