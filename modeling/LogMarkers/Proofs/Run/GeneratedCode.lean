import LogMarkers.Proofs.Renderer.Extension
import LogMarkers.Proofs.Run.SharedGroups

/-!
# Generated code is about its owner

The text of an artifact can be read, and it is one `impl` block whose self type leads back to the
owner that the artifact is for.

* `ScopeIndex.IsFixed.resolve_ownerNames`: the path in the text denotes the owner at the root;
* `Renderer.isPlain_methodText`: what is asked for a word becomes a method that can be read;
* `Generator.exists_targets_of_mem_artifacts`: an artifact of a run is the extension with the
  snippets of findings about its owner;
* `Generator.itemsOf_artifact`: all of this together, for owners whose names are ordinary words.

A word that the language reserves can be a name where it is written raw. The mark is lost on the
way, and the text for such an owner cannot be read (`itemsOf_artifact_rawSources`).
-/

namespace LogMarkers

open Text Source

/-! ## 1. The way to an owner -/

namespace ScopeIndex

variable {x : ScopeIndex}

/-- **The names by which generated code leads to an owner resolve to the owner**, at the root, if
    the path of the owner denotes itself. -/
theorem IsFixed.resolve_ownerNames {names : List String} (hnames : ∀ n ∈ names, IsOrdinary n)
    {owner : String} (howner : IsOrdinary owner) (h : x.IsFixed (names ++ [owner])) :
    x.resolve "" ⟨Renderer.ownerNames names owner, false⟩ =
      some (itemPath (PathText.join names) owner) := by
  rw [itemPath_join fun n hn => (hnames n hn).isName, ← h.self]
  unfold resolve Renderer.ownerNames
  split
  · -- a name at the root is the same with and without the word for the crate before it
    rename_i hnil
    rw [hnil, List.nil_append, x.resolveWritten_name (howner.ne_reserved (by decide))
        (howner.ne_reserved (by decide)) (howner.ne_reserved (by decide)), if_pos rfl,
      x.resolveInside_name (howner.ne_reserved (by decide)) (howner.ne_reserved (by decide))]
    cases x.lookup "" owner [] <;> rfl
  · exact x.resolveWritten_crate

end ScopeIndex

/-! ## 2. Methods that can be read -/

theorem Source.IsOrdinary.isWord_text {text : String} (h : IsOrdinary text) : IsWord text := by
  have hword := h.word.isWord_text
  rwa [text_plainWord] at hword

namespace Renderer

instance (text : String) : Decidable (IsLine text) :=
  List.decidableBAll (fun d => d ≠ '"' ∧ d ≠ '\\' ∧ d ≠ '\r' ∧ d ≠ '\n') text.toList

theorem IsLine.append {a b : String} (ha : IsLine a) (hb : IsLine b) : IsLine (a ++ b) := by
  intro d hd
  rw [String.toList_append, List.mem_append] at hd
  exact hd.elim (ha d) (hb d)

/-- A word stands for itself in quotes. -/
theorem isLine_of_isWord {text : String} (h : IsWord text) : IsLine text := by
  have hmarks : ∀ mark ∈ ['"', '\\', '\r', '\n'], isContinue mark = false :=
    List.all_iff_forall_prop.mp (by decide)
  intro d hd
  have hne : ∀ mark ∈ ['"', '\\', '\r', '\n'], d ≠ mark := by
    intro mark hmark e
    have hc := h d hd
    rw [e, hmarks mark hmark] at hc
    cases hc
  exact ⟨hne _ (by decide), hne _ (by decide), hne _ (by decide), hne _ (by decide)⟩

/-- No reserved word starts like the names of the methods that log. -/
theorem isOrdinary_of_log {text : String} (h : IsWord text) (hlog : "log_".toList <+: text.toList) :
    IsOrdinary text := by
  obtain ⟨tail, e⟩ := hlog
  have hchars : text.toList = 'l' :: ("og_".toList ++ tail) := e.symm
  have hwords : ∀ word ∈ reservedWords, ¬ "log_".toList <+: word.toList := by decide
  constructor
  · unfold spellsWord
    rw [hchars]
    have hall := List.all_eq_true.mpr h
    rw [hchars, List.all_cons, Bool.and_eq_true] at hall
    exact (Bool.and_eq_true _ _).mpr ⟨by decide, hall.2⟩
  · exact fun hmem => hwords _ hmem ⟨tail, e⟩

/-- The method an augmentation becomes. -/
def methodText (owner : String) (a : Augmentation) : MethodText := ⟨methodName a, logLine owner a⟩

/-- **What is asked for words becomes a method that can be read.** -/
theorem isPlain_methodText {owner : String} (howner : IsWord owner) {a : Augmentation}
    (ha : ∀ name ∈ a.memberName?, IsWord name) : (methodText owner a).IsPlain := by
  have hline : ∀ {first second word : String}, IsLine first → IsLine second → IsWord word →
      IsLine (first ++ word ++ second) := fun h h' hw => (h.append (isLine_of_isWord hw)).append h'
  have hident : IsWord (methodName a) ∧ "log_".toList <+: (methodName a).toList := by
    cases a with
    | declaration => decide
    | member name role =>
      have hname : IsWord name := ha name rfl
      cases role <;> unfold methodName <;> rw [String.toList_append] <;>
        exact ⟨IsWord.append (by decide) hname,
          List.IsPrefix.trans (by decide) (List.prefix_append _ _)⟩
  refine ⟨isOrdinary_of_log hident.1 hident.2, ?_⟩
  cases a with
  | declaration => exact hline (by decide) (by decide) howner
  | member name role => cases role <;> exact hline (by decide) (by decide) (ha name rfl)

end Renderer

/-! ## 3. Artifacts of a run -/

/-- An artifact is the extension of an owner with the snippets of its targets. -/
theorem exists_targets_of_mem_emit {renderer : Renderer} {suffix : String} {targets : List Target}
    {a : Artifact} (h : a ∈ (emit renderer suffix targets).artifacts) :
    ∃ group : List Target, group ≠ [] ∧
      (∀ t ∈ group, t ∈ targets ∧ t.key = ⟨a.ownerNamespace, some a.ownerName⟩) ∧
      a.text = renderer.extension a.ownerNamespace a.ownerName
        (group.map fun t => renderer.snippet a.ownerName t.augmentation) := by
  rw [emit_artifacts] at h
  obtain ⟨k, hk, ha⟩ := List.mem_flatMap.mp h
  have houtcome := emitGroup_outcome renderer suffix k (targetsOf_ne_nil hk)
  refine ⟨targetsOf targets k, targetsOf_ne_nil hk, ?_⟩
  cases howner : k.owner with
  | none =>
    rw [(houtcome.unnamed howner).1] at ha
    cases ha
  | some owner =>
    by_cases hnames : (memberNames renderer owner (targetsOf targets k)).Nodup
    · rw [(houtcome.extended owner howner hnames).2, List.mem_singleton] at ha
      rw [ha]
      refine ⟨fun t ht => ?_, rfl⟩
      obtain ⟨hmem, hkey⟩ := List.mem_filter.mp ht
      refine ⟨hmem, (of_decide_eq_true hkey).trans ?_⟩
      cases k
      exact congrArg _ howner
    · rw [(houtcome.clashing owner howner hnames).1] at ha
      cases ha

namespace Generator

variable {g : Generator} {t : Tree} {model : SemanticModel}

/-- An artifact of a run is the extension of an owner with the snippets of findings about it. -/
theorem exists_targets_of_mem_artifacts (hr : g.registry.OnDeclarations) {a : Artifact}
    (h : a ∈ (g.run t model).artifacts) :
    ∃ group : List Target, group ≠ [] ∧
      (∀ target ∈ group, target ∈ (t.findings model g.registry).map (·.target) ∧
        target.key = ⟨a.ownerNamespace, some a.ownerName⟩) ∧
      a.text = g.renderer.extension a.ownerNamespace a.ownerName
        (group.map fun target => g.renderer.snippet a.ownerName target.augmentation) := by
  rw [g.artifacts_run t model hr] at h
  exact exists_targets_of_mem_emit h

/-- The members that a finding is about are named by words, in a tree whose nodes are. -/
theorem isWord_of_mem_findings (hr : g.registry.OnDeclarations) (ht : t.WordNamed) {f : Finding}
    (h : f ∈ t.findings model g.registry) :
    ∀ name ∈ f.target.augmentation.memberName?, IsWord name := by
  obtain ⟨i, -, hf⟩ := List.mem_filterMap.mp h
  obtain ⟨n, m, augmentation, hn, hm, hfits, hasked, hfound⟩ := exists_marker_of_finding hf
  have hkind : n.kind ≠ .sourceFile := by
    intro e
    have hmem : n.kind ∈ m.targets := List.contains_iff_mem.mp hfits
    exact (hr m (mem_markers_of_mem_markersOn hm)).1 (e ▸ hmem)
  rw [(exists_owner_of_findTarget hfound).1]
  intro name hname
  refine ht i n hn hkind name ?_
  unfold Marker.augmentation? at hasked
  split at hasked
  · rw [← Option.some.inj hasked] at hname
    cases hname
  · obtain ⟨other, hother, e⟩ := Option.map_eq_some_iff.mp hasked
    rw [← e] at hname
    cases hname
    exact hother

/-- The text of an artifact is one `impl` block, by the names that lead to its owner. -/
theorem exists_itemsOf_artifact (hr : g.registry.OnDeclarations)
    (hrenderer : g.renderer = .standard) (ht : t.WordNamed) {a : Artifact}
    (ha : a ∈ (g.run t model).artifacts) {names : List String}
    (hspace : a.ownerNamespace = PathText.join names) (hnames : ∀ n ∈ names, IsOrdinary n)
    (howner : IsOrdinary a.ownerName) :
    ∃ path line attributes members,
      itemsOf a.text = .ok [.impl (some path) line attributes members] ∧
      path.written = ⟨Renderer.ownerNames names a.ownerName, false⟩ := by
  obtain ⟨group, -, hgroup, htext⟩ := exists_targets_of_mem_artifacts hr ha
  have hplain : ∀ text ∈ group.map fun target =>
      Renderer.methodText a.ownerName target.augmentation, text.IsPlain := by
    intro text hmem
    obtain ⟨target, htarget, rfl⟩ := List.mem_map.mp hmem
    obtain ⟨f, hf, rfl⟩ := List.mem_map.mp (hgroup target htarget).1
    exact Renderer.isPlain_methodText howner.isWord_text (isWord_of_mem_findings hr ht hf)
  have hsnippets : (group.map fun target =>
      g.renderer.snippet a.ownerName target.augmentation).map (·.text) =
      (group.map fun target =>
        Renderer.methodText a.ownerName target.augmentation).map (·.text) := by
    rw [hrenderer, List.map_map, List.map_map]
    rfl
  obtain ⟨path, line, attributes, members, hitems, hwritten⟩ :=
    Renderer.itemsOf_extension hnames howner hsnippets hplain
  rw [← hrenderer, ← hspace, ← htext] at hitems
  exact ⟨path, line, attributes, members, hitems, hwritten⟩

/-- The owner of an artifact is a symbol that a node of the crate declares, without parameters. -/
theorem exists_symbol_of_mem_artifacts {c : LoweredCrate} (hr : g.registry.OnDeclarations)
    {a : Artifact} (ha : a ∈ (g.run c.tree c.model).artifacts) :
    ∃ i node s, c.tree.node? i = some node ∧ node.kind.isOwnerScope = true ∧
      c.model.declared? i = some s ∧ s.name = a.ownerName ∧
      s.container.path = a.ownerNamespace ∧ s.generic = false := by
  obtain ⟨group, hne, hgroup, -⟩ := exists_targets_of_mem_artifacts hr ha
  obtain ⟨target, htarget⟩ := List.exists_mem_of_ne_nil group hne
  obtain ⟨hfound, hkey⟩ := hgroup target htarget
  obtain ⟨f, hf, rfl⟩ := List.mem_map.mp hfound
  obtain ⟨i, -, hfinding⟩ := List.mem_filterMap.mp hf
  obtain ⟨n, m, augmentation, -, -, -, -, hfound⟩ := exists_marker_of_finding hfinding
  obtain ⟨hnamespace, hname⟩ := OwnerKey.mk.inj hkey
  obtain ⟨node, s, hnode, hscope, hs, hsname, hcontainer, hplain⟩ :=
    LoweredCrate.exists_symbol_of_findTarget hfound hname
  exact ⟨f.owner, node, s, hnode, hscope, hs, hsname, hcontainer.trans hnamespace, hplain⟩

/-- The path of the owner of an artifact denotes itself, in a well-formed crate and without an alias
    on the way. -/
theorem isFixed_owner {sources : SourceSet} {c : LoweredCrate} (hc : sources.lower = .ok c)
    (hx : c.scopes.WellFormed)
    (habsolute : ∀ p ∈ c.scopes.linkPaths ++ c.scopes.implTargets.values,
      p.leadingColon = true → p.segments.head? ≠ some crateWord)
    (hr : g.registry.OnDeclarations) {a : Artifact} (ha : a ∈ (g.run c.tree c.model).artifacts)
    {names : List String} (hspace : a.ownerNamespace = PathText.join names)
    (hnames : ∀ n ∈ names, PathText.IsName n)
    (hno : c.scopes.NoAlias (names ++ [a.ownerName])) :
    c.scopes.IsFixed (names ++ [a.ownerName]) := by
  obtain ⟨i, node, s, hnode, hscope, hs, hsname, hcontainer, -⟩ :=
    exists_symbol_of_mem_artifacts hr ha
  obtain ⟨names', hnames', hjoin, hfixed⟩ :=
    SourceSet.isFixed_symbol hc hx habsolute hnode hscope hs
  have hsame : names' = names := by
    rw [← PathText.segments_join hnames', ← hjoin, hcontainer, hspace,
      PathText.segments_join hnames]
  rw [hsame, hsname] at hfixed
  exact hfixed hno

/-- **The text of an artifact is one `impl` block of its owner**, whose names are ordinary words: it
    can be read as such, and its self type resolves to the owner at the root of the crate, if the
    crate is well-formed, no path that starts at the root of all crates spells the word for the
    crate, and there is no alias on the way to the owner. -/
theorem itemsOf_artifact {sources : SourceSet} {c : LoweredCrate} (hc : sources.lower = .ok c)
    (hregistry : g.registry = .standard) (hrenderer : g.renderer = .standard) {a : Artifact}
    (ha : a ∈ (g.run c.tree c.model).artifacts) {names : List String}
    (hspace : a.ownerNamespace = PathText.join names) (hnames : ∀ n ∈ names, IsOrdinary n)
    (howner : IsOrdinary a.ownerName) :
    ∃ path line attributes members,
      itemsOf a.text = .ok [.impl (some path) line attributes members] ∧
      (c.scopes.WellFormed →
        (∀ p ∈ c.scopes.linkPaths ++ c.scopes.implTargets.values,
          p.leadingColon = true → p.segments.head? ≠ some crateWord) →
        c.scopes.NoAlias (names ++ [a.ownerName]) →
        c.scopes.resolve "" path.written = some (itemPath a.ownerNamespace a.ownerName)) := by
  have hr : g.registry.OnDeclarations := hregistry ▸ Registry.onDeclarations_standard
  obtain ⟨path, line, attributes, members, hitems, hwritten⟩ :=
    exists_itemsOf_artifact hr hrenderer (SourceSet.wordNamed_lower hc) ha hspace hnames howner
  refine ⟨path, line, attributes, members, hitems, fun hx habsolute hno => ?_⟩
  have hfixed := isFixed_owner hc hx habsolute hr ha hspace (fun n hn => (hnames n hn).isName) hno
  rw [hwritten, hspace]
  exact hfixed.resolve_ownerNames hnames howner

end Generator

/-! ## 4. A marked struct -/

/-- The marker of types, written in full. -/
def classMarker : WrittenPath := ⟨["autolog", "auto_log_class"], false⟩

/-- The name and the attribute of a struct without parameters and fields, where nothing else is
    there. -/
def onlyStruct? : List Item → Option (String × WrittenPath)
  | [.struct name false [.plain marker] []] => some (name.text, marker.written)
  | _ => none

/-- The scopes of a crate that declares one struct. -/
def structScopes (name : String) : ScopeIndex where
  modules := .ofList [("", { items := .ofList [(name, .nominal)] })]
  nodeModules := .ofList [(0, ""), (1, "")]

/-- The node of a marked struct. -/
def structNode (name : String) (line : Nat) : Node :=
  ⟨.struct, some name, some 0, [classMarker], some ⟨"src/lib.rs", line⟩⟩

/-- A crate that is one marked struct. -/
structure LoweredCrate.IsStruct (c : LoweredCrate) (name : String) (line : Nat) : Prop where
  scopes : c.scopes = structScopes name
  nodes : c.tree.nodes.toList = [⟨.sourceFile, none, none, [], none⟩, structNode name line]

theorem parse_oneFile {text : String} {items : List Item} (h : itemsOf text = .ok items) :
    (oneFile text).parse = .ok [⟨"", "src/lib.rs", items⟩] := by
  have hparse : SourceFile.parse ⟨"src/lib.rs", text⟩ "" = .ok ⟨"", "src/lib.rs", items⟩ := by
    rw [SourceFile.parse, h]
  have hentries : (oneFile text).entries = [("", ⟨"src/lib.rs", text⟩)] := rfl
  rw [SourceSet.parse, hentries, List.mapM_cons]
  dsimp only
  rw [hparse]
  rfl

theorem lower_oneFile {text : String} {items : List Item} (h : itemsOf text = .ok items) :
    (oneFile text).lower = .ok (lowerFiles [⟨"", "src/lib.rs", items⟩]) := by
  rw [SourceSet.lower, parse_oneFile h]
  rfl

/-- Items that have been looked at have been read. -/
theorem exists_items_of_bind {text : String} {β : Type} {look : List Item → Option β} {seen : β}
    (h : (itemsOf text).toOption.bind look = some seen) :
    ∃ items, itemsOf text = .ok items ∧ look items = some seen := by
  obtain ⟨items, hitems, hlook⟩ := Option.bind_eq_some_iff.mp h
  cases hread : itemsOf text with
  | error line =>
    rw [hread] at hitems
    cases hitems
  | ok items' =>
    rw [hread] at hitems
    cases hitems
    exact ⟨items, rfl, hlook⟩

/-- The attributes of an item with the marker of types. -/
theorem attributePaths_classMarker {marker : SourcePath} (h : marker.written = classMarker) :
    attributePaths [.plain marker] = [classMarker] := by
  simp [attributePaths, Attribute.paths, h]

/-- A file with a marked struct is such a crate. -/
theorem exists_isStruct {text name : String}
    (h : (itemsOf text).toOption.bind onlyStruct? = some (name, classMarker)) :
    ∃ c line, (oneFile text).lower = .ok c ∧ c.IsStruct name line := by
  obtain ⟨items, hok, hstruct⟩ := exists_items_of_bind h
  unfold onlyStruct? at hstruct
  split at hstruct
  · rename_i ident marker
    obtain ⟨rfl, hmarker⟩ := Prod.mk.inj (Option.some.inj hstruct)
    refine ⟨_, ident.line, lower_oneFile hok, rfl, ?_⟩
    unfold structNode
    rw [← attributePaths_classMarker hmarker]
    rfl
  · cases hstruct

/-- Nothing in the crate has the name of the crate the marker is from. -/
theorem resolve_classMarker {name : String} (hname : name ≠ "autolog") :
    (structScopes name).resolve "" classMarker = some ["autolog", "auto_log_class"] := by
  have hscope : (structScopes name).scope? "" = some { items := .ofList [(name, .nominal)] } := rfl
  have hitem : (structScopes name).item? "" "autolog" = none := by
    rw [ScopeIndex.item?, hscope, Option.bind_some]
    show List.lookup "autolog" [(name, ItemKind.nominal)] = none
    rw [Table.lookup_cons_eq_ite, if_neg (Ne.symm hname)]
    rfl
  refine ScopeIndex.resolve_eq_self _ (by decide) (by decide) (by decide) (by simp) hitem rfl rfl ?_
  intro s hs
  cases hscope.symm.trans hs
  rfl

theorem wellFormed_structScopes {name : String} (hname : IsPlain name) :
    (structScopes name).WellFormed where
  root := List.mem_singleton_self _
  declared module hm hne := absurd (List.mem_singleton.mp hm) hne
  plain key hkey := by
    rw [List.mem_singleton.mp hkey]
    exact hname

theorem linkPaths_structScopes (name : String) : (structScopes name).linkPaths = [] := rfl

/-- Without links there are no aliases. -/
theorem noAlias_structScopes (name : String) (names : List String) :
    (structScopes name).NoAlias names := by
  intro before other after _ target h
  have hmem := ScopeIndex.alias_mem_linkPaths h
  rw [linkPaths_structScopes] at hmem
  cases hmem

/-- What is to be generated for a marked struct. -/
def LoweredCrate.IsStruct.target (name : String) (line : Nat) : Target :=
  ⟨some name, "", .declaration, ⟨"autolog::auto_log_class"⟩, some ⟨"src/lib.rs", line⟩⟩

/-- **The marker on a struct counts** where its path denotes itself, and asks for the struct to be
    extended, unless that has parameters. -/
theorem finding_markedStruct {x : ScopeIndex} {t : Tree} {i : NodeId} {name : String} {line : Nat}
    (hn : t.node? i = some (structNode name line)) (hmodule : x.moduleOf i = "")
    (hresolved : x.resolve "" classMarker = some ["autolog", "auto_log_class"]) :
    (resolve t (x.model t) .standard i).finding =
      if x.isGeneric (itemPath "" name) then none
      else some ⟨i, LoweredCrate.IsStruct.target name line⟩ := by
  have hattribute : (x.model t).attribute? i 0 = some ⟨"autolog::auto_log_class"⟩ := by
    rw [x.attribute?_of_node hn rfl, ScopeIndex.attributeSymbol?, hmodule, hresolved]
    decide
  have hmarked : MarkedBy t (x.model t) .standard i (structNode name line)
      ⟨⟨"autolog::auto_log_class"⟩, .declaration, [.struct, .enum, .union]⟩ .declaration :=
    markedBy_of_single hn rfl hattribute (by decide) rfl rfl
  have howner : t.owner? i = some (i, structNode name line) := by
    rw [Tree.owner?, hn]
    rfl
  have hdeclared : (x.model t).declared? i = some (x.declaredIn "" name) := by
    rw [x.declared?_type hn rfl, hmodule]
    rfl
  exact finding_of_markedBy hmarked howner hdeclared

namespace LoweredCrate.IsStruct

variable {c : LoweredCrate} {name : String} {line : Nat}

theorem node? (h : c.IsStruct name line) (i : NodeId) :
    c.tree.node? i = [⟨.sourceFile, none, none, [], none⟩, structNode name line][i]? := by
  rw [Tree.node?, ← Array.getElem?_toList, h.nodes]

/-- The marker counts, and asks for the struct to be extended. -/
theorem finding (h : c.IsStruct name line) (hname : name ≠ "autolog") :
    (resolve c.tree c.model .standard 1).finding = some ⟨1, target name line⟩ := by
  have hnode : c.tree.node? 1 = some (structNode name line) := h.node? 1
  have hmodule : c.scopes.moduleOf 1 = "" := by
    rw [h.scopes]
    rfl
  have hresolved : c.scopes.resolve "" classMarker = some ["autolog", "auto_log_class"] := by
    rw [h.scopes, resolve_classMarker hname]
  have hplain : c.scopes.isGeneric (itemPath "" name) = false := by
    rw [h.scopes]
    rfl
  exact (finding_markedStruct hnode hmodule hresolved).trans (if_neg (by simp [hplain]))

/-- **The run on a marked struct extends this struct.** -/
theorem artifacts (h : c.IsStruct name line) (hname : name ≠ "autolog") (g : Generator)
    (hregistry : g.registry = .standard) :
    (g.run c.tree c.model).artifacts =
      [.ofOwner "" name g.settings.artifactSuffix
        (g.renderer.extension "" name [g.renderer.snippet name .declaration])] := by
  have hids : c.tree.ids = [0, 1] := by
    rw [Tree.ids, Tree.size, ← Array.length_toList, h.nodes]
    rfl
  have hfile : resolve c.tree c.model .standard 0 = {} := by
    rw [resolve, h.node?]
    rfl
  have hfindings : c.tree.findings c.model .standard = [⟨1, target name line⟩] := by
    rw [Tree.findings, hids]
    simp [hfile, h.finding hname]
  have hdeclarations : g.registry.OnDeclarations := by
    rw [hregistry]
    exact Registry.onDeclarations_standard
  rw [g.artifacts_run c.tree c.model hdeclarations, hregistry, hfindings]
  simp [emit, groups, ownerKeys, OwnerKey.insert, emitGroup, Target.key, collisions, target]

end LoweredCrate.IsStruct

/-- A marked struct. -/
def markedSources : SourceSet := oneFile "#[autolog::auto_log_class]\npub struct Widget;\n"

theorem exists_isStruct_markedSources :
    ∃ c line, markedSources.lower = .ok c ∧ c.IsStruct "Widget" line :=
  exists_isStruct (by decide +kernel :
    (itemsOf "#[autolog::auto_log_class]\npub struct Widget;\n").toOption.bind onlyStruct? =
      some ("Widget", classMarker))

/-- Its extension is an `impl` block of it. -/
theorem itemsOf_artifact_markedSources :
    ∃ c a path line attributes members, markedSources.lower = .ok c ∧
      a ∈ (Generator.standard.run c.tree c.model).artifacts ∧ a.ownerName = "Widget" ∧
      itemsOf a.text = .ok [.impl (some path) line attributes members] ∧
      c.scopes.resolve "" path.written = some ["crate", "Widget"] := by
  obtain ⟨c, line, hc, hstruct⟩ := exists_isStruct_markedSources
  let a : Artifact := .ofOwner "" "Widget" ".autolog.g.rs" (Renderer.standard.extension "" "Widget"
    [Renderer.standard.snippet "Widget" .declaration])
  have ha : a ∈ (Generator.standard.run c.tree c.model).artifacts := by
    rw [hstruct.artifacts (by decide) .standard rfl]
    exact List.mem_singleton_self _
  obtain ⟨path, l, attributes, members, hitems, hresolved⟩ :=
    Generator.itemsOf_artifact (g := .standard) hc rfl rfl ha rfl
      (show ∀ n ∈ ([] : List String), IsOrdinary n by simp) ⟨by decide, by decide⟩
  refine ⟨c, a, path, l, attributes, members, hc, ha, rfl, hitems, hresolved ?_ ?_ ?_⟩
  · rw [hstruct.scopes]
    exact wellFormed_structScopes ⟨by decide, by decide, by decide, by decide⟩
  · rw [hstruct.scopes]
    decide
  · rw [hstruct.scopes]
    exact noAlias_structScopes "Widget" _

/-- A marked struct whose name is a reserved word, written raw. -/
def rawSources : SourceSet := oneFile "#[autolog::auto_log_class]\npub struct r#fn;\n"

/-- **Its extension cannot be read**: the name stands there without its mark. -/
theorem itemsOf_artifact_rawSources :
    ∃ c a, rawSources.lower = .ok c ∧
      a ∈ (Generator.standard.run c.tree c.model).artifacts ∧ a.ownerName = "fn" ∧
      ∀ items, itemsOf a.text ≠ .ok items := by
  obtain ⟨c, line, hc, hstruct⟩ := exists_isStruct (by decide +kernel :
    (itemsOf "#[autolog::auto_log_class]\npub struct r#fn;\n").toOption.bind onlyStruct? =
      some ("fn", classMarker))
  let a : Artifact := .ofOwner "" "fn" ".autolog.g.rs" (Renderer.standard.extension "" "fn"
    [Renderer.standard.snippet "fn" .declaration])
  have ha : a ∈ (Generator.standard.run c.tree c.model).artifacts := by
    rw [hstruct.artifacts (by decide) .standard rfl]
    exact List.mem_singleton_self _
  refine ⟨c, a, hc, ha, rfl, fun items e => ?_⟩
  have hfails : (itemsOf a.text).toOption.isSome = false := by decide +kernel
  rw [e] at hfails
  cases hfails

end LogMarkers
