import LogMarkers.Proofs.Crate.Generics
import LogMarkers.Proofs.Run.GeneratedCode

/-!
# Types with parameters are never extended

A type with type or const parameters is noted by its canonical path when it is declared. What the
owner of a finding declares is looked up there by the path of the type where it stands, or by the
path that the self type of an `impl` block resolves to, and an artifact is named by module and name
again. These are three spellings of one path, for modules of any depth.

* `ScopeIndex.LinksNamed.resultClosed_nonempty`: no name in a path that resolution makes is empty;
* `ScopeIndex.canonicalText_join`, `ScopeIndex.itemPath_eq_of_canonicalText`: the text of an owner
  is that of its path, for `impl` blocks and for types;
* `Generator.generic_type_never_extended`: no artifact is for a type with parameters;
* `findings_structPair`: of two marked structs those without parameters are found.
-/

namespace LogMarkers

open Source

/-- The canonical path of an owner, as it is written. -/
def canonicalText (space owner : String) : String :=
  PathText.within crateWord (qualifiedOwner space owner)

namespace ScopeIndex

variable {x : ScopeIndex}

/-! ## 1. Paths without empty names -/

/-- A path that is not empty, and has no empty name if it is one of the crate. -/
def NoEmptyName (path : List String) : Prop :=
  path ≠ [] ∧ ∀ names, path = crateWord :: names → ∀ n ∈ names, n ≠ ""

theorem noEmptyName_itemPath {module name : String} (h : name ≠ "") :
    NoEmptyName (itemPath module name) := by
  refine ⟨List.cons_ne_nil _ _, fun names e n hn => ?_⟩
  obtain ⟨-, rfl⟩ := List.cons.inj e
  rcases List.mem_append.mp hn with hn | hn
  · exact of_decide_eq_true (List.mem_filter.mp hn).2
  · exact List.mem_singleton.mp hn ▸ h

theorem noEmptyName_of_named {path : List String} (hne : path ≠ [])
    (h : ∀ n ∈ path, PathText.IsName n) : NoEmptyName path := by
  refine ⟨hne, fun names e n hn => (h n ?_).1⟩
  rw [e]
  exact List.mem_cons_of_mem _ hn

/-- **Every step of resolution makes paths without empty names**, where everything that is declared
    and imported is made of names. -/
theorem LinksNamed.resultClosed_nonempty (hx : x.LinksNamed) :
    x.ResultClosed PathText.IsName (fun _ => True) NoEmptyName where
  linked _ hp := hx.named_of_follows hp
  known _ _ := trivial
  root := trivial
  parent _ _ _ _ := trivial
  enter _ _ _ _ _ := trivial
  absolute _ hp _ hne := noEmptyName_of_named hne (hx.named_of_follows hp)
  external _ _ _ hc _ _ := ⟨List.cons_ne_nil _ _, fun _ e => absurd (List.cons.inj e).1 hc⟩
  inside module _ := by
    refine ⟨List.cons_ne_nil _ _, fun names e n hn => ?_⟩
    obtain ⟨-, rfl⟩ := List.cons.inj e
    exact of_decide_eq_true (List.mem_filter.mp hn).2
  item _ _ _ hi _ := noEmptyName_itemPath (hx.isName_item hi).1
  unresolved _ _ _ _ hi _ := noEmptyName_itemPath (hx.isName_item hi).1
  child _ _ hn _ _ _ _ _ := noEmptyName_itemPath hn.1
  extend base rest hbase hrest hnames _ := by
    refine ⟨List.append_ne_nil_of_right_ne_nil _ hrest, fun names e n hn => ?_⟩
    obtain ⟨first, tail, rfl⟩ := List.exists_cons_of_ne_nil hbase.1
    obtain ⟨rfl, rfl⟩ := List.cons.inj e
    rcases List.mem_append.mp hn with hn | hn
    · exact hbase.2 tail rfl n hn
    · exact (hnames n hn).1

/-- What the self type of an `impl` block resolves to has no empty names. -/
theorem LinksNamed.noEmptyName_of_selfType (hx : x.LinksNamed) {i : NodeId} {target : WrittenPath}
    (htarget : x.implTargets.get? i = some target) {module : String} {path : List String}
    (h : x.resolve module target = some path) : NoEmptyName path :=
  (resolveWritten_closed hx.resultClosed_nonempty).1 module target false true [] trivial
    (hx.targets i target htarget)
    (fun _ hne => noEmptyName_of_named hne (hx.targets i target htarget)) path h

/-! ## 2. The text of an owner -/

/-- The text of an owner in a module that is joined from names is its joined path. -/
theorem canonicalText_join {names : List String} (h : ∀ n ∈ names, n ≠ "") (name : String) :
    canonicalText (PathText.join names) name = PathText.join (crateWord :: (names ++ [name])) := by
  obtain ⟨second, rest, e⟩ := List.exists_cons_of_ne_nil (List.concat_ne_nil name names)
  rw [canonicalText, qualifiedOwner, PathText.within_join_of_nonempty h, e,
    PathText.join_cons_cons]
  rfl

/-- The path of a type, joined, is its text in the module that its names are joined to. -/
theorem join_itemPath (module name : String) :
    PathText.join (itemPath module name) =
      canonicalText (PathText.join (PathText.segments module)) name :=
  (canonicalText_join (fun _ hn => of_decide_eq_true (List.mem_filter.mp hn).2) name).symm

/-- **A declared name with the text of a path has this path.** -/
theorem itemPath_eq_of_canonicalText {module module' name name' : String}
    (hname : PathText.IsName name) (hname' : PathText.IsName name')
    (h : canonicalText module name = PathText.join (itemPath module' name')) :
    itemPath module name = itemPath module' name' := by
  have htext : crateWord ++ "::" ++ PathText.within module name = crateWord ++ "::" ++
      PathText.within (PathText.join (PathText.segments module')) name' :=
    h.trans (join_itemPath module' name')
  obtain ⟨hmodule, rfl⟩ := PathText.within_injective hname hname'
    ((String.append_right_inj _).mp htext)
  rw [itemPath, itemPath, modulePath, modulePath, hmodule, PathText.segments_join_segments]

end ScopeIndex

/-! ## 3. The owners of artifacts -/

/-- A symbol without parameters has the text of no path that is noted as that of a type with
    parameters: neither the symbol of a type nor that of an `impl` block. -/
theorem SourceSet.canonicalText_ne_of_declared? {sources : SourceSet} {c : LoweredCrate}
    (hc : sources.lower = .ok c) {i : NodeId} {n : Node} (hn : c.tree.node? i = some n)
    (hscope : n.kind.isOwnerScope = true) {s : DeclaredSymbol} (hs : c.model.declared? i = some s)
    (hplain : s.generic = false) {module name : String} (hname : PathText.IsName name)
    (hnoted : PathText.join (itemPath module name) ∈ c.scopes.genericTypes) :
    canonicalText s.container.path s.name ≠ PathText.join (itemPath module name) := by
  have hlinks := SourceSet.linksNamed_lower hc
  have hgeneric : ∀ path, PathText.join path ∈ c.scopes.genericTypes →
      c.scopes.isGeneric path = true := fun _ hmem => List.contains_iff_mem.mpr hmem
  intro e
  rcases Bool.or_eq_true_iff.mp hscope with htype | himpl
  · rw [LoweredCrate.declared?_type hn htype] at hs
    obtain ⟨own, hown, rfl⟩ := Option.map_eq_some_iff.mp hs
    obtain ⟨kind, hkind⟩ := Option.isSome_iff_exists.mp
      ((SourceSet.placed_lower hc).declared i n hn htype own hown)
    have hcontainer : (c.scopes.declaredIn (c.scopes.moduleOf i) own).container.path =
        c.scopes.moduleOf i := Namespace.path_ofPath _
    rw [hcontainer] at e
    have hsame := ScopeIndex.itemPath_eq_of_canonicalText (hlinks.isName_item hkind) hname e
    have hflag := hgeneric _ hnoted
    rw [← hsame] at hflag
    exact Bool.noConfusion (hflag.symm.trans hplain)
  · rw [LoweredCrate.declared?_impl hn (beq_iff_eq.mp himpl)] at hs
    obtain ⟨target, htarget, hs⟩ := Option.bind_eq_some_iff.mp hs
    obtain ⟨path, hpath, hsymbol⟩ := Option.bind_eq_some_iff.mp hs
    obtain ⟨names, rfl, hcontainer⟩ := ScopeIndex.exists_names_of_symbolAt? hsymbol
    have hnames : ∀ m ∈ names, m ≠ "" := fun m hm =>
      (hlinks.noEmptyName_of_selfType htarget hpath).2 _ rfl m (List.mem_append_left _ hm)
    rw [hcontainer, ScopeIndex.canonicalText_join hnames] at e
    have hflag := hgeneric _ (e ▸ hnoted)
    rw [ScopeIndex.symbolAt?_concat] at hsymbol
    have hsame := congrArg DeclaredSymbol.generic (Option.some.inj hsymbol)
    exact Bool.noConfusion (hflag.symm.trans (hsame.trans hplain))

namespace Generator

variable {g : Generator}

/-- **A type with parameters is never extended**: for every accepted source set and all accepted
    settings, with the markers there are by default, the canonical path of the owner of an artifact
    is not that of a struct, enum or union that is declared with type or const parameters, in
    whatever module of the crate, and whether the finding came from the type or from an `impl` block
    that leads to it. -/
theorem generic_type_never_extended {sources : SourceSet} {c : LoweredCrate}
    (hc : sources.lower = .ok c) (hregistry : g.registry = .standard) {a : Artifact}
    (ha : a ∈ (g.run c.tree c.model).artifacts) {module name : String}
    (hdeclared : sources.DeclaresGeneric module name) :
    canonicalText a.ownerNamespace a.ownerName ≠ PathText.join (itemPath module name) := by
  have hr : g.registry.OnDeclarations := hregistry ▸ Registry.onDeclarations_standard
  obtain ⟨i, node, s, hnode, hscope, hs, hname, hspace, hplain⟩ :=
    exists_symbol_of_mem_artifacts hr ha
  rw [← hname, ← hspace]
  exact SourceSet.canonicalText_ne_of_declared? hc hnode hscope hs hplain hdeclared.isName
    (SourceSet.mem_genericTypes_lower hc hdeclared)

end Generator

/-! ## 4. A marked type with a parameter -/

/-- The names and the attributes of two structs without fields, the first without parameters, and
    whether the second has some. -/
def structPair? : List Item → Option (List (String × WrittenPath) × Bool)
  | [.struct name false [.plain marker] [], .struct other generic [.plain marker'] []] =>
    some ([(name.text, marker.written), (other.text, marker'.written)], generic)
  | _ => none

/-- The tree of two marked structs. -/
def structPairTree (name other : String) (line line' : Nat) : Tree := Tree.build
  [ .openNode { kind := .sourceFile },
    .openNode { kind := .struct, name := some name, attributes := [classMarker],
                location := some ⟨"src/lib.rs", line⟩ },
    .close,
    .openNode { kind := .struct, name := some other, attributes := [classMarker],
                location := some ⟨"src/lib.rs", line'⟩ } ]

/-- Their scopes, where the second may have parameters. -/
def structPairScopes (name other : String) (generic : Bool) : ScopeIndex :=
  let x := ((((({} : ScopeIndex).addModule "").recordNode 0 "").declare "" name .nominal).recordNode
    1 "").declare "" other .nominal
  (if generic then x.recordGeneric "" other else x).recordNode 2 ""

/-- A file with two marked structs is such a crate. -/
theorem exists_structPair {text name other : String} {generic : Bool}
    (h : (itemsOf text).toOption.bind structPair? =
      some ([(name, classMarker), (other, classMarker)], generic)) :
    (generic = true → (oneFile text).DeclaresGeneric "" other) ∧
      ∃ line line', (oneFile text).lower =
        .ok ⟨structPairTree name other line line', structPairScopes name other generic⟩ := by
  obtain ⟨items, hok, hpair⟩ := exists_items_of_bind h
  unfold structPair? at hpair
  split at hpair
  · rename_i ident marker ident' generic' marker'
    simp only [Option.some.injEq, List.cons.injEq, Prod.mk.injEq, and_true] at hpair
    obtain ⟨⟨⟨rfl, hmarker⟩, rfl, hmarker'⟩, rfl⟩ := hpair
    refine ⟨?_, ident.line, ident'.line, ?_⟩
    · rintro rfl
      exact ⟨_, parse_oneFile hok, _, List.mem_singleton_self _,
        .here (i := .struct ident' true [.plain marker'] []) (by simp) rfl⟩
    · rw [lower_oneFile hok]
      simp only [lowerFiles, List.foldl_cons, List.foldl_nil, Lowering.file, Lowering.items,
        Lowering.item, Lowering.fields, Place.content, attributePaths_classMarker hmarker,
        attributePaths_classMarker hmarker']
      cases generic' <;> rfl
  · cases hpair

theorem scope?_structPairScopes (name other : String) (generic : Bool) :
    (structPairScopes name other generic).scope? "" =
      some { items := (({} : ModuleScope).items.insert name .nominal).insert other .nominal } := by
  have hdeclared : (structPairScopes name other generic).scope? "" =
      (((({} : ScopeIndex).addModule "").declare "" name .nominal).declare "" other
        .nominal).scope? "" := by
    cases generic <;> rfl
  have hnew : ({} : ScopeIndex).scope? "" = none := rfl
  rw [hdeclared]
  simp [ScopeIndex.declare, ScopeIndex.addModule, hnew]

/-- Nothing in the crate has the name of the crate the marker is from. -/
theorem resolve_classMarker_structPair {name other : String} (hname : name ≠ "autolog")
    (hother : other ≠ "autolog") (generic : Bool) :
    (structPairScopes name other generic).resolve "" classMarker =
      some ["autolog", "auto_log_class"] := by
  have hscope := scope?_structPairScopes name other generic
  refine ScopeIndex.resolve_eq_self _ (by decide) (by decide) (by decide) (by simp) ?_ ?_ ?_ ?_
  · rw [ScopeIndex.item?, hscope]
    simp [hname.symm, hother.symm]
  · rw [ScopeIndex.import?, hscope]
    rfl
  · cases generic <;> rfl
  · intro s hs
    cases hscope.symm.trans hs
    rfl

/-- **Of two marked structs those without parameters are found.** -/
theorem findings_structPair {name other : String} (hname : name ≠ "autolog")
    (hother : other ≠ "autolog") (generic : Bool) (line line' : Nat) :
    let x := structPairScopes name other generic
    let t := structPairTree name other line line'
    t.findings (x.model t) .standard =
      (if x.isGeneric (itemPath "" name) then []
        else [⟨1, LoweredCrate.IsStruct.target name line⟩]) ++
      if x.isGeneric (itemPath "" other) then []
        else [⟨2, LoweredCrate.IsStruct.target other line'⟩] := by
  intro x t
  have hresolved : x.resolve "" classMarker = some ["autolog", "auto_log_class"] :=
    resolve_classMarker_structPair hname hother generic
  have hmodule : x.moduleOf 1 = "" ∧ x.moduleOf 2 = "" := by
    cases generic <;> exact ⟨rfl, rfl⟩
  have hfile : resolve t (x.model t) .standard 0 = {} := rfl
  have hfirstNode : t.node? 1 = some (structNode name line) := rfl
  have hsecondNode : t.node? 2 = some (structNode other line') := rfl
  have hfirst := finding_markedStruct hfirstNode hmodule.1 hresolved
  have hsecond := finding_markedStruct hsecondNode hmodule.2 hresolved
  have hids : t.ids = [0, 1, 2] := rfl
  rw [Tree.findings, hids]
  simp only [List.filterMap_cons, List.filterMap_nil, hfile, hfirst, hsecond]
  cases x.isGeneric (itemPath "" name) <;> cases x.isGeneric (itemPath "" other) <;> rfl

/-- A marked struct, and another one with a parameter. -/
def holderText : String :=
  "#[autolog::auto_log_class] struct Widget; #[autolog::auto_log_class] struct Holder<T>;"

/-- Only the struct without parameters is extended. -/
theorem generic_type_never_extended_holderText :
    ∃ c, (oneFile holderText).lower = .ok c ∧ (oneFile holderText).DeclaresGeneric "" "Holder" ∧
      (Generator.standard.run c.tree c.model).artifacts.map (·.ownerName) = ["Widget"] ∧
      ∀ a ∈ (Generator.standard.run c.tree c.model).artifacts,
        canonicalText a.ownerNamespace a.ownerName ≠ "crate::Holder" := by
  obtain ⟨hgeneric, line, line', hc⟩ := exists_structPair (by decide +kernel :
    (itemsOf holderText).toOption.bind structPair? =
      some ([("Widget", classMarker), ("Holder", classMarker)], true))
  have hdeclared := hgeneric rfl
  have hpath : PathText.join (itemPath "" "Holder") = "crate::Holder" := by decide
  let c : LoweredCrate :=
    ⟨structPairTree "Widget" "Holder" line line', structPairScopes "Widget" "Holder" true⟩
  have hwidget : (structPairScopes "Widget" "Holder" true).isGeneric (itemPath "" "Widget") =
      false := by decide
  have hholder : (structPairScopes "Widget" "Holder" true).isGeneric (itemPath "" "Holder") =
      true := by decide
  have hfindings : c.tree.findings c.model .standard =
      [⟨1, LoweredCrate.IsStruct.target "Widget" line⟩] := by
    refine (findings_structPair (by decide) (by decide) true line line').trans ?_
    rw [hwidget, hholder]
    rfl
  refine ⟨c, hc, hdeclared, ?_, fun a ha => ?_⟩
  · have hartifacts :=
      Generator.standard.artifacts_run c.tree c.model Registry.onDeclarations_standard
    rw [show Generator.standard.registry = .standard from rfl, hfindings] at hartifacts
    rw [hartifacts]
    rfl
  · rw [← hpath]
    exact Generator.generic_type_never_extended hc rfl ha hdeclared

end LogMarkers
