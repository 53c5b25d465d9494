import LogMarkers.Proofs.Crate.Names
import LogMarkers.Proofs.Crate.Placement

/-!
# What the self type of an `impl` block stands for

The symbol of an `impl` block is the path its self type resolves to, if that is a path of the crate.
Most such paths are types that the crate declares. The others are of five kinds, which `Stray` lists;
`declared_nominal_iff` says that there are no more.

* `Origin`: how a path of the crate comes about. Every step of resolution makes paths of an origin
  (`resultClosed_hasOrigin`), where no path starts at the root of all crates and spells the word for
  the crate.
* `exists_names_of_symbolAt?`: the symbol with a path is its last name in the module of the others.
-/

namespace LogMarkers

namespace ScopeIndex

/-! ## 1. Where paths of the crate come from -/

/-- Names that spell a module, or a part of the path to one. -/
def LeadsToModule (x : ScopeIndex) (names : List String) : Prop :=
  ∃ more : List String, (∀ n ∈ more, PathText.IsName n) ∧
    x.isModule (PathText.join (names ++ more)) = true

/-- Names behind something that is no module. -/
def BehindNoModule (x : ScopeIndex) (names : List String) : Prop :=
  ∃ outer inner : List String, inner ≠ [] ∧ names = outer ++ inner ∧
    x.isModule (PathText.join outer) = false

/-- How names after the word for the crate come about. -/
inductive Origin (x : ScopeIndex) : List String → Prop where
  | module {names : List String} (h : x.LeadsToModule names) : Origin x names
  | item (module name : String) {kind : ItemKind} (hi : x.item? module name = some kind)
      (hk : ∀ target, kind ≠ .typeAlias target) : Origin x (PathText.segments module ++ [name])
  /-- An alias stands for itself where its path names nothing. -/
  | lost (module name : String) {target : WrittenPath} {guarded : Guard}
      (hi : x.item? module name = some (.typeAlias target))
      (h : x.resolveWritten module target false true guarded = none) :
      Origin x (PathText.segments module ++ [name])
  /-- Names behind something that is no module are taken as they are. -/
  | beyond {names : List String} (h : x.BehindNoModule names) : Origin x names

/-- A path that resolution makes: names of some origin, if it is a path of the crate below the
    root. -/
def HasOrigin (x : ScopeIndex) (path : List String) : Prop :=
  path ≠ [] ∧ ∀ names, path = crateWord :: names →
    (∀ n ∈ names, PathText.IsName n) ∧ (names ≠ [] → x.Origin names)

/-- A module that is entered: joined names, which lead to a module if it is not the root. -/
def Entered (x : ScopeIndex) (module : String) : Prop :=
  PathText.IsPath module ∧ (module ≠ "" → x.LeadsToModule (PathText.segments module))

variable {x : ScopeIndex}

theorem exists_names_of_localModule? {base : List String} {module : String}
    (h : localModule? base = some module) :
    ∃ names, base = crateWord :: names ∧ module = PathText.join names := by
  cases base with
  | nil => cases h
  | cons first names =>
    by_cases e : first = crateWord
    · rw [e, localModule?_crate] at h
      cases h
      exact ⟨names, e ▸ rfl, rfl⟩
    · simp [localModule?, e] at h

theorem leadsToModule_of_isModule {module : String} (hp : PathText.IsPath module)
    (hm : x.isModule module = true) : x.LeadsToModule (PathText.segments module) :=
  ⟨[], by simp, by rw [List.append_nil, hp.join_segments, hm]⟩

theorem Entered.of_isModule {module : String} (hp : PathText.IsPath module)
    (hm : x.isModule module = true) : x.Entered module :=
  ⟨hp, fun _ => leadsToModule_of_isModule hp hm⟩

/-- The module around an entered module leads to the same module. -/
theorem Entered.parent {module parent : String} (h : x.Entered module)
    (hp : parentModule? module = some parent) : x.Entered parent := by
  obtain ⟨⟨names, hnames, rfl⟩, hleads⟩ := h
  rcases List.eq_nil_or_concat names with rfl | ⟨before, last, rfl⟩
  · cases hp
  rw [List.concat_eq_append] at hnames hleads hp
  have hlast : PathText.IsName last := hnames last (by simp)
  have hbefore : ∀ n ∈ before, PathText.IsName n := fun n hn => hnames n (by simp [hn])
  rw [← PathText.within_join hbefore, parentModule?_within _ hlast] at hp
  cases hp
  obtain ⟨more, hmore, hm⟩ := hleads (PathText.join_ne_empty (by simp) hnames)
  rw [PathText.segments_join hnames, List.append_assoc] at hm
  refine ⟨⟨before, hbefore, rfl⟩, fun _ => ⟨last :: more, ?_, ?_⟩⟩
  · intro n hn
    rcases List.mem_cons.mp hn with rfl | hn
    · exact hlast
    · exact hmore n hn
  · rw [PathText.segments_join hbefore]
    exact hm

/-- A path of the crate has an origin, if its names are names and have one. -/
theorem hasOrigin_crate {names : List String} (hnames : ∀ n ∈ names, PathText.IsName n)
    (h : names ≠ [] → x.Origin names) : x.HasOrigin (crateWord :: names) :=
  ⟨List.cons_ne_nil _ _, fun _ e => (List.cons.inj e).2 ▸ ⟨hnames, h⟩⟩

theorem hasOrigin_itemPath {module name : String} (hp : PathText.IsPath module)
    (hn : PathText.IsName name) (h : x.Origin (PathText.segments module ++ [name])) :
    x.HasOrigin (itemPath module name) :=
  hasOrigin_crate (PathText.isName_of_mem_append hp.isName_of_mem (by simpa using hn)) fun _ => h

namespace Named

variable (hx : x.Named)

include hx

/-- **Every step of resolution makes paths of an origin.** -/
theorem resultClosed_hasOrigin
    (hlinks : ∀ p ∈ x.linkPaths, p.leadingColon = true → p.segments.head? ≠ some crateWord) :
    x.ResultClosed PathText.IsName x.Entered x.HasOrigin where
  linked _ hp := hx.linksNamed.named_of_follows hp
  known _ hm := .of_isModule (hx.isPath hm) (isModule_of_mem hm)
  root := ⟨PathText.isPath_empty, fun h => absurd rfl h⟩
  parent _ _ hm hp := hm.parent hp
  enter base module hbase hl hm := by
    obtain ⟨names, rfl, rfl⟩ := exists_names_of_localModule? hl
    exact .of_isModule ⟨names, (hbase.2 names rfl).1, rfl⟩ hm
  absolute p hp hl hne :=
    ⟨hne, fun _ e => absurd (by rw [e]; rfl) (hlinks p hp.mem_linkPaths hl)⟩
  external _ _ _ hc _ _ := ⟨List.cons_ne_nil _ _, fun _ e => absurd (List.cons.inj e).1 hc⟩
  inside module hm := by
    refine hasOrigin_crate hm.1.isName_of_mem fun hne => .module (hm.2 fun e => ?_)
    rw [e] at hne
    exact hne rfl
  item module name _ hi hk :=
    hasOrigin_itemPath (hx.isPath (mem_keys_of_item? hi)) (hx.linksNamed.isName_item hi)
      (.item module name hi hk)
  unresolved module name _ _ hi h :=
    hasOrigin_itemPath (hx.isPath (mem_keys_of_item? hi)) (hx.linksNamed.isName_item hi)
      (.lost module name hi h)
  child module name hn _ _ _ _ hchild := by
    obtain ⟨s, hs⟩ := Option.isSome_iff_exists.mp hchild
    have hinner : PathText.IsPath (PathText.within module name) :=
      hx.isPath (mem_keys_of_scope? hs)
    have hp := PathText.isPath_of_isPath_within hn hinner
    refine hasOrigin_itemPath hp hn (.module ?_)
    have hsegments : PathText.segments (PathText.within module name) =
        PathText.segments module ++ [name] := by
      rw [← hp.join_segments]
      exact PathText.segments_within hp.isName_of_mem hn
    rw [← hsegments]
    exact leadsToModule_of_isModule hinner (isModule_of_mem (mem_keys_of_scope? hs))
  extend base rest hbase hrest hnames hno := by
    refine ⟨List.append_ne_nil_of_right_ne_nil _ hrest, fun names e => ?_⟩
    obtain ⟨first, tail, rfl⟩ := List.exists_cons_of_ne_nil hbase.1
    obtain ⟨rfl, rfl⟩ := List.cons.inj e
    exact ⟨PathText.isName_of_mem_append (hbase.2 tail rfl).1 hnames,
      fun _ => .beyond ⟨tail, rest, hrest, rfl, hno _ (localModule?_crate tail)⟩⟩

end Named

/-! ## 2. Symbols that are no types -/

/-- The ways in which a name in a module is made a symbol although the module declares no type of
    this name. -/
inductive Stray (x : ScopeIndex) (module name : String) : Prop where
  | value (h : x.item? module name = some .value)
  | submodule (h : x.item? module name = some .submodule)
  /-- An alias whose path names nothing. -/
  | lostAlias (target : WrittenPath) (guarded : Guard)
      (hi : x.item? module name = some (.typeAlias target))
      (h : x.resolveWritten module target false true guarded = none)
  /-- A module, or a part of the path to one, that is written as a type. -/
  | module (hno : x.item? module name ≠ some .nominal)
      (h : x.LeadsToModule (PathText.segments module ++ [name]))
  /-- A name behind something that is no module, like a variant behind its enum. -/
  | beyond (hno : x.item? module name ≠ some .nominal)
      (h : x.BehindNoModule (PathText.segments module ++ [name]))

/-- The symbol with a path below the root: its last name in the module of the others. -/
theorem symbolAt?_concat (x : ScopeIndex) (names : List String) (name : String) :
    x.symbolAt? (crateWord :: (names ++ [name])) =
      some ⟨name, .ofPath (PathText.join names), x.isGeneric (crateWord :: (names ++ [name]))⟩ := by
  obtain ⟨first, rest, e⟩ := List.exists_cons_of_ne_nil (List.concat_ne_nil name names)
  have hlast : (first :: rest).getLast (List.cons_ne_nil _ _) = name := by
    simp only [← e, List.getLast_concat]
  have hinit : (first :: rest).dropLast = names := by
    rw [← e, List.dropLast_concat]
  unfold symbolAt?
  rw [e]
  simp only [if_pos, hlast, hinit]

/-- The symbol with a path is the last of its names, in the module that the others spell. -/
theorem exists_names_of_symbolAt? {path : List String} {s : DeclaredSymbol}
    (h : x.symbolAt? path = some s) :
    ∃ names, path = crateWord :: (names ++ [s.name]) ∧ s.container.path = PathText.join names := by
  unfold symbolAt? at h
  split at h
  · rename_i first second rest
    split at h
    · rename_i e
      cases h
      refine ⟨(second :: rest).dropLast, ?_, Namespace.path_ofPath _⟩
      rw [List.dropLast_concat_getLast, e]
    · cases h
  · cases h

/-- **A name with an origin is a declared type or a stray one.** -/
theorem Origin.nominal_or_stray (hx : x.Named) {names : List String} {name : String}
    (hnames : ∀ n ∈ names, PathText.IsName n) (h : x.Origin (names ++ [name])) :
    x.item? (PathText.join names) name = some .nominal ∨
      x.Stray (PathText.join names) name := by
  by_cases hno : x.item? (PathText.join names) name = some .nominal
  · exact .inl hno
  right
  have hsegments := PathText.segments_join hnames
  -- an item stands in the module of the names before it
  have hitem : ∀ {module other : String} {kind : ItemKind}, x.item? module other = some kind →
      names ++ [name] = PathText.segments module ++ [other] →
      x.item? (PathText.join names) name = some kind := by
    intro module other kind hi e
    obtain ⟨rfl, rfl⟩ := List.append_inj' e rfl |>.imp_right fun e => (List.cons.inj e).1
    rw [(hx.isPath (mem_keys_of_item? hi)).join_segments]
    exact hi
  generalize hall : names ++ [name] = all at h
  cases h with
  | module h => exact .module hno (by rw [hsegments, hall]; exact h)
  | @item module other kind hi hk =>
    have hi' := hitem hi hall
    cases kind with
    | submodule => exact .submodule hi'
    | nominal => exact absurd hi' hno
    | typeAlias target => exact absurd rfl (hk target)
    | value => exact .value hi'
  | @lost module other target guarded hi h =>
    have hi' := hitem hi hall
    have hmodule : module = PathText.join names := by
      rw [(List.append_inj' hall rfl).1, (hx.isPath (mem_keys_of_item? hi)).join_segments]
    exact .lostAlias target guarded hi' (hmodule ▸ h)
  | beyond h => exact .beyond hno (by rw [hsegments, hall]; exact h)

/-- The symbol of an `impl` block is that of the path its self type resolves to. -/
theorem declared?_impl (x : ScopeIndex) {t : Tree} {i : NodeId} {n : Node}
    (hn : t.node? i = some n) (hk : n.kind = .impl) :
    (x.model t).declared? i = (x.implTargets.get? i).bind fun target =>
      (x.resolve (x.moduleOf i) target).bind x.symbolAt? := by
  have hmodel : (x.model t).declared? i = (t.node? i).bind (x.nodeSymbol? i) := rfl
  rw [hmodel, hn, Option.bind_some, nodeSymbol?, hk]
  rfl

end ScopeIndex

theorem LoweredCrate.declared?_impl {c : LoweredCrate} {i : NodeId} {n : Node}
    (hn : c.tree.node? i = some n) (hk : n.kind = .impl) :
    c.model.declared? i = (c.scopes.implTargets.get? i).bind fun target =>
      (c.scopes.resolve (c.scopes.moduleOf i) target).bind c.scopes.symbolAt? :=
  c.scopes.declared?_impl hn hk

/-- What the self type of a node resolves to has an origin. -/
theorem ScopeIndex.Named.hasOrigin_of_selfType {x : ScopeIndex} (hx : x.Named) {t : Tree}
    (hplaced : Lowering.Placed x t)
    (habsolute : ∀ p ∈ x.linkPaths ++ x.implTargets.values,
      p.leadingColon = true → p.segments.head? ≠ some crateWord)
    {i : NodeId} {target : WrittenPath} (ht : x.implTargets.get? i = some target)
    {path : List String} (h : x.resolve (x.moduleOf i) target = some path) :
    x.HasOrigin path := by
  have hclosed := hx.resultClosed_hasOrigin fun p hp =>
    habsolute p (List.mem_append_left _ hp)
  have hentered : x.Entered (x.moduleOf i) := by
    unfold moduleOf
    cases hm : x.nodeModules.get? i with
    | none => exact hclosed.root
    | some module => exact hclosed.known module (hplaced.known i module hm)
  have hmem : target ∈ x.implTargets.values :=
    List.mem_map.mpr ⟨(i, target), Table.mem_of_lookup ht, rfl⟩
  exact (resolveWritten_closed hclosed).1 _ target false true [] hentered (hx.targets i target ht)
    (fun hl hne => ⟨hne, fun _ e =>
      absurd (by rw [e]; rfl) (habsolute target (List.mem_append_right _ hmem) hl)⟩) path h

/-- **The symbol of an `impl` block is a type that the crate declares, unless it is a stray one**:
    where files stand for joined names and no path that starts at the root of all crates spells the
    word for the crate. -/
theorem LoweredCrate.declared_nominal_iff {sources : SourceSet}
    (hsources : ∀ module ∈ sources.keys, PathText.IsPath module) {c : LoweredCrate}
    (hc : sources.lower = .ok c)
    (habsolute : ∀ p ∈ c.scopes.linkPaths ++ c.scopes.implTargets.values,
      p.leadingColon = true → p.segments.head? ≠ some crateWord)
    {i : NodeId} {n : Node} (hn : c.tree.node? i = some n) (hk : n.kind = .impl)
    {s : DeclaredSymbol} (hs : c.model.declared? i = some s) :
    (∃ scope, c.scopes.scope? s.container.path = some scope ∧
        scope.items.get? s.name = some .nominal) ↔
      ¬ c.scopes.Stray s.container.path s.name := by
  have hx : c.scopes.Named := SourceSet.named_lower hsources hc
  constructor
  · rintro ⟨scope, hscope, hitem⟩
    have hnominal : c.scopes.item? s.container.path s.name = some .nominal := by
      rw [ScopeIndex.item?, hscope, Option.bind_some, hitem]
    rintro (h | h | ⟨_, _, h, -⟩ | ⟨hno, -⟩ | ⟨hno, -⟩)
    · rw [hnominal] at h
      cases h
    · rw [hnominal] at h
      cases h
    · rw [hnominal] at h
      cases h
    · exact hno hnominal
    · exact hno hnominal
  · intro hstray
    rw [declared?_impl hn hk] at hs
    obtain ⟨target, htarget, hs⟩ := Option.bind_eq_some_iff.mp hs
    obtain ⟨path, hpath, hsymbol⟩ := Option.bind_eq_some_iff.mp hs
    have horigin : c.scopes.HasOrigin path :=
      hx.hasOrigin_of_selfType (SourceSet.placed_lower hc) habsolute htarget hpath
    obtain ⟨names, rfl, hmodule⟩ := ScopeIndex.exists_names_of_symbolAt? hsymbol
    obtain ⟨hnames, hfrom⟩ := horigin.2 _ rfl
    have hnominal := (hfrom (by simp)).nominal_or_stray hx fun n hn =>
      hnames n (List.mem_append_left _ hn)
    rw [← hmodule] at hnominal
    exact Option.bind_eq_some_iff.mp (hnominal.resolve_right hstray)

/-! ## 3. A type and an alias -/

/-- A crate of one file. -/
def oneFile (text : String) : SourceSet := Table.ofList [("", ⟨"src/lib.rs", text⟩)]

theorem isPath_of_mem_oneFile (text : String) :
    ∀ module ∈ (oneFile text).keys, PathText.IsPath module := by
  intro module hm
  rw [List.mem_singleton.mp hm]
  exact PathText.isPath_empty

/-- A source set is accepted with the scopes and the nodes that reading it comes to. -/
theorem exists_lower_eq {sources : SourceSet} {x : ScopeIndex} {nodes : List Node}
    (h : (sources.lower.toOption.map fun c => (c.scopes, c.tree.nodes.toList)) = some (x, nodes)) :
    ∃ c, sources.lower = .ok c ∧ c.scopes = x ∧ ∀ i, c.tree.node? i = nodes[i]? := by
  obtain ⟨c, hc, e⟩ := Option.map_eq_some_iff.mp h
  obtain ⟨rfl, rfl⟩ := Prod.mk.inj e
  exact ⟨c, eq_ok_of_toOption hc, rfl, fun i => by rw [Tree.node?, Array.getElem?_toList]⟩

/-- A struct with an `impl` block. -/
def structSources : SourceSet := oneFile "pub struct Widget;\n\nimpl Widget \x7b\x7d\n"

/-- Its `impl` block, node 2, stands for the struct. -/
theorem declared_nominal_structSources :
    ∃ c s, structSources.lower = .ok c ∧ c.model.declared? 2 = some s ∧ s.name = "Widget" ∧
      ¬ c.scopes.Stray s.container.path s.name := by
  let widgetScope : ModuleScope := { items := .ofList [("Widget", .nominal)] }
  let scopes : ScopeIndex :=
    { modules := .ofList [("", widgetScope)]
      nodeModules := .ofList [(0, ""), (1, ""), (2, "")]
      implTargets := .ofList [(2, ⟨["Widget"], false⟩)] }
  let block : Node := ⟨.impl, some "Widget", some 0, [], some ⟨"src/lib.rs", 3⟩⟩
  have hread : (structSources.lower.toOption.map fun c => (c.scopes, c.tree.nodes.toList)) =
      some (scopes, [⟨.sourceFile, none, none, [], none⟩,
        ⟨.struct, some "Widget", some 0, [], some ⟨"src/lib.rs", 1⟩⟩, block]) := by
    decide +kernel
  obtain ⟨c, hc, hscopes, hnodes⟩ := exists_lower_eq hread
  have hblock : c.tree.node? 2 = some block := hnodes 2
  have hitem : scopes.item? "" "Widget" = some .nominal := by decide
  have hresolved : scopes.resolve "" ⟨["Widget"], false⟩ = some ["crate", "Widget"] := by
    rw [ScopeIndex.resolve_single _ (by decide) (by decide) (by decide),
      ScopeIndex.lookup_of_explicit _ (ScopeIndex.lookupExplicit_item _ (by simp) hitem (by simp))]
    rfl
  have hdeclared : c.model.declared? 2 = some ⟨"Widget", .global, false⟩ := by
    rw [LoweredCrate.declared?_impl hblock rfl, hscopes]
    have htarget : scopes.implTargets.get? 2 = some ⟨["Widget"], false⟩ := by decide
    have hmodule : scopes.moduleOf 2 = "" := by decide
    rw [htarget, Option.bind_some, hmodule, hresolved]
    decide
  refine ⟨c, _, hc, hdeclared, rfl, ?_⟩
  refine (LoweredCrate.declared_nominal_iff (isPath_of_mem_oneFile _) hc ?_ hblock rfl
    hdeclared).mp ⟨widgetScope, ?_, by decide⟩
  · rw [hscopes]
    decide
  · rw [hscopes]
    decide

/-- An alias of a number type with an `impl` block. -/
def aliasSources : SourceSet := oneFile
  "type Count = u32;\n\npub trait Show \x7b\x7d\n\nimpl Show for Count \x7b\x7d\n"

/-- **The `impl` block of an alias of a foreign type has a symbol**, although the crate declares no
    type of this name. -/
theorem declared_not_nominal_aliasSources :
    ∃ c n s, aliasSources.lower = .ok c ∧ c.tree.node? 2 = some n ∧ n.kind = .impl ∧
      c.model.declared? 2 = some s ∧ s = ⟨"Count", .global, false⟩ ∧
      ¬ ∃ scope, c.scopes.scope? s.container.path = some scope ∧
        scope.items.get? s.name = some .nominal := by
  let countScope : ModuleScope :=
    { items := .ofList [("Count", .typeAlias ⟨["u32"], false⟩), ("Show", .nominal)] }
  let scopes : ScopeIndex :=
    { modules := .ofList [("", countScope)]
      nodeModules := .ofList [(0, ""), (1, ""), (2, "")]
      implTargets := .ofList [(2, ⟨["Count"], false⟩)] }
  let block : Node := ⟨.impl, some "Count", some 0, [], some ⟨"src/lib.rs", 5⟩⟩
  have hread : (aliasSources.lower.toOption.map fun c => (c.scopes, c.tree.nodes.toList)) =
      some (scopes, [⟨.sourceFile, none, none, [], none⟩,
        ⟨.trait, some "Show", some 0, [], some ⟨"src/lib.rs", 3⟩⟩, block]) := by
    decide +kernel
  obtain ⟨c, hc, hscopes, hnodes⟩ := exists_lower_eq hread
  have hblock : c.tree.node? 2 = some block := hnodes 2
  have hscope : scopes.scope? "" = some countScope := by decide
  -- nothing in the crate is called `u32`, and one name alone is no path of another crate
  have hforeign : scopes.resolveWritten "" ⟨["u32"], false⟩ false true [("", "Count")] = none := by
    have hexplicit : scopes.lookupExplicit "" "u32" [("", "Count")] = none := by
      rw [ScopeIndex.lookupExplicit_child _ (by decide) (by decide) (by decide)]
      decide
    have hlookup : scopes.lookup "" "u32" [("", "Count")] = none := by
      rw [ScopeIndex.lookup_eq, hexplicit, hscope]
      decide
    rw [ScopeIndex.resolveWritten_name _ (by decide) (by decide) (by decide), if_pos rfl, hlookup]
    decide
  have hresolved : scopes.resolve "" ⟨["Count"], false⟩ = some ["crate", "Count"] := by
    have hitem : scopes.item? "" "Count" = some (.typeAlias ⟨["u32"], false⟩) := by decide
    have hexplicit : scopes.lookupExplicit "" "Count" [] = some (itemPath "" "Count") := by
      rw [ScopeIndex.lookupExplicit_alias _ (by simp) hitem, hforeign]
      rfl
    rw [ScopeIndex.resolve_single _ (by decide) (by decide) (by decide),
      ScopeIndex.lookup_of_explicit _ hexplicit]
    rfl
  refine ⟨c, block, _, hc, hblock, rfl, ?_, rfl, ?_⟩
  · rw [LoweredCrate.declared?_impl hblock rfl, hscopes]
    have htarget : scopes.implTargets.get? 2 = some ⟨["Count"], false⟩ := by decide
    have hmodule : scopes.moduleOf 2 = "" := by decide
    rw [htarget, Option.bind_some, hmodule, hresolved]
    decide
  · rintro ⟨scope, hs, hitem⟩
    rw [hscopes] at hs
    cases hscope.symm.trans hs
    exact absurd hitem (by decide)

end LogMarkers
