import LogMarkers.Proofs.Scope.WellFormed

/-!
# Canonical paths denote themselves

What a path of the crate resolves to can be written down and resolved again, from any module, and is
the same. Canonical paths come from items, from modules and from names behind an item that is no
module; imports, globs and the guard only decide which of them comes out.

* `IsFixed`: a path from the root resolves to itself, and so does it with names behind it where it is
  no module;
* `isFixed_of_lookup`, `isFixed_of_isModule`: items and modules are fixed;
* `resolve_of_resolve`: every resolved path of the crate is.
-/

namespace LogMarkers

namespace ScopeIndex

/-- The names after the word for the crate lead to what they spell, and so do more names behind them
    where they spell no module. -/
structure IsFixed (x : ScopeIndex) (names : List String) : Prop where
  self : x.resolveInside "" names [] = some (crateWord :: names)
  beyond : ∀ rest : List String, rest ≠ [] → x.isModule (PathText.join names) = false →
    x.resolveInside "" (names ++ rest) [] = some (crateWord :: (names ++ rest))

variable {x : ScopeIndex}

/-- A name that a module finds as its own is fixed. -/
theorem WellFormed.isFixed_of_lookup (hx : x.WellFormed) {module name : String}
    (hm : module ∈ x.modules.keys) (hself : name ≠ "self") (hsuper : name ≠ "super")
    (h : x.lookupExplicit module name [] = some (itemPath module name)) :
    x.IsFixed (PathText.segments module ++ [name]) := by
  have hwalk : ∀ rest, x.resolveInside "" (PathText.segments module ++ [name] ++ rest) [] =
      x.descend (itemPath module name) rest [] := by
    intro rest
    calc x.resolveInside "" (PathText.segments module ++ [name] ++ rest) []
        = x.resolveInside "" (PathText.segments module ++ name :: rest) [] := by
          rw [List.append_assoc, List.singleton_append]
      _ = x.resolveInside module (name :: rest) [] :=
          hx.resolveInside_segments (by simp) module hm (name :: rest)
      _ = x.descend (itemPath module name) rest [] := by
          rw [x.resolveInside_name hself hsuper, x.lookup_of_explicit h]
          rfl
  constructor
  · simpa [itemPath, modulePath] using hwalk []
  · intro rest _ hno
    rw [hwalk rest]
    exact x.descend_of_not_module (localModule?_crate _) hno

theorem WellFormed.isFixed_of_mem (hx : x.WellFormed) {module : String}
    (hm : module ∈ x.modules.keys) : x.IsFixed (PathText.segments module) := by
  constructor
  · simpa [modulePath] using hx.resolveInside_segments (by simp) module hm []
  · intro rest _ hno
    rw [hx.join_segments hm, isModule_of_mem hm] at hno
    cases hno

theorem WellFormed.isFixed_of_item (hx : x.WellFormed) {module name : String} {kind : ItemKind}
    (hi : x.item? module name = some kind) (hk : ∀ target, kind ≠ .typeAlias target) :
    x.IsFixed (PathText.segments module ++ [name]) := by
  have hname : IsPlain name := hx.plain _ (item_mem_linkKeys hi)
  exact hx.isFixed_of_lookup (mem_keys_of_item? hi) hname.ne_self hname.ne_super
    (x.lookupExplicit_item List.not_mem_nil hi hk)

theorem WellFormed.isFixed_of_isModule (hx : x.WellFormed) {module : String}
    (h : x.isModule module = true) : x.IsFixed (PathText.segments module) := by
  rcases hx.isModule_cases h with hm | ⟨parent, name, hitem, hsegments, -⟩
  · exact hx.isFixed_of_mem hm
  · rw [hsegments]
    exact hx.isFixed_of_item hitem (by simp)

/-- Names behind a fixed path that is no module are fixed with it. -/
theorem IsFixed.append {names rest : List String} (h : x.IsFixed names) (hrest : rest ≠ [])
    (hno : x.isModule (PathText.join names) = false) : x.IsFixed (names ++ rest) where
  self := h.beyond rest hrest hno
  beyond more hmore _ := by
    rw [List.append_assoc]
    exact h.beyond (rest ++ more) (List.append_ne_nil_of_right_ne_nil _ hmore) hno

/-- None of the names is declared as an alias in the module that the names before it spell. -/
def NoAlias (x : ScopeIndex) (names : List String) : Prop :=
  ∀ before name after, names = before ++ name :: after →
    ∀ target, x.item? (PathText.join before) name ≠ some (.typeAlias target)

theorem NoAlias.of_append {names rest : List String} (h : x.NoAlias (names ++ rest)) :
    x.NoAlias names := by
  intro before name after e
  exact h before name (after ++ rest) (by rw [e, List.append_assoc, List.cons_append])

/-- The paths of a well-formed index that resolution makes are fixed, if they are paths of the crate
    without an alias in them. -/
theorem WellFormed.resultClosed_isFixed (hx : x.WellFormed)
    (hlinks : ∀ p ∈ x.linkPaths, p.leadingColon = true → p.segments.head? ≠ some crateWord) :
    x.ResultClosed (fun _ => True) (x.isModule · = true)
      (fun p => p ≠ [] ∧ ∀ names, p = crateWord :: names → x.NoAlias names → x.IsFixed names) where
  linked _ _ _ _ := trivial
  known _ hm := isModule_of_mem hm
  root := isModule_of_mem hx.root
  parent _ _ hm hp := isModule_of_mem (hx.isModule_parent hm hp)
  enter _ _ _ _ hm := hm
  absolute p hp hl hne :=
    ⟨hne, fun _ e => absurd (by rw [e]; rfl) (hlinks p hp.mem_linkPaths hl)⟩
  external _ _ _ hc _ _ := ⟨List.cons_ne_nil _ _, fun _ e => absurd (List.cons.inj e).1 hc⟩
  inside _ hm :=
    ⟨List.cons_ne_nil _ _, fun _ e _ => (List.cons.inj e).2 ▸ hx.isFixed_of_isModule hm⟩
  item _ _ _ hi hk :=
    ⟨List.cons_ne_nil _ _, fun _ e _ => (List.cons.inj e).2 ▸ hx.isFixed_of_item hi hk⟩
  unresolved module name target _ hi _ := by
    refine ⟨List.cons_ne_nil _ _, fun names e halias => ?_⟩
    have hno := halias (PathText.segments module) name [] (List.cons.inj e).2.symm target
    rw [hx.join_segments (mem_keys_of_item? hi)] at hno
    exact absurd hi hno
  child module name _ hself hsuper hi hm hchild := by
    obtain ⟨s, hs⟩ := Option.isSome_iff_exists.mp hchild
    have hmodule := hx.mem_keys_of_within_mem (mem_keys_of_scope? hs)
    have hfound : x.lookupExplicit module name [] = some (itemPath module name) := by
      rw [x.lookupExplicit_child List.not_mem_nil hi hm, if_pos hchild]
    exact ⟨List.cons_ne_nil _ _, fun _ e _ =>
      (List.cons.inj e).2 ▸ hx.isFixed_of_lookup hmodule hself hsuper hfound⟩
  extend base rest hbase hrest _ hno := by
    refine ⟨List.append_ne_nil_of_right_ne_nil _ hrest, fun names e halias => ?_⟩
    obtain ⟨first, tail, rfl⟩ := List.exists_cons_of_ne_nil hbase.1
    obtain ⟨rfl, rfl⟩ := List.cons.inj e
    exact (hbase.2 tail rfl halias.of_append).append hrest (hno _ (localModule?_crate tail))

/-- **Resolved paths of the crate denote themselves, in every module**: in a well-formed index
    without aliases, and where no path that starts at the root of all crates spells the word for the
    crate. -/
theorem resolve_of_resolve (hx : x.WellFormed)
    (hitems : ∀ module name target, x.item? module name ≠ some (.typeAlias target))
    (hlinks : ∀ p ∈ x.linkPaths, p.leadingColon = true → p.segments.head? ≠ some crateWord)
    {module : String} (hm : module ∈ x.modules.keys) {path : WrittenPath}
    (hpath : path.leadingColon = true → path.segments.head? ≠ some crateWord) {p : List String}
    (h : x.resolve module path = some p) (hp : p.head? = some crateWord) (module' : String) :
    x.resolve module' ⟨p, false⟩ = some p := by
  obtain ⟨names, rfl⟩ : ∃ names, p = crateWord :: names := by
    cases p with
    | nil => cases hp
    | cons first names =>
      cases hp
      exact ⟨names, rfl⟩
  have hclosed := hx.resultClosed_isFixed hlinks
  have hfixed : x.IsFixed names :=
    ((resolveWritten_closed hclosed).1 module path false true [] (isModule_of_mem hm)
      (fun _ _ => trivial) (fun hl hne => ⟨hne, fun _ e => absurd (by rw [e]; rfl) (hpath hl)⟩)
      _ h).2 names rfl fun _ _ _ _ _ => hitems _ _ _
  unfold resolve crateWord
  rw [resolveWritten_crate]
  exact hfixed.self

/-- The index of a crate with a module `ui` and an enum in it, which the root imports under another
    name. -/
def ofRenamedEnum : ScopeIndex :=
  ((({} : ScopeIndex).declare "" "ui" .submodule).declare "ui" "Widget" .nominal).addImport
    "" "W" ⟨["crate", "ui", "Widget"], false⟩

theorem wellFormed_ofRenamedEnum : ofRenamedEnum.WellFormed where
  root := by decide
  declared := by
    have hkeys : ofRenamedEnum.modules.keys = ["", "ui"] := by decide
    rw [hkeys]
    intro module hm hne
    simp only [List.mem_cons, List.not_mem_nil, or_false] at hm
    rcases hm with rfl | rfl
    · exact absurd rfl hne
    · exact ⟨"", by decide, "ui", .submodule, by decide, by decide, by simp⟩
  plain := by decide

theorem item?_ofRenamedEnum (module name : String) (target : WrittenPath) :
    ofRenamedEnum.item? module name ≠ some (.typeAlias target) := by
  intro h
  have hmem : (module, name) ∈ [("", "ui"), ("", "W"), ("ui", "Widget")] := item_mem_linkKeys h
  have hkinds : ∀ key ∈ [("", "ui"), ("", "W"), ("ui", "Widget")],
      ofRenamedEnum.item? key.1 key.2 ∈ [some .submodule, none, some .nominal] := by decide
  have hkind := hkinds _ hmem
  rw [h] at hkind
  simp at hkind

/-- Through the import, and with a variant behind the enum. -/
theorem resolve_of_resolve_ofRenamedEnum :
    ofRenamedEnum.resolve "" ⟨["W", "New"], false⟩ = some ["crate", "ui", "Widget", "New"] ∧
      ofRenamedEnum.resolve "ui" ⟨["crate", "ui", "Widget", "New"], false⟩ =
        some ["crate", "ui", "Widget", "New"] := by
  have hwidget : ofRenamedEnum.resolveInside "ui" ["Widget"] [("", "W")] =
      some (itemPath "ui" "Widget") := by
    have hitem : ofRenamedEnum.item? "ui" "Widget" = some .nominal := by decide
    rw [resolveInside_single _ (by decide) (by decide),
      lookup_of_explicit _ (lookupExplicit_item _ (by decide) hitem (by simp))]
  have himport : ofRenamedEnum.lookupExplicit "" "W" [] = some (itemPath "ui" "Widget") := by
    have hlink : ofRenamedEnum.import? "" "W" = some ⟨["crate", "ui", "Widget"], false⟩ := by
      decide
    rw [lookupExplicit_import _ (by decide) (by decide) hlink, resolveWritten_crate]
    exact (wellFormed_ofRenamedEnum.resolveInside_segments (by decide) "ui" (by decide)
      ["Widget"]).trans hwidget
  have hresolved : ofRenamedEnum.resolve "" ⟨["W", "New"], false⟩ =
      some ["crate", "ui", "Widget", "New"] := by
    unfold resolve
    rw [resolveWritten_name _ (by decide) (by decide) (by decide), if_pos rfl,
      lookup_of_explicit _ himport]
    exact descend_of_not_module _ (localModule?_crate ["ui", "Widget"]) (by decide)
  exact ⟨hresolved, resolve_of_resolve wellFormed_ofRenamedEnum item?_ofRenamedEnum (by decide)
    (by decide) (by decide) hresolved rfl "ui"⟩

end ScopeIndex

end LogMarkers
