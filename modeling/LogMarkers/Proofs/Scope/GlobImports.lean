import LogMarkers.Proofs.Scope.Comparison
import LogMarkers.Proofs.Scope.GuardStack
import LogMarkers.Proofs.Scope.WellFormed

/-!
# Names that come through a glob

A module that imports everything from a module `source` should see the names of `source` under the
path of `source`. It sees those that `source` declares, imports or has as modules inside it, aliases
and imports followed to their end; those that `source` itself has from its globs only, it does not
see.

* `resolve_glob`: what a name denotes that comes through the only glob of a module;
* `resolve_qualified`: what it denotes behind the path of the source;
* `resolve_glob_eq_qualified_iff`: exactly when these are the same;
* `resolve_glob_ne_qualified_ofPrelude`: a marker that is passed on by a glob is not seen;
* `resolve_of_sameUpToGlobOrder`: which globs a module has decides, not how they are written down.

Looking the name up through the glob is a lookup in `source` with one more search under way than the
direct one. The search would lead back to this lookup, so it makes no difference
(`mirrors_sameButSearch`). Globs in another order offer the same candidates, and there is an only one
whatever order they come in, so two indexes that differ in the order answer alike at every step
(`SameUpToGlobOrder.mirrors`).
-/

namespace LogMarkers

namespace ScopeIndex

/-- No module binds a name that starts with a star. Among the lookups under way, such a name would
    be taken for a search among globs. -/
def StarFree (x : ScopeIndex) : Prop :=
  ∀ module name : String, ¬ x.BindsExplicitly module ("*" ++ name)

/-- A name that a module has from its globs only: it neither declares nor imports it, or the import
    leads to nothing. -/
def FromGlobsOnly (x : ScopeIndex) (module name : String) : Prop :=
  x.lookupExplicit module name [] = none ∧ x.globSupply? module name [] ≠ none

/-- The only glob of a module is the path of a module, from the root. -/
def OnlyGlob (x : ScopeIndex) (module source : String) : Prop :=
  ∃ s, x.scope? module = some s ∧ s.globs = [⟨"crate" :: PathText.segments source, false⟩]

variable {x : ScopeIndex} {module source name : String} {guarded : Guard}

/-! ## 1. The only glob -/

/-- The glob offers what its source binds itself. -/
theorem WellFormed.globCandidate?_crate (hx : x.WellFormed) (hs : source ∈ x.modules.keys)
    (hg : x.OnlyLinks (starKey module name :: guarded)) :
    x.globCandidate? module name guarded ⟨"crate" :: PathText.segments source, false⟩ =
      x.lookupExplicit source name (starKey module name :: guarded) := by
  have hbase : x.resolveInside "" (PathText.segments source) (starKey module name :: guarded) =
      some (modulePath source) := by
    simpa using hx.resolveInside_segments_of_links hg source hs []
  have hlocal := hx.localModule?_modulePath hs
  unfold globCandidate?
  rw [resolveWritten_crate, hbase]
  dsimp only
  rw [hlocal]

/-- The globs of a module with only one supply what this one offers. -/
theorem WellFormed.globSupply?_onlyGlob (hx : x.WellFormed) (hs : source ∈ x.modules.keys)
    (hglob : x.OnlyGlob module source) (hg : x.OnlyLinks (starKey module name :: guarded))
    (hfree : starKey module name ∉ guarded) :
    x.globSupply? module name guarded =
      x.lookupExplicit source name (starKey module name :: guarded) := by
  obtain ⟨s, hscope, hglobs⟩ := hglob
  have hcandidate := hx.globCandidate?_crate hs hg
  rw [globSupply?_free hscope hfree, hglobs]
  cases hfound : x.lookupExplicit source name (starKey module name :: guarded) with
  | none => rw [List.filterMap_cons_none (hcandidate.trans hfound)]; rfl
  | some found => rw [List.filterMap_cons_some (hcandidate.trans hfound)]; rfl

/-! ## 2. The search under way -/

theorem StarFree.item?_eq_none (h : x.StarFree) (module name : String) :
    x.item? module ("*" ++ name) = none :=
  Classical.byContradiction fun hne => h module name (.inl hne)

theorem starFree_of_forall (hmodules : ∀ module ∈ x.modules.keys, '*' ∉ module.toList)
    (hnames : ∀ key ∈ x.linkKeys, '*' ∉ key.2.toList) : x.StarFree := by
  have hstar (name : String) : '*' ∈ ("*" ++ name).toList := by simp
  rintro module name (hitem | himport | hchild)
  · obtain ⟨kind, hi⟩ := Option.ne_none_iff_exists'.mp hitem
    exact hnames _ (item_mem_linkKeys hi) (hstar name)
  · obtain ⟨target, hm⟩ := Option.ne_none_iff_exists'.mp himport
    exact hnames _ (import_mem_linkKeys hm) (hstar name)
  · obtain ⟨s, hs⟩ := Option.isSome_iff_exists.mp hchild
    refine hmodules _ (mem_keys_of_scope? hs) ?_
    unfold PathText.within
    split <;> simp

theorem StarFree.onlyLinks_starKey (h : x.StarFree) (hg : x.OnlyLinks guarded)
    (module name : String) : x.OnlyLinks (starKey module name :: guarded) := by
  intro key hkey kind hi
  rcases List.mem_cons.mp hkey with rfl | hkey
  · rw [starKey, h.item?_eq_none] at hi
    cases hi
  · exact hg key hkey kind hi

/-- Two guards that are the same but for the search for `name` among the globs of `module`, while
    `name` is being looked up in `source`. -/
structure SameButSearch (x : ScopeIndex) (module source name : String) (g g' : Guard) : Prop where
  onlyLinks : x.OnlyLinks g
  underWay : (source, name) ∈ g
  mem_iff : ∀ key, key ∈ g' ↔ key = starKey module name ∨ key ∈ g

theorem SameButSearch.cons {g g' : Guard} (h : x.SameButSearch module source name g g')
    {key : String × String} (hkey : x.OnlyLinks (key :: g)) :
    x.SameButSearch module source name (key :: g) (key :: g') where
  onlyLinks := hkey
  underWay := List.mem_cons_of_mem _ h.underWay
  mem_iff other := by rw [List.mem_cons, List.mem_cons, h.mem_iff, or_left_comm]

/-- **The search makes no difference**: its only glob leads to the lookup that is under way. -/
theorem WellFormed.mirrors_sameButSearch (hx : x.WellFormed) (hstar : x.StarFree)
    (hs : source ∈ x.modules.keys) (hglob : x.OnlyGlob module source) :
    Mirrors x x (x.SameButSearch module source name) where
  contains _ := rfl
  item _ _ := rfl
  imported _ _ := rfl
  globs hscope hscope' glob := by
    rw [hscope] at hscope'
    cases hscope'
    rfl
  explicit {g g'} h m n := by
    by_cases hkey : (m, n) = starKey module name
    · right
      obtain ⟨rfl, rfl⟩ := Prod.mk.inj hkey
      exact hstar m name
    · left
      rw [h.mem_iff, or_iff_right hkey]
  starred {g g'} h m n := by
    by_cases hkey : starKey m n = starKey module name
    · by_cases hfree : starKey m n ∈ g
      · exact .inl (iff_of_true ((h.mem_iff _).mpr (.inr hfree)) hfree)
      right
      refine ⟨?_, globSupply?_guarded ((h.mem_iff _).mpr (.inl hkey))⟩
      obtain ⟨rfl, rfl⟩ := starKey_inj hkey
      rw [hx.globSupply?_onlyGlob hs hglob (hstar.onlyLinks_starKey h.onlyLinks m n) hfree]
      exact x.lookupExplicit_guarded (List.mem_cons_of_mem _ h.underWay)
    · left
      rw [h.mem_iff, or_iff_right hkey]
  link {g g'} h m n hlink := by
    refine h.cons fun key hkey kind hi => ?_
    rcases List.mem_cons.mp hkey with rfl | hkey
    · exact hlink kind hi
    · exact h.onlyLinks key hkey kind hi
  among {g g'} h m n := h.cons (hstar.onlyLinks_starKey h.onlyLinks m n)

/-- **What the source binds itself is the same through the glob.** -/
theorem WellFormed.lookupExplicit_starKey (hx : x.WellFormed) (hstar : x.StarFree)
    (hs : source ∈ x.modules.keys) (hglob : x.OnlyGlob module source) :
    x.lookupExplicit source name [starKey module name] = x.lookupExplicit source name [] := by
  have hfree : (source, name) ∉ [starKey module name] := by
    intro hmem
    have hname := congrArg (String.length ·.2) (List.mem_singleton.mp hmem)
    simp [starKey] at hname
  -- once the lookup itself is under way, the two guards are the same but for the search
  have hpath (target : WrittenPath) (bare : Bool)
      (hlink : ∀ kind, x.item? source name = some kind → ∃ t, kind = .typeAlias t) :
      x.resolveWritten source target bare true [(source, name), starKey module name] =
        x.resolveWritten source target bare true [(source, name)] := by
    have hsame : x.SameButSearch module source name [(source, name)]
        [(source, name), starKey module name] :=
      { onlyLinks := by simpa [OnlyLinks] using hlink
        underWay := List.mem_singleton_self _
        mem_iff := by simp [or_comm] }
    exact (resolveWritten_mirrors (hx.mirrors_sameButSearch hstar hs hglob)).1 source target bare
      true _ _ hsame
  cases hi : x.item? source name with
  | some kind =>
    by_cases hk : ∃ target, kind = .typeAlias target
    · obtain ⟨target, rfl⟩ := hk
      rw [x.lookupExplicit_alias hfree hi, x.lookupExplicit_alias List.not_mem_nil hi,
        hpath target false fun kind hkind => ⟨target, Option.some.inj (hkind.symm.trans hi)⟩]
    · have hk' : ∀ target, kind ≠ .typeAlias target := fun target e => hk ⟨target, e⟩
      rw [x.lookupExplicit_item hfree hi hk', x.lookupExplicit_item List.not_mem_nil hi hk']
  | none =>
    cases hm : x.import? source name with
    | some target =>
      rw [x.lookupExplicit_import hfree hi hm, x.lookupExplicit_import List.not_mem_nil hi hm,
        hpath target true fun kind hkind => by rw [hi] at hkind; cases hkind]
    | none =>
      rw [x.lookupExplicit_child hfree hi hm, x.lookupExplicit_child List.not_mem_nil hi hm]

/-! ## 3. Through the glob and behind the path -/

/-- **A name behind the path of a module is looked up in the module.** -/
theorem WellFormed.resolve_qualified (hx : x.WellFormed) (hs : source ∈ x.modules.keys)
    (hself : name ≠ "self") (hsuper : name ≠ "super") (module : String) :
    x.resolve module ⟨"crate" :: (PathText.segments source ++ [name]), false⟩ =
      x.lookup source name [] := by
  unfold resolve
  rw [resolveWritten_crate, hx.resolveInside_segments (by simp) source hs,
    x.resolveInside_single hself hsuper]

/-- **A name that comes through the only glob of a module denotes what its source binds itself.** -/
theorem WellFormed.resolve_glob (hx : x.WellFormed) (hstar : x.StarFree)
    (hs : source ∈ x.modules.keys) (hglob : x.OnlyGlob module source) (hc : name ≠ "crate")
    (hself : name ≠ "self") (hsuper : name ≠ "super") (hown : ¬ x.BindsExplicitly module name) :
    x.resolve module ⟨[name], false⟩ = x.lookupExplicit source name [] := by
  rw [x.resolve_single hc hself hsuper, lookup_eq_or, lookupExplicit_eq_none_of_unbound hown,
    Option.none_or, hx.globSupply?_onlyGlob hs hglob (hstar.onlyLinks_starKey x.onlyLinks_nil _ _)
    List.not_mem_nil, hx.lookupExplicit_starKey hstar hs hglob]

/-- **A name denotes the same through the only glob of a module and behind the path of its source
    exactly if the source does not have it from its own globs only.** -/
theorem resolve_glob_eq_qualified_iff (hx : x.WellFormed) (hstar : x.StarFree)
    (hs : source ∈ x.modules.keys) (hglob : x.OnlyGlob module source) (hc : name ≠ "crate")
    (hself : name ≠ "self") (hsuper : name ≠ "super") (hown : ¬ x.BindsExplicitly module name) :
    x.resolve module ⟨[name], false⟩ =
        x.resolve module ⟨"crate" :: (PathText.segments source ++ [name]), false⟩ ↔
      ¬ x.FromGlobsOnly source name := by
  rw [hx.resolve_glob hstar hs hglob hc hself hsuper hown,
    hx.resolve_qualified hs hself hsuper, lookup_eq_or]
  unfold FromGlobsOnly
  cases x.lookupExplicit source name [] with
  | some found => simp
  | none => simp [eq_comm]

/-- The index of a crate whose `prelude` imports a marker under another name and everything from the
    crate of the markers, and whose root imports everything from the `prelude`. -/
def ofPrelude : ScopeIndex :=
  ((((({} : ScopeIndex).declare "" "prelude" .submodule).addImport
    "prelude" "class_marker" ⟨["autolog", "auto_log_class"], true⟩).addGlob
    "prelude" ⟨["autolog"], false⟩).addGlob
    "" ⟨["crate", "prelude"], false⟩)

theorem wellFormed_ofPrelude : ofPrelude.WellFormed where
  root := by decide
  declared := by
    have hkeys : ofPrelude.modules.keys = ["", "prelude"] := by decide
    rw [hkeys]
    intro module hm hne
    simp only [List.mem_cons, List.not_mem_nil, or_false] at hm
    rcases hm with rfl | rfl
    · exact absurd rfl hne
    · exact ⟨"", by decide, "prelude", .submodule, by decide, by decide, by simp⟩
  plain := by decide

theorem starFree_ofPrelude : ofPrelude.StarFree := starFree_of_forall (by decide) (by decide)

theorem onlyGlob_ofPrelude : ofPrelude.OnlyGlob "" "prelude" :=
  Option.map_eq_some_iff.mp (by decide)

/-- What the `prelude` imports by name is seen through the glob. -/
theorem resolve_glob_eq_qualified_ofPrelude :
    ¬ ofPrelude.BindsExplicitly "" "class_marker" ∧
      ¬ ofPrelude.FromGlobsOnly "prelude" "class_marker" ∧
      ofPrelude.resolve "" ⟨["class_marker"], false⟩ =
        ofPrelude.resolve "" ⟨["crate", "prelude", "class_marker"], false⟩ ∧
      ofPrelude.resolve "" ⟨["class_marker"], false⟩ = some ["autolog", "auto_log_class"] := by
  have hs : "prelude" ∈ ofPrelude.modules.keys := by decide
  have hown : ¬ ofPrelude.BindsExplicitly "" "class_marker" := by decide
  have hbound : ofPrelude.lookupExplicit "prelude" "class_marker" [] =
      some ["autolog", "auto_log_class"] := by
    have hlink : ofPrelude.import? "prelude" "class_marker" =
        some ⟨["autolog", "auto_log_class"], true⟩ := by decide
    rw [lookupExplicit_import _ (by decide) (by decide) hlink]
    exact resolveWritten_leadingColon _ (by decide)
  have hbinds : ¬ ofPrelude.FromGlobsOnly "prelude" "class_marker" := by
    rintro ⟨hnone, -⟩
    rw [hbound] at hnone
    cases hnone
  have hvalue := wellFormed_ofPrelude.resolve_glob starFree_ofPrelude hs onlyGlob_ofPrelude
    (by decide) (by decide) (by decide) hown
  exact ⟨hown, hbinds,
    (resolve_glob_eq_qualified_iff wellFormed_ofPrelude starFree_ofPrelude hs
      onlyGlob_ofPrelude (by decide) (by decide) (by decide) hown).mpr hbinds,
    hvalue.trans hbound⟩

/-- **A marker that the `prelude` passes on by a glob is not seen through the glob of the root**,
    although the path of the `prelude` leads to it. -/
theorem resolve_glob_ne_qualified_ofPrelude :
    ofPrelude.WellFormed ∧ ofPrelude.OnlyGlob "" "prelude" ∧
      ¬ ofPrelude.BindsExplicitly "" "auto_log_class" ∧
      ofPrelude.resolve "" ⟨["auto_log_class"], false⟩ = none ∧
      ofPrelude.resolve "" ⟨["crate", "prelude", "auto_log_class"], false⟩ =
        some ["autolog", "auto_log_class"] := by
  have hx := wellFormed_ofPrelude
  have hs : "prelude" ∈ ofPrelude.modules.keys := by decide
  have hown : ¬ ofPrelude.BindsExplicitly "" "auto_log_class" := by decide
  have hnone : ofPrelude.lookupExplicit "prelude" "auto_log_class" [] = none :=
    lookupExplicit_eq_none_of_unbound (by decide) _
  have hscope : ofPrelude.scope? "prelude" = some
      { imports := Table.empty.insert "class_marker" ⟨["autolog", "auto_log_class"], true⟩,
        globs := [⟨["autolog"], false⟩] } := by decide
  have hcandidate : ofPrelude.globCandidate? "prelude" "auto_log_class" [] ⟨["autolog"], false⟩ =
      some ["autolog", "auto_log_class"] := by
    have hcrate : ofPrelude.lookupExplicit "prelude" "autolog"
        [starKey "prelude" "auto_log_class"] = none :=
      lookupExplicit_eq_none_of_unbound (by decide) _
    unfold globCandidate?
    rw [resolveWritten_name _ (by decide) (by decide) (by decide), if_neg (by decide), hcrate]
    rfl
  refine ⟨hx, onlyGlob_ofPrelude, hown, ?_, ?_⟩
  · rw [hx.resolve_glob starFree_ofPrelude hs onlyGlob_ofPrelude (by decide) (by decide)
      (by decide) hown, hnone]
  · have hpath : PathText.segments "prelude" = ["prelude"] := by decide
    have hqualified : ofPrelude.resolve ""
        ⟨"crate" :: (PathText.segments "prelude" ++ ["auto_log_class"]), false⟩ =
          ofPrelude.lookup "prelude" "auto_log_class" [] :=
      hx.resolve_qualified hs (by decide) (by decide) ""
    rw [hpath] at hqualified
    refine hqualified.trans ?_
    rw [lookup_eq_or, hnone, Option.none_or, globSupply?_free hscope (by decide),
      List.filterMap_cons_some hcandidate]
    rfl

/-! ## 4. The order of the globs -/

/-- Two scopes with the same items, imports and globs, where the globs may come in another order and
    more or less often. -/
structure SameNames (s t : ModuleScope) : Prop where
  items : t.items = s.items
  imports : t.imports = s.imports
  globs : ∀ glob, glob ∈ t.globs ↔ glob ∈ s.globs

/-- Two indexes with the same modules, whose scopes are the same up to the order and the repetition
    of globs. -/
def SameUpToGlobOrder (x y : ScopeIndex) : Prop :=
  ∀ module, Option.Rel SameNames (x.scope? module) (y.scope? module)

theorem SameUpToGlobOrder.cases {y : ScopeIndex} (h : SameUpToGlobOrder x y) (module : String) :
    (x.scope? module = none ∧ y.scope? module = none) ∨
      ∃ s t, x.scope? module = some s ∧ y.scope? module = some t ∧ SameNames s t := by
  have hsame := h module
  generalize x.scope? module = s, y.scope? module = t at hsame ⊢
  cases hsame with
  | none => exact .inl ⟨rfl, rfl⟩
  | some hnames => exact .inr ⟨_, _, rfl, rfl, hnames⟩

theorem SameUpToGlobOrder.mirrors {y : ScopeIndex} (h : SameUpToGlobOrder x y) :
    Mirrors x y (· = ·) where
  contains module := by
    change (y.scope? module).isSome = (x.scope? module).isSome
    obtain ⟨hx, hy⟩ | ⟨s, t, hx, hy, -⟩ := h.cases module <;> rw [hx, hy]
    rfl
  item module name := by
    unfold item?
    obtain ⟨hx, hy⟩ | ⟨s, t, hx, hy, hnames⟩ := h.cases module
    · rw [hx, hy]
    · rw [hx, hy, Option.bind_some, Option.bind_some, hnames.items]
  imported module name := by
    unfold import?
    obtain ⟨hx, hy⟩ | ⟨s, t, hx, hy, hnames⟩ := h.cases module
    · rw [hx, hy]
    · rw [hx, hy, Option.bind_some, Option.bind_some, hnames.imports]
  globs {module s t} hs ht := by
    obtain ⟨hx, -⟩ | ⟨s', t', hx, hy, hnames⟩ := h.cases module
    · rw [hx] at hs
      cases hs
    · rw [hx] at hs
      rw [hy] at ht
      cases hs
      cases ht
      exact hnames.globs
  explicit e module name := .inl (by rw [e])
  starred e module name := .inl (by rw [e])
  link e module name _ := congrArg _ e
  among e module name := congrArg _ e

/-- **What a path denotes depends neither on the order of globs nor on how often they are written**,
    in whatever module it stands. -/
theorem resolve_of_sameUpToGlobOrder {y : ScopeIndex} (h : SameUpToGlobOrder x y) (module : String)
    (path : WrittenPath) : y.resolve module path = x.resolve module path :=
  (resolveWritten_mirrors h.mirrors).1 module path false true [] [] rfl

/-- A crate whose root and whose `prelude` have these globs, and whose `prelude` imports a marker
    under another name. -/
def ofGlobs (root prelude : List WrittenPath) : ScopeIndex where
  modules := (Table.empty.insert "" {
      items := Table.empty.insert "prelude" .submodule
      globs := root }).insert "prelude" {
    imports := Table.empty.insert "class_marker" ⟨["autolog", "auto_log_class"], true⟩
    globs := prelude }

theorem sameUpToGlobOrder_ofGlobs {root root' prelude prelude' : List WrittenPath}
    (hroot : ∀ glob, glob ∈ root' ↔ glob ∈ root)
    (hprelude : ∀ glob, glob ∈ prelude' ↔ glob ∈ prelude) :
    SameUpToGlobOrder (ofGlobs root prelude) (ofGlobs root' prelude') := by
  intro module
  unfold ofGlobs scope?
  simp only [Table.get?_insert]
  split
  · exact .some ⟨rfl, rfl, hprelude⟩
  · split
    · exact .some ⟨rfl, rfl, hroot⟩
    · exact .none

/-- Each glob once. -/
def tidyGlobs : ScopeIndex :=
  ofGlobs [⟨["crate", "prelude"], false⟩, ⟨["self", "prelude"], false⟩]
    [⟨["autolog"], false⟩, ⟨["tracing"], false⟩]

/-- The same globs in another order, and some of them twice. -/
def untidyGlobs : ScopeIndex :=
  ofGlobs [⟨["self", "prelude"], false⟩, ⟨["crate", "prelude"], false⟩, ⟨["self", "prelude"], false⟩]
    [⟨["tracing"], false⟩, ⟨["autolog"], false⟩, ⟨["tracing"], false⟩]

/-- The root has the marker from the `prelude`, which both of its globs lead to. -/
theorem resolve_of_sameUpToGlobOrder_untidyGlobs :
    SameUpToGlobOrder tidyGlobs untidyGlobs ∧
      untidyGlobs.resolve "" ⟨["class_marker"], false⟩ =
        tidyGlobs.resolve "" ⟨["class_marker"], false⟩ ∧
      untidyGlobs.resolve "" ⟨["class_marker"], false⟩ = some ["autolog", "auto_log_class"] := by
  have hsame : SameUpToGlobOrder tidyGlobs untidyGlobs :=
    sameUpToGlobOrder_ofGlobs (by grind) (by grind)
  have hresolve := resolve_of_sameUpToGlobOrder hsame "" ⟨["class_marker"], false⟩
  have hmarker : tidyGlobs.resolve "" ⟨["class_marker"], false⟩ =
      some ["autolog", "auto_log_class"] := Resolution.resolve_eq_of_run 100 rfl
  exact ⟨hsame, hresolve, hresolve.trans hmarker⟩

end ScopeIndex

end LogMarkers
