import LogMarkers.Proofs.Scope.WellFormed

/-!
# Chains and cycles of imports

An import can lead to an import, which leads to another one, through any modules of the crate. A
chain that ends at a path of another crate is transparent: its first name denotes that path
(`resolve_of_aliasChain`). Imports that lead to each other in a circle denote nothing
(`resolve_of_importCycle`).

The guard grows along the links (`lookupExplicit_link`). It holds the links passed so far, and no
declared name, so it stops neither the later links nor the way from the root to their modules. In a
circle it stops the lookup that comes back to a link, and nothing takes the place of what is not
found there: the path of each link starts with the word for the crate, so it is not taken for one of
another crate, and the modules have no globs that could supply the name.
-/

namespace LogMarkers

namespace ScopeIndex

/-- **Following a link**: an imported name is looked up in the module that its path leads to, if only
    links are being looked up already. -/
theorem WellFormed.lookupExplicit_link {x : ScopeIndex} (hx : x.WellFormed)
    {module name source target : String} {guarded : Guard} (hfree : (module, name) ∉ guarded)
    (hlinks : ∀ key ∈ guarded, x.item? key.1 key.2 = none) (hi : x.item? module name = none)
    (hm : x.import? module name =
      some ⟨"crate" :: (PathText.segments source ++ [target]), false⟩)
    (hs : source ∈ x.modules.keys) (htarget : IsPlain target) :
    x.lookupExplicit module name guarded = x.lookup source target ((module, name) :: guarded) := by
  have hlinks' : ∀ key ∈ (module, name) :: guarded, x.item? key.1 key.2 = none :=
    List.forall_mem_cons.mpr ⟨hi, hlinks⟩
  calc x.lookupExplicit module name guarded
      = x.resolveInside "" (PathText.segments source ++ [target]) ((module, name) :: guarded) := by
        rw [x.lookupExplicit_import hfree hi hm, resolveWritten_crate]
    _ = x.resolveInside source [target] ((module, name) :: guarded) :=
        hx.resolveInside_segments hlinks' _ hs _
    _ = x.lookup source target ((module, name) :: guarded) :=
        x.resolveInside_single htarget.ne_self htarget.ne_super

/-! ## 1. Chains -/

/-- The links `(m i, a i)` for `i ≤ k`: every module `m i` imports the name `a i` as the next link,
    the last one as the absolute path `t`. -/
structure AliasChain (x : ScopeIndex) (k : Nat) (m a : Nat → String) (t : List String) : Prop where
  exists_module : ∀ i ≤ k, m i ∈ x.modules.keys
  distinct : ∀ i ≤ k, ∀ j ≤ k, m i = m j → a i = a j → i = j
  not_item : ∀ i ≤ k, x.item? (m i) (a i) = none
  link : ∀ i < k, x.import? (m i) (a i) =
    some ⟨"crate" :: (PathText.segments (m (i + 1)) ++ [a (i + 1)]), false⟩
  last : x.import? (m k) (a k) = some ⟨t, true⟩
  ne_nil : t ≠ []
  foreign : t.head? ≠ some "crate"

section Chain

variable {x : ScopeIndex} {k : Nat} {m a : Nat → String} {t : List String}

theorem AliasChain.isPlain (hx : x.WellFormed) (h : x.AliasChain k m a t) {i : Nat} (hi : i ≤ k) :
    IsPlain (a i) := by
  rcases Nat.lt_or_eq_of_le hi with hlt | rfl
  · exact hx.plain _ (import_mem_linkKeys (h.link i hlt))
  · exact hx.plain _ (import_mem_linkKeys h.last)

/-- A link is not under way where only earlier links are. -/
theorem AliasChain.not_mem_of_earlier (h : x.AliasChain k m a t) {i : Nat} (hi : i ≤ k)
    {guarded : Guard} (hg : ∀ key ∈ guarded, ∃ j < i, key = (m j, a j)) :
    (m i, a i) ∉ guarded := by
  intro hmem
  obtain ⟨j, hj, e⟩ := hg _ hmem
  have hmodule : m i = m j := congrArg Prod.fst e
  have hname : a i = a j := congrArg Prod.snd e
  have hij := h.distinct i hi j (by omega) hmodule hname
  omega

/-- The link at `i` leads to the end of the chain, where only earlier links are under way. -/
theorem AliasChain.lookupExplicit_eq (hx : x.WellFormed) (h : x.AliasChain k m a t) :
    ∀ (d i : Nat), i + d = k → ∀ guarded : Guard,
      (∀ key ∈ guarded, ∃ j < i, key = (m j, a j)) →
      x.lookupExplicit (m i) (a i) guarded = some t := by
  intro d
  -- on the number of links that follow
  induction d with
  | zero =>
    rintro i rfl guarded hg
    have hfree := h.not_mem_of_earlier (Nat.le_refl i) hg
    rw [x.lookupExplicit_import hfree (h.not_item i (Nat.le_refl _)) h.last]
    exact x.resolveWritten_leadingColon h.ne_nil
  | succ d ih =>
    intro i hk guarded hg
    have hi : i < k := by omega
    have hfree := h.not_mem_of_earlier (Nat.le_of_lt hi) hg
    have hg' : ∀ key ∈ (m i, a i) :: guarded, ∃ j < i + 1, key = (m j, a j) := by
      intro key hkey
      rcases List.mem_cons.mp hkey with rfl | hkey
      · exact ⟨i, Nat.lt_succ_self i, rfl⟩
      · obtain ⟨j, hj, e⟩ := hg key hkey
        exact ⟨j, Nat.lt_succ_of_lt hj, e⟩
    have hitems : ∀ key ∈ guarded, x.item? key.1 key.2 = none := by
      intro key hkey
      obtain ⟨j, hj, rfl⟩ := hg key hkey
      exact h.not_item j (by omega)
    rw [hx.lookupExplicit_link hfree hitems (h.not_item i (Nat.le_of_lt hi)) (h.link i hi)
      (h.exists_module (i + 1) hi) (h.isPlain hx hi)]
    exact x.lookup_of_explicit (ih (i + 1) (by omega) _ hg')

/-- **A chain of imports is transparent**: its first name, with any names behind it, denotes the
    path at its end with these names behind it. -/
theorem resolve_of_aliasChain (hx : x.WellFormed) (h : x.AliasChain k m a t)
    (rest : List String) : x.resolve (m 0) ⟨a 0 :: rest, false⟩ = some (t ++ rest) := by
  have hplain := h.isPlain hx (Nat.zero_le k)
  have hfirst : x.lookup (m 0) (a 0) [] = some t :=
    x.lookup_of_explicit (h.lookupExplicit_eq hx k 0 (Nat.zero_add k) [] (by simp))
  have hexternal : localModule? t = none := by
    obtain ⟨first, tail, rfl⟩ := List.exists_cons_of_ne_nil h.ne_nil
    have hne : first ≠ crateWord := fun e => h.foreign (congrArg some e)
    simp [localModule?, hne]
  unfold resolve
  rw [x.resolveWritten_name hplain.ne_crate hplain.ne_self hplain.ne_super, if_pos rfl, hfirst]
  exact x.descend_external hexternal

end Chain

/-- The index of a crate in which a marker is passed on from module to module: from `ui::kit`,
    through `ui` with its glob, to the root. -/
def ofReexports : ScopeIndex :=
  ((((({} : ScopeIndex).declare "" "ui" .submodule).declare "ui" "kit" .submodule).addImport
    "ui::kit" "log" ⟨["autolog", "auto_log_class"], true⟩).addImport
    "ui" "mark" ⟨["crate", "ui", "kit", "log"], false⟩).addGlob
    "ui" ⟨["tracing"], false⟩ |>.addImport "" "logged" ⟨["crate", "ui", "mark"], false⟩

theorem wellFormed_ofReexports : ofReexports.WellFormed where
  root := by decide
  declared := by
    have hkeys : ofReexports.modules.keys = ["", "ui", "ui::kit"] := by decide
    rw [hkeys]
    intro module hm hne
    simp only [List.mem_cons, List.not_mem_nil, or_false] at hm
    rcases hm with rfl | rfl | rfl
    · exact absurd rfl hne
    · exact ⟨"", by decide, "ui", .submodule, by decide, by decide, by simp⟩
    · exact ⟨"ui", by decide, "kit", .submodule, by decide, by decide, by simp⟩
  plain := by decide

theorem resolve_ofReexports :
    ofReexports.resolve "" ⟨["logged", "x"], false⟩ = some ["autolog", "auto_log_class", "x"] :=
  resolve_of_aliasChain (k := 2) (m := fun i => ["", "ui", "ui::kit"].getD i "")
    (a := fun i => ["logged", "mark", "log"].getD i "") (t := ["autolog", "auto_log_class"])
    wellFormed_ofReexports
    { exists_module := by decide, distinct := by decide, not_item := by decide, link := by decide,
      last := by decide, ne_nil := by decide, foreign := by decide } ["x"]

/-! ## 2. Cycles -/

/-- Links each of which imports another one of them, in modules without globs. -/
structure ClosedLinks (x : ScopeIndex) (links : List (String × String)) : Prop where
  exists_module : ∀ key ∈ links, key.1 ∈ x.modules.keys
  no_globs : ∀ key ∈ links, ∀ s ∈ x.scope? key.1, s.globs = []
  not_item : ∀ key ∈ links, x.item? key.1 key.2 = none
  link : ∀ key ∈ links, ∃ next ∈ links,
    x.import? key.1 key.2 = some ⟨"crate" :: (PathText.segments next.1 ++ [next.2]), false⟩

/-- The links `(m i, a i)` for `i < k`: every module `m i` imports the name `a i` as the next link,
    the last one as the first. The modules have no globs. -/
structure ImportCycle (x : ScopeIndex) (k : Nat) (m a : Nat → String) : Prop where
  exists_module : ∀ i < k, m i ∈ x.modules.keys
  no_globs : ∀ i < k, ∀ s ∈ x.scope? (m i), s.globs = []
  not_item : ∀ i < k, x.item? (m i) (a i) = none
  link : ∀ i < k, x.import? (m i) (a i) =
    some ⟨"crate" :: (PathText.segments (m ((i + 1) % k)) ++ [a ((i + 1) % k)]), false⟩

section Cycle

variable {x : ScopeIndex} {links : List (String × String)}

theorem ClosedLinks.isPlain (hx : x.WellFormed) (h : x.ClosedLinks links) {key : String × String}
    (hkey : key ∈ links) : IsPlain key.2 := by
  obtain ⟨next, -, hm⟩ := h.link key hkey
  exact hx.plain _ (import_mem_linkKeys hm)

/-- **Links that only lead to each other lead to nothing**, from whichever of them and however many
    were passed already. -/
theorem ClosedLinks.lookup_eq_none (hx : x.WellFormed) (h : x.ClosedLinks links)
    (guarded : Guard) (hg : guarded ⊆ links) {key : String × String} (hkey : key ∈ links) :
    x.lookup key.1 key.2 guarded = none := by
  -- on the number of links that were not passed
  induction hn : links.countP (· ∉ guarded) using Nat.strongRecOn generalizing guarded key with
  | ind n ih =>
    rw [x.lookup_of_no_globs (h.no_globs key hkey)]
    by_cases hmem : key ∈ guarded
    · exact x.lookupExplicit_guarded hmem
    obtain ⟨next, hnext, hlink⟩ := h.link key hkey
    rw [hx.lookupExplicit_link hmem (fun other hother => h.not_item other (hg hother))
      (h.not_item key hkey) hlink (h.exists_module next hnext) (h.isPlain hx hnext)]
    exact ih _ (hn ▸ countP_cons_guard_lt hkey hmem) (key :: guarded)
      (List.cons_subset.mpr ⟨hkey, hg⟩) hnext rfl

theorem ImportCycle.closedLinks {k : Nat} {m a : Nat → String} (h : x.ImportCycle k m a) :
    x.ClosedLinks ((List.range k).map fun i => (m i, a i)) where
  exists_module := by simpa using h.exists_module
  no_globs := by simpa using h.no_globs
  not_item := by simpa using h.not_item
  link := by
    simp only [List.mem_map, List.mem_range]
    rintro key ⟨i, hi, rfl⟩
    exact ⟨_, ⟨(i + 1) % k, Nat.mod_lt _ (Nat.zero_lt_of_lt hi), rfl⟩, h.link i hi⟩

/-- **A cycle of imports denotes nothing**, however long it is and through whichever modules it
    leads. -/
theorem resolve_of_importCycle (hx : x.WellFormed) {k : Nat} {m a : Nat → String}
    (h : x.ImportCycle k m a) {i : Nat} (hi : i < k) : x.resolve (m i) ⟨[a i], false⟩ = none := by
  have hclosed := h.closedLinks
  have hkey : (m i, a i) ∈ (List.range k).map fun i => (m i, a i) :=
    List.mem_map.mpr ⟨i, List.mem_range.mpr hi, rfl⟩
  have hplain := hclosed.isPlain hx hkey
  have hnone := hclosed.lookup_eq_none hx [] (List.nil_subset _) hkey
  unfold resolve
  rw [x.resolveWritten_name hplain.ne_crate hplain.ne_self hplain.ne_super, if_pos rfl, hnone]
  exact if_neg (by simp)

end Cycle

/-- The index of a crate whose root, `ui::kit` and `ui` pass a name on to each other, while
    `ui::kit::all` imports everything from `ui`. -/
def ofCircle : ScopeIndex :=
  ((((((({} : ScopeIndex).declare "" "ui" .submodule).declare "ui" "kit" .submodule).declare
    "ui::kit" "all" .submodule).addImport
    "" "mark" ⟨["crate", "ui", "kit", "log"], false⟩).addImport
    "ui::kit" "log" ⟨["crate", "ui", "marker"], false⟩).addImport
    "ui" "marker" ⟨["crate", "mark"], false⟩).addGlob "ui::kit::all" ⟨["crate", "ui"], false⟩

theorem wellFormed_ofCircle : ofCircle.WellFormed where
  root := by decide
  declared := by
    have hkeys : ofCircle.modules.keys = ["", "ui", "ui::kit", "ui::kit::all"] := by decide
    rw [hkeys]
    intro module hm hne
    simp only [List.mem_cons, List.not_mem_nil, or_false] at hm
    rcases hm with rfl | rfl | rfl | rfl
    · exact absurd rfl hne
    · exact ⟨"", by decide, "ui", .submodule, by decide, by decide, by simp⟩
    · exact ⟨"ui", by decide, "kit", .submodule, by decide, by decide, by simp⟩
    · exact ⟨"ui::kit", by decide, "all", .submodule, by decide, by decide, by simp⟩
  plain := by decide

theorem resolve_of_importCycle_ofCircle :
    ofCircle.resolve "ui::kit" ⟨["log"], false⟩ = none :=
  resolve_of_importCycle (k := 3) (m := fun i => ["", "ui::kit", "ui"].getD i "")
    (a := fun i => ["mark", "log", "marker"].getD i "") wellFormed_ofCircle
    { exists_module := by decide, no_globs := by decide, not_item := by decide, link := by decide }
    (i := 1) (by decide)

end ScopeIndex

end LogMarkers
