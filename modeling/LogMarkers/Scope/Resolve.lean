import LogMarkers.Scope.Basic

/-!
# Resolving paths

The canonical path of what a written path denotes in a module. The first name is looked up among

* the words for the crate, the module and its parent,
* the items and imports of the module, and its submodules,
* what it imports everything from, if exactly one of those can supply the name,

and otherwise, where more names follow, taken as the name of another crate. Imports and aliases are
followed; a `Guard` holds the lookups that are under way, and a lookup that comes back to itself
finds nothing.

Every step either shortens the path or adds to the guard a key that was not in it. The keys that
can still be added are finitely many (`ScopeIndex.openKeys`), so the recursion ends.
-/

namespace LogMarkers

/-- The lookups under way, as module and name; a lookup among the globs has a star before the
    name. -/
abbrev Guard := List (String × String)

/-- The key of a lookup of `name` among the globs of `module`. -/
def starKey (module name : String) : String × String := (module, "*" ++ name)

/-- Neighbours that are equal counted once. -/
def dedupAdjacent {α : Type} [DecidableEq α] : List α → List α
  | [] => []
  | [a] => [a]
  | a :: b :: rest => if a = b then dedupAdjacent (b :: rest) else a :: dedupAdjacent (b :: rest)

/-- The only element of a list. -/
def only? {α : Type} : List α → Option α
  | [a] => some a
  | _ => none

namespace ScopeIndex

/-! ## 1. The keys that can still be added -/

/-- The keys whose lookup leads to another path: imports and aliases. -/
def linkKeys (x : ScopeIndex) : List (String × String) :=
  x.modules.entries.flatMap fun (module, s) =>
    (s.items.keys ++ s.imports.keys).map fun name => (module, name)

/-- The paths that lookups lead to. -/
def linkPaths (x : ScopeIndex) : List WrittenPath :=
  x.modules.entries.flatMap fun (_, s) =>
    s.items.values.filterMap (fun
      | .typeAlias target => some target
      | _ => none) ++ s.imports.values ++ s.globs

/-- The names that occur in these paths. -/
def linkNames (x : ScopeIndex) : List String := x.linkPaths.flatMap (·.segments)

/-- The star keys of all modules for the names of the index and those of `extra`. -/
def starKeys (x : ScopeIndex) (extra : List String) : List (String × String) :=
  x.modules.keys.flatMap fun module =>
    (x.linkNames ++ extra.filter (· ∉ x.linkNames)).map (starKey module)

/-- The number of keys that are not in the guard, where names of `extra` can still be looked up. -/
def openKeys (x : ScopeIndex) (guarded : Guard) (extra : List String) : Nat :=
  x.linkKeys.countP (· ∉ guarded) + (x.starKeys extra).countP (· ∉ guarded)

theorem countP_cons_guard_le (keys : List (String × String)) (guarded : Guard)
    (k : String × String) : keys.countP (· ∉ k :: guarded) ≤ keys.countP (· ∉ guarded) :=
  List.countP_mono_left fun a _ h => by
    simp only [List.mem_cons, not_or, decide_eq_true_eq] at h ⊢
    exact h.2

theorem countP_cons_guard_lt {keys : List (String × String)} {guarded : Guard}
    {k : String × String} (hk : k ∈ keys) (hg : k ∉ guarded) :
    keys.countP (· ∉ k :: guarded) < keys.countP (· ∉ guarded) := by
  induction keys with
  | nil => simp at hk
  | cons a rest ih =>
    rw [List.countP_cons, List.countP_cons]
    by_cases ha : a = k
    · subst ha
      have := countP_cons_guard_le rest guarded a
      simpa [hg] using Nat.lt_succ_of_le this
    · have hr : k ∈ rest := (List.mem_cons.mp hk).resolve_left (Ne.symm ha)
      have := ih hr
      by_cases hm : a ∈ guarded <;> simp_all

theorem flatMap_sublist {α β : Type} {f g : α → List β} (h : ∀ a, (f a).Sublist (g a)) :
    ∀ l : List α, (l.flatMap f).Sublist (l.flatMap g)
  | [] => .slnil
  | a :: rest => by
    simp only [List.flatMap_cons]
    exact (h a).append (flatMap_sublist h rest)

theorem starKeys_sublist (x : ScopeIndex) {e₁ e₂ : List String}
    (h : (e₁.filter (· ∉ x.linkNames)).Sublist (e₂.filter (· ∉ x.linkNames))) :
    (x.starKeys e₁).Sublist (x.starKeys e₂) :=
  flatMap_sublist (fun _ => ((List.Sublist.refl _).append h).map _) _

/-- Fewer names to look up leave no more open keys. -/
theorem openKeys_le (x : ScopeIndex) (guarded : Guard) {e₁ e₂ : List String}
    (h : e₁.Sublist e₂) : x.openKeys guarded e₁ ≤ x.openKeys guarded e₂ :=
  Nat.add_le_add_left ((x.starKeys_sublist (h.filter _)).countP_le) _

theorem filter_linkNames_eq_nil {x : ScopeIndex} {e : List String}
    (h : ∀ s ∈ e, s ∈ x.linkNames) : e.filter (· ∉ x.linkNames) = [] := by
  rw [List.filter_eq_nil_iff]
  intro s hs
  simp [h s hs]

/-- Following a link of the index closes its key. -/
theorem openKeys_link_lt {x : ScopeIndex} {guarded : Guard} {k : String × String}
    {e₁ e₂ : List String} (hk : k ∈ x.linkKeys) (hg : k ∉ guarded)
    (h : ∀ s ∈ e₁, s ∈ x.linkNames) : x.openKeys (k :: guarded) e₁ < x.openKeys guarded e₂ := by
  have h₁ := countP_cons_guard_lt hk hg
  have hs : (x.starKeys e₁).Sublist (x.starKeys e₂) :=
    x.starKeys_sublist (by rw [filter_linkNames_eq_nil h]; exact List.nil_sublist _)
  have h₂ := countP_cons_guard_le (x.starKeys e₁) guarded k
  have h₃ := hs.countP_le (p := fun a => decide (a ∉ guarded))
  simp only [openKeys]
  omega

theorem starKey_mem {x : ScopeIndex} {module name : String} (h : module ∈ x.modules.keys) :
    starKey module name ∈ x.starKeys [name] := by
  simp only [starKeys, List.mem_flatMap, List.mem_map]
  refine ⟨module, h, name, ?_, rfl⟩
  by_cases hn : name ∈ x.linkNames <;> simp [hn]

/-- Looking into the globs of a module closes the star key of the name. -/
theorem openKeys_star_lt {x : ScopeIndex} {guarded : Guard} {module name : String}
    {e : List String} (hm : module ∈ x.modules.keys) (hg : starKey module name ∉ guarded)
    (h : (e.filter (· ∉ x.linkNames)).Sublist ([name].filter (· ∉ x.linkNames))) :
    x.openKeys (starKey module name :: guarded) e < x.openKeys guarded [name] := by
  have h₁ := countP_cons_guard_le x.linkKeys guarded (starKey module name)
  have h₂ := (x.starKeys_sublist h).countP_le
    (p := fun a => decide (a ∉ starKey module name :: guarded))
  have h₃ : (x.starKeys [name]).countP (· ∉ starKey module name :: guarded)
      < (x.starKeys [name]).countP (· ∉ guarded) := countP_cons_guard_lt (starKey_mem hm) hg
  simp only [openKeys]
  omega

/-! ## 2. The links of the index -/

theorem mem_entries_of_scope? {x : ScopeIndex} {module : String} {s : ModuleScope}
    (h : x.scope? module = some s) : (module, s) ∈ x.modules.entries := Table.mem_of_lookup h

theorem mem_keys_of_scope? {x : ScopeIndex} {module : String} {s : ModuleScope}
    (h : x.scope? module = some s) : module ∈ x.modules.keys :=
  List.mem_map.mpr ⟨_, mem_entries_of_scope? h, rfl⟩

theorem mem_linkNames {x : ScopeIndex} {p : WrittenPath} (h : p ∈ x.linkPaths) :
    ∀ s ∈ p.segments, s ∈ x.linkNames := fun _ hs => List.mem_flatMap.mpr ⟨p, h, hs⟩

theorem glob_mem_linkPaths {x : ScopeIndex} {module : String} {s : ModuleScope} {p : WrittenPath}
    (h : x.scope? module = some s) (hp : p ∈ s.globs) : p ∈ x.linkPaths :=
  List.mem_flatMap.mpr ⟨_, mem_entries_of_scope? h, List.mem_append_right _ hp⟩

theorem import_mem_linkPaths {x : ScopeIndex} {module name : String} {p : WrittenPath}
    (h : x.import? module name = some p) : p ∈ x.linkPaths := by
  obtain ⟨s, hs, hp⟩ := Option.bind_eq_some_iff.mp h
  refine List.mem_flatMap.mpr ⟨_, mem_entries_of_scope? hs, List.mem_append_left _ ?_⟩
  exact List.mem_append_right _ (List.mem_map.mpr ⟨_, Table.mem_of_lookup hp, rfl⟩)

theorem alias_mem_linkPaths {x : ScopeIndex} {module name : String} {p : WrittenPath}
    (h : x.item? module name = some (.typeAlias p)) : p ∈ x.linkPaths := by
  obtain ⟨s, hs, hp⟩ := Option.bind_eq_some_iff.mp h
  refine List.mem_flatMap.mpr ⟨_, mem_entries_of_scope? hs, List.mem_append_left _ ?_⟩
  refine List.mem_append_left _ (List.mem_filterMap.mpr ⟨.typeAlias p, ?_, rfl⟩)
  exact List.mem_map.mpr ⟨_, Table.mem_of_lookup hp, rfl⟩

theorem import_mem_linkKeys {x : ScopeIndex} {module name : String} {p : WrittenPath}
    (h : x.import? module name = some p) : (module, name) ∈ x.linkKeys := by
  obtain ⟨s, hs, hp⟩ := Option.bind_eq_some_iff.mp h
  refine List.mem_flatMap.mpr ⟨_, mem_entries_of_scope? hs, List.mem_map.mpr ⟨name, ?_, rfl⟩⟩
  exact List.mem_append_right _ (List.mem_map.mpr ⟨_, Table.mem_of_lookup hp, rfl⟩)

theorem item_mem_linkKeys {x : ScopeIndex} {module name : String} {k : ItemKind}
    (h : x.item? module name = some k) : (module, name) ∈ x.linkKeys := by
  obtain ⟨s, hs, hp⟩ := Option.bind_eq_some_iff.mp h
  refine List.mem_flatMap.mpr ⟨_, mem_entries_of_scope? hs, List.mem_map.mpr ⟨name, ?_, rfl⟩⟩
  exact List.mem_append_left _ (List.mem_map.mpr ⟨_, Table.mem_of_lookup hp, rfl⟩)

/-! ## 3. Resolving -/

/-- What stands after the word for the crate in a canonical path of the crate itself. -/
def localModule? : List String → Option String
  | first :: rest => if first = crateWord then some (PathText.join rest) else none
  | [] => none

/-- A measure decreases when its first part does not grow and the rest decreases. -/
theorem lex_of_le {β : Type} {r : β → β → Prop} {m n : Nat} {a b : β} (h : m ≤ n) (hr : r a b) :
    Prod.Lex (· < ·) r (m, a) (n, b) := by
  rcases Nat.lt_or_eq_of_le h with hlt | rfl
  · exact .left _ _ hlt
  · exact .right _ hr

mutual

/-- The canonical path of a path written in a module. An unbound single name is another crate if
    `bareIsExternal`; the globs of the module can bind the first name if `useGlobs`. -/
def resolveWritten (x : ScopeIndex) (module : String) (path : WrittenPath)
    (bareIsExternal useGlobs : Bool) (guarded : Guard) : Option (List String) :=
  if path.leadingColon then
    if path.segments = [] then none else some path.segments
  else
    match _h : path.segments with
    | [] => none
    | first :: rest =>
      if first = "crate" then x.resolveInside "" rest guarded
      else if first = "self" then x.resolveInside module rest guarded
      else if first = "super" then
        match parentModule? module with
        | none => none
        | some parent => x.resolveInside parent rest guarded
      else
        let found :=
          if useGlobs then x.lookup module first guarded
          else x.lookupExplicit module first guarded
        match found with
        | some base => x.descend base rest guarded
        | none => if rest ≠ [] ∨ bareIsExternal then some path.segments else none
termination_by (x.openKeys guarded path.segments, path.segments.length, 2)
decreasing_by
  all_goals
    rw [_h]
  · exact lex_of_le (x.openKeys_le _ (List.sublist_cons_self _ _)) (.left _ _ (by simp))
  · exact lex_of_le (x.openKeys_le _ (List.sublist_cons_self _ _)) (.left _ _ (by simp))
  · exact lex_of_le (x.openKeys_le _ (List.sublist_cons_self _ _)) (.left _ _ (by simp))
  · exact lex_of_le (x.openKeys_le _ (by simp)) (.left _ _ (by simp))
  · exact lex_of_le (x.openKeys_le _ (by simp)) (.left _ _ (by simp))
  · exact lex_of_le (x.openKeys_le _ (List.sublist_cons_self _ _)) (.left _ _ (by simp))

/-- The canonical path of names that start inside a module. -/
def resolveInside (x : ScopeIndex) (module : String) (segments : List String) (guarded : Guard) :
    Option (List String) :=
  match segments with
  | [] => some (modulePath module)
  | first :: rest =>
    if first = "self" then x.resolveInside module rest guarded
    else if first = "super" then
      match parentModule? module with
      | none => none
      | some parent => x.resolveInside parent rest guarded
    else
      match x.lookup module first guarded with
      | none => none
      | some base => x.descend base rest guarded
termination_by (x.openKeys guarded segments, segments.length, 0)
decreasing_by
  · exact lex_of_le (x.openKeys_le _ (List.sublist_cons_self _ _)) (.left _ _ (by simp))
  · exact lex_of_le (x.openKeys_le _ (List.sublist_cons_self _ _)) (.left _ _ (by simp))
  · exact lex_of_le (x.openKeys_le _ (by simp)) (.left _ _ (by simp))
  · exact lex_of_le (x.openKeys_le _ (List.sublist_cons_self _ _)) (.left _ _ (by simp))

/-- The canonical path of names that follow a resolved path: inside its module, or just appended to
    a path that is no module of the crate. -/
def descend (x : ScopeIndex) (base rest : List String) (guarded : Guard) : Option (List String) :=
  if rest = [] then some base
  else
    match localModule? base with
    | some module =>
      if x.isModule module then x.resolveInside module rest guarded else some (base ++ rest)
    | none => some (base ++ rest)
termination_by (x.openKeys guarded rest, rest.length, 1)
decreasing_by exact .right _ (.right _ (by decide))

/-- A name as seen from a module: declared or imported there, or supplied by exactly one glob. -/
def lookup (x : ScopeIndex) (module name : String) (guarded : Guard) : Option (List String) :=
  match x.lookupExplicit module name guarded with
  | some found => some found
  | none =>
    match _h : x.scope? module with
    | none => none
    | some s =>
      if _hg : starKey module name ∈ guarded then none
      else
        only? (dedupAdjacent (s.globs.attach.filterMap fun ⟨glob, _hp⟩ =>
          match x.resolveWritten module glob true false (starKey module name :: guarded) with
          | none => none
          | some base =>
            match localModule? base with
            | some source => x.lookupExplicit source name (starKey module name :: guarded)
            | none => some (base ++ [name])))
termination_by (x.openKeys guarded [name], 0, 1)
decreasing_by
  · exact .right _ (.right _ (by decide))
  · refine .left _ _ (openKeys_star_lt (mem_keys_of_scope? _h) _hg ?_)
    rw [filter_linkNames_eq_nil (mem_linkNames (glob_mem_linkPaths _h _hp))]
    exact List.nil_sublist _
  · exact .left _ _ (openKeys_star_lt (mem_keys_of_scope? _h) _hg (List.Sublist.refl _))

/-- A name declared or imported in a module, or a module inside it. -/
def lookupExplicit (x : ScopeIndex) (module name : String) (guarded : Guard) :
    Option (List String) :=
  if _hg : (module, name) ∈ guarded then none
  else
    match _hi : x.item? module name with
    | some (.typeAlias target) =>
      match x.resolveWritten module target false true ((module, name) :: guarded) with
      | some found => some found
      | none => some (itemPath module name)
    | some _ => some (itemPath module name)
    | none =>
      match _hm : x.import? module name with
      | some target => x.resolveWritten module target true true ((module, name) :: guarded)
      | none =>
        if x.modules.contains (PathText.within module name) then some (itemPath module name)
        else none
termination_by (x.openKeys guarded [name], 0, 0)
decreasing_by
  · exact .left _ _ (openKeys_link_lt (item_mem_linkKeys _hi) _hg
      (mem_linkNames (alias_mem_linkPaths _hi)))
  · exact .left _ _ (openKeys_link_lt (import_mem_linkKeys _hm) _hg
      (mem_linkNames (import_mem_linkPaths _hm)))

end

/-- The canonical path of a path written in a module. -/
def resolve (x : ScopeIndex) (module : String) (path : WrittenPath) : Option (List String) :=
  x.resolveWritten module path false true []

end ScopeIndex

end LogMarkers
