import LogMarkers.Scope.Resolve

/-!
# The steps of name resolution

What each function of `Scope/Resolve` does in each of its situations, as equations that later files
cite instead of unfolding the functions, and what every result has in common.

* `lookup_eq`: a lookup is the explicit one, else the only candidate of the globs
  (`globCandidate?`); `only?_dedupAdjacent_eq_some_iff` says when there is one.
* `resolve_eq_self`: a path whose first name nothing in the module has denotes itself.
* `Stepwise` is what an induction over the calls of the five functions asks of each of them, and
  `Stepwise.written` with the four beside it is that induction.
* `ResultClosed` collects what properties of names, modules and canonical paths have to satisfy to
  hold of all results, and `resolveWritten_closed` says that they do, by one step lemma for each
  function. `resolveWritten_ne_nil` is its first use: no path resolves to the empty one.
-/

namespace LogMarkers

/-! ## 1. The only element -/

theorem dedupAdjacent_ne_nil {α : Type} [DecidableEq α] {l : List α} (h : l ≠ []) :
    dedupAdjacent l ≠ [] := by
  fun_induction dedupAdjacent l with
  | case1 => exact h
  | case2 a => simp
  | case3 a rest ih => exact ih (by simp)
  | case4 a b rest hab ih => simp

/-- Elements that are all equal count once, and only they do. -/
theorem dedupAdjacent_eq_singleton_iff {α : Type} [DecidableEq α] {l : List α} {a : α} :
    dedupAdjacent l = [a] ↔ l ≠ [] ∧ ∀ b ∈ l, b = a := by
  fun_induction dedupAdjacent l with
  | case1 => simp
  | case2 b => simp
  | case3 b rest ih =>
    rw [ih]
    simp
  | case4 b c rest hbc ih =>
    constructor
    · intro h
      have hnil := (List.cons.inj h).2
      exact absurd hnil (dedupAdjacent_ne_nil (by simp))
    · rintro ⟨-, h⟩
      have hb : b = a := h b (by simp)
      have hc : c = a := h c (by simp)
      exact absurd (hb.trans hc.symm) hbc

theorem only?_eq_some_iff {α : Type} {l : List α} {a : α} : only? l = some a ↔ l = [a] := by
  unfold only?
  split
  · simp
  · rename_i h
    constructor
    · intro e
      cases e
    · intro e
      exact absurd e (h a)

/-- **There is an only candidate when all candidates are equal**, and it is that one. -/
theorem only?_dedupAdjacent_eq_some_iff {α : Type} [DecidableEq α] {l : List α} {a : α} :
    only? (dedupAdjacent l) = some a ↔ l ≠ [] ∧ ∀ b ∈ l, b = a := by
  rw [only?_eq_some_iff, dedupAdjacent_eq_singleton_iff]

namespace ScopeIndex

/-! ## 2. The functions step by step -/

@[simp] theorem localModule?_crate (names : List String) :
    localModule? (crateWord :: names) = some (PathText.join names) := by
  simp [localModule?]

section Steps

variable (x : ScopeIndex) {module name : String} {rest : List String} {guarded : Guard}
  {bare globs : Bool}

/-- What a glob of a module offers for a name: the name in the module it stands for, or the name
    behind a path of another crate. -/
def globCandidate? (module name : String) (guarded : Guard) (glob : WrittenPath) :
    Option (List String) :=
  match x.resolveWritten module glob true false (starKey module name :: guarded) with
  | none => none
  | some base =>
    match localModule? base with
    | some source => x.lookupExplicit source name (starKey module name :: guarded)
    | none => some (base ++ [name])

@[simp] theorem resolveWritten_nil {leading : Bool} :
    x.resolveWritten module ⟨[], leading⟩ bare globs guarded = none := by
  rw [resolveWritten]
  simp

theorem resolveWritten_leadingColon {segments : List String} (h : segments ≠ []) :
    x.resolveWritten module ⟨segments, true⟩ bare globs guarded = some segments := by
  rw [resolveWritten]
  simp [h]

@[simp] theorem resolveWritten_crate :
    x.resolveWritten module ⟨"crate" :: rest, false⟩ bare globs guarded =
      x.resolveInside "" rest guarded := by
  rw [resolveWritten]
  simp

@[simp] theorem resolveWritten_self :
    x.resolveWritten module ⟨"self" :: rest, false⟩ bare globs guarded =
      x.resolveInside module rest guarded := by
  rw [resolveWritten]
  simp

@[simp] theorem resolveWritten_super :
    x.resolveWritten module ⟨"super" :: rest, false⟩ bare globs guarded =
      (parentModule? module).bind (x.resolveInside · rest guarded) := by
  rw [resolveWritten]
  simp only [Bool.false_eq_true, String.reduceEq, ↓reduceIte]
  cases parentModule? module <;> rfl

/-- A first name that is none of the three words is looked up; if nothing binds it, the path is one
    of another crate. -/
theorem resolveWritten_name (hc : name ≠ "crate") (hs : name ≠ "self") (hp : name ≠ "super") :
    x.resolveWritten module ⟨name :: rest, false⟩ bare globs guarded =
      match (if globs then x.lookup module name guarded
        else x.lookupExplicit module name guarded) with
      | some base => x.descend base rest guarded
      | none => if rest ≠ [] ∨ bare then some (name :: rest) else none := by
  rw [resolveWritten, if_neg Bool.false_ne_true]
  show (if name = "crate" then _ else _) = _
  exact (if_neg hc).trans ((if_neg hs).trans (if_neg hp))

@[simp] theorem resolveInside_nil :
    x.resolveInside module [] guarded = some (modulePath module) := by
  rw [resolveInside]

@[simp] theorem resolveInside_self :
    x.resolveInside module ("self" :: rest) guarded = x.resolveInside module rest guarded := by
  rw [resolveInside]
  simp

@[simp] theorem resolveInside_super :
    x.resolveInside module ("super" :: rest) guarded =
      (parentModule? module).bind (x.resolveInside · rest guarded) := by
  rw [resolveInside]
  simp only [String.reduceEq, ↓reduceIte]
  cases parentModule? module <;> rfl

theorem resolveInside_name (hs : name ≠ "self") (hp : name ≠ "super") :
    x.resolveInside module (name :: rest) guarded =
      (x.lookup module name guarded).bind (x.descend · rest guarded) := by
  rw [resolveInside]
  simp only [hs, hp, ↓reduceIte]
  cases x.lookup module name guarded <;> rfl

@[simp] theorem descend_nil (base : List String) : x.descend base [] guarded = some base := by
  rw [descend]
  simp

/-- A single name inside a module is looked up there. -/
theorem resolveInside_single (hs : name ≠ "self") (hp : name ≠ "super") :
    x.resolveInside module [name] guarded = x.lookup module name guarded := by
  simp [resolveInside_name x hs hp]

/-- A single name is looked up in the module it is written in. -/
theorem resolve_single (hc : name ≠ "crate") (hs : name ≠ "self") (hp : name ≠ "super") :
    x.resolve module ⟨[name], false⟩ = x.lookup module name [] := by
  unfold resolve
  rw [resolveWritten_name x hc hs hp, if_pos rfl]
  cases x.lookup module name [] <;> simp

/-- Behind a path of another crate the names are appended. -/
theorem descend_external {base : List String} (h : localModule? base = none) :
    x.descend base rest guarded = some (base ++ rest) := by
  rw [descend]
  split
  · rename_i e
    simp [e]
  · rw [h]

theorem descend_module {base : List String} (hrest : rest ≠ [])
    (h : localModule? base = some module) (hm : x.isModule module = true) :
    x.descend base rest guarded = x.resolveInside module rest guarded := by
  rw [descend]
  simp [hrest, h, hm]

/-- Behind a path of the crate that is no module the names are appended. -/
theorem descend_of_not_module {base : List String} (h : localModule? base = some module)
    (hm : x.isModule module = false) : x.descend base rest guarded = some (base ++ rest) := by
  rw [descend]
  split
  · rename_i e
    simp [e]
  · simp [h, hm]

theorem lookup_eq :
    x.lookup module name guarded =
      match x.lookupExplicit module name guarded with
      | some found => some found
      | none =>
        match x.scope? module with
        | none => none
        | some s =>
          if starKey module name ∈ guarded then none
          else only? (dedupAdjacent (s.globs.filterMap (x.globCandidate? module name guarded))) := by
  rw [lookup]
  cases he : x.lookupExplicit module name guarded with
  | some found => rfl
  | none =>
    simp only
    split
    · rename_i h
      simp only [h]
    · rename_i s h
      simp only [h]
      split
      · rfl
      · conv => rhs; rw [← List.attach_map_subtype_val s.globs, List.filterMap_map]
        rfl

theorem lookup_of_explicit {found : List String}
    (h : x.lookupExplicit module name guarded = some found) :
    x.lookup module name guarded = some found := by
  rw [lookup_eq, h]

/-- Without globs a name is only looked up in the module itself. -/
theorem lookup_of_no_globs (h : ∀ s ∈ x.scope? module, s.globs = []) :
    x.lookup module name guarded = x.lookupExplicit module name guarded := by
  rw [lookup_eq]
  cases x.lookupExplicit module name guarded with
  | some found => rfl
  | none =>
    cases hs : x.scope? module with
    | none => rfl
    | some s =>
      dsimp only
      rw [h s hs]
      exact ite_self _

theorem lookupExplicit_guarded (h : (module, name) ∈ guarded) :
    x.lookupExplicit module name guarded = none := by
  rw [lookupExplicit]
  simp [h]

/-- A declared name that is no alias stands for itself. -/
theorem lookupExplicit_item (hg : (module, name) ∉ guarded) {kind : ItemKind}
    (hi : x.item? module name = some kind) (hk : ∀ target, kind ≠ .typeAlias target) :
    x.lookupExplicit module name guarded = some (itemPath module name) := by
  rw [lookupExplicit]
  simp only [hg, ↓reduceDIte]
  split <;> rename_i e
  · rw [hi] at e
    exact absurd (Option.some.inj e) (hk _)
  · rfl
  · rw [hi] at e
    cases e

/-- An alias stands for what its path resolves to, and for itself where that is nothing. -/
theorem lookupExplicit_alias (hg : (module, name) ∉ guarded) {target : WrittenPath}
    (hi : x.item? module name = some (.typeAlias target)) :
    x.lookupExplicit module name guarded =
      some ((x.resolveWritten module target false true ((module, name) :: guarded)).getD
        (itemPath module name)) := by
  rw [lookupExplicit]
  simp only [hg, ↓reduceDIte]
  split <;> rename_i e
  · rw [hi] at e
    cases e
    split <;> rename_i h <;> rw [h] <;> rfl
  · rename_i hk
    rw [hi] at e
    exact absurd (Option.some.inj e).symm (hk target)
  · rw [hi] at e
    cases e

/-- An imported name stands for what the import resolves to. -/
theorem lookupExplicit_import (hg : (module, name) ∉ guarded)
    (hi : x.item? module name = none) {target : WrittenPath}
    (hm : x.import? module name = some target) :
    x.lookupExplicit module name guarded =
      x.resolveWritten module target true true ((module, name) :: guarded) := by
  rw [lookupExplicit]
  simp only [hg, ↓reduceDIte]
  split <;> rename_i e
  · rw [hi] at e
    cases e
  · rw [hi] at e
    cases e
  · split <;> rename_i e'
    · rw [hm] at e'
      cases e'
      rfl
    · rw [hm] at e'
      cases e'

/-- A name that is neither declared nor imported can still be a module inside the module. -/
theorem lookupExplicit_child (hg : (module, name) ∉ guarded) (hi : x.item? module name = none)
    (hm : x.import? module name = none) :
    x.lookupExplicit module name guarded =
      if x.modules.contains (PathText.within module name) then some (itemPath module name)
      else none := by
  rw [lookupExplicit]
  simp only [hg, ↓reduceDIte]
  split <;> rename_i e
  · rw [hi] at e
    cases e
  · rw [hi] at e
    cases e
  · split <;> rename_i e'
    · rw [hm] at e'
      cases e'
    · rfl

/-- A path denotes itself where its first name is neither declared nor imported, nor a module, and
    there are no globs. -/
theorem resolve_eq_self (hc : name ≠ "crate") (hs : name ≠ "self") (hp : name ≠ "super")
    (hrest : rest ≠ []) (hi : x.item? module name = none) (hm : x.import? module name = none)
    (hchild : x.modules.contains (PathText.within module name) = false)
    (hglobs : ∀ s ∈ x.scope? module, s.globs = []) :
    x.resolve module ⟨name :: rest, false⟩ = some (name :: rest) := by
  have hlookup : x.lookup module name [] = none := by
    rw [lookup_of_no_globs x hglobs, lookupExplicit_child x List.not_mem_nil hi hm, hchild]
    rfl
  unfold resolve
  rw [resolveWritten_name x hc hs hp, if_pos rfl, hlookup]
  simp [hrest]

end Steps

/-! ## 3. Induction over the calls -/

/-- Statements about the calls of the five functions, each of which follows from the statements
    about the calls that are made next: of a written path (`W`), of names inside a module (`I`), of
    names behind a resolved path (`D`), and of a name in a module with its globs (`L`) and without
    them (`E`). -/
structure Stepwise (x : ScopeIndex) (W : String → WrittenPath → Bool → Bool → Guard → Prop)
    (I : String → List String → Guard → Prop) (D : List String → List String → Guard → Prop)
    (L E : String → String → Guard → Prop) : Prop where
  absolute : ∀ module segments bare globs guarded, W module ⟨segments, true⟩ bare globs guarded
  blank : ∀ module bare globs guarded, W module ⟨[], false⟩ bare globs guarded
  relative : ∀ {module first rest bare globs guarded}, (∀ m, I m rest guarded) →
    L module first guarded → E module first guarded → (∀ base, D base rest guarded) →
    W module ⟨first :: rest, false⟩ bare globs guarded
  arrived : ∀ module guarded, I module [] guarded
  within : ∀ {module first rest guarded}, (∀ m, I m rest guarded) → L module first guarded →
    (∀ base, D base rest guarded) → I module (first :: rest) guarded
  behind : ∀ {base rest guarded}, (∀ m, I m rest guarded) → D base rest guarded
  /-- The globs of a module are searched under the star key of the name. -/
  seen : ∀ {module name guarded}, E module name guarded →
    (∀ s, x.scope? module = some s → starKey module name ∉ guarded →
      (∀ glob ∈ s.globs, W module glob true false (starKey module name :: guarded)) ∧
      ∀ source, E source name (starKey module name :: guarded)) →
    L module name guarded
  /-- Aliases and imports are followed under the key of the name. -/
  bound : ∀ {module name guarded},
    (∀ target, (module, name) ∉ guarded → x.item? module name = some (.typeAlias target) →
      W module target false true ((module, name) :: guarded)) →
    (∀ target, (module, name) ∉ guarded → x.import? module name = some target →
      W module target true true ((module, name) :: guarded)) →
    E module name guarded

namespace Stepwise

variable {x : ScopeIndex} {W : String → WrittenPath → Bool → Bool → Guard → Prop}
  {I : String → List String → Guard → Prop} {D : List String → List String → Guard → Prop}
  {L E : String → String → Guard → Prop} (h : x.Stepwise W I D L E)
include h

-- the calls end as those of the functions do: each is smaller in the keys that are left, then in
-- the names, then in the order explicit, lookup, inside, behind, written
mutual

theorem written (module : String) (path : WrittenPath) (bare globs : Bool) (guarded : Guard) :
    W module path bare globs guarded :=
  match path with
  | ⟨segments, true⟩ => h.absolute module segments bare globs guarded
  | ⟨[], false⟩ => h.blank module bare globs guarded
  | ⟨first :: rest, false⟩ =>
    h.relative (fun m => inside m rest guarded) (lookedUp module first guarded)
      (explicit module first guarded) (fun base => descended base rest guarded)
termination_by (x.openKeys guarded path.segments, path.segments.length, 2)
decreasing_by
  · exact lex_of_le (x.openKeys_le _ (List.sublist_cons_self _ _)) (.left _ _ (by simp))
  · exact lex_of_le (x.openKeys_le _ (by simp)) (.left _ _ (by simp))
  · exact lex_of_le (x.openKeys_le _ (by simp)) (.left _ _ (by simp))
  · exact lex_of_le (x.openKeys_le _ (List.sublist_cons_self _ _)) (.left _ _ (by simp))

theorem inside (module : String) (segments : List String) (guarded : Guard) :
    I module segments guarded :=
  match segments with
  | [] => h.arrived module guarded
  | first :: rest =>
    h.within (fun m => inside m rest guarded) (lookedUp module first guarded)
      (fun base => descended base rest guarded)
termination_by (x.openKeys guarded segments, segments.length, 0)
decreasing_by
  · exact lex_of_le (x.openKeys_le _ (List.sublist_cons_self _ _)) (.left _ _ (by simp))
  · exact lex_of_le (x.openKeys_le _ (by simp)) (.left _ _ (by simp))
  · exact lex_of_le (x.openKeys_le _ (List.sublist_cons_self _ _)) (.left _ _ (by simp))

theorem descended (base rest : List String) (guarded : Guard) : D base rest guarded :=
  h.behind fun m => inside m rest guarded
termination_by (x.openKeys guarded rest, rest.length, 1)
decreasing_by exact .right _ (.right _ (by decide))

theorem lookedUp (module name : String) (guarded : Guard) : L module name guarded :=
  h.seen (explicit module name guarded) fun _ _hs _hg =>
    ⟨fun glob _hglob => written module glob true false _, fun source => explicit source name _⟩
termination_by (x.openKeys guarded [name], 0, 1)
decreasing_by
  · exact .right _ (.right _ (by decide))
  · refine .left _ _ (openKeys_star_lt (mem_keys_of_scope? _hs) _hg ?_)
    rw [filter_linkNames_eq_nil (mem_linkNames (glob_mem_linkPaths _hs _hglob))]
    exact List.nil_sublist _
  · exact .left _ _ (openKeys_star_lt (mem_keys_of_scope? _hs) _hg (List.Sublist.refl _))

theorem explicit (module name : String) (guarded : Guard) : E module name guarded :=
  h.bound (fun target _hg _hi => written module target false true _)
    (fun target _hg _hm => written module target true true _)
termination_by (x.openKeys guarded [name], 0, 0)
decreasing_by
  · exact .left _ _ (openKeys_link_lt (item_mem_linkKeys _hi) _hg
      (mem_linkNames (alias_mem_linkPaths _hi)))
  · exact .left _ _ (openKeys_link_lt (import_mem_linkKeys _hm) _hg
      (mem_linkNames (import_mem_linkPaths _hm)))

end

end Stepwise

/-! ## 4. What all results have in common -/

/-- Lookups follow this path: that of a glob, of an alias, or of an import of a name that its module
    does not declare. -/
inductive Follows (x : ScopeIndex) : WrittenPath → Prop where
  | glob {module : String} {s : ModuleScope} {path : WrittenPath} (hs : x.scope? module = some s)
      (hg : path ∈ s.globs) : Follows x path
  | aliased {module name : String} {path : WrittenPath}
      (hi : x.item? module name = some (.typeAlias path)) : Follows x path
  | imported {module name : String} {path : WrittenPath} (hself : name ≠ "self")
      (hsuper : name ≠ "super") (hi : x.item? module name = none)
      (hm : x.import? module name = some path) : Follows x path

theorem Follows.mem_linkPaths {x : ScopeIndex} {p : WrittenPath} (h : x.Follows p) :
    p ∈ x.linkPaths := by
  cases h with
  | glob hs hg => exact glob_mem_linkPaths hs hg
  | aliased hi => exact alias_mem_linkPaths hi
  | imported _ _ _ hm => exact import_mem_linkPaths hm

/-- Properties of looked up names (`N`), of modules that are entered (`M`) and of canonical paths
    (`P`) that every step of resolution keeps. Paths with a leading double colon are taken as they
    are, so the last property is asked of them where they are written. -/
structure ResultClosed (x : ScopeIndex) (N : String → Prop) (M : String → Prop)
    (P : List String → Prop) : Prop where
  linked : ∀ p, x.Follows p → ∀ name ∈ p.segments, N name
  known : ∀ module ∈ x.modules.keys, M module
  root : M ""
  parent : ∀ module parent, M module → parentModule? module = some parent → M parent
  enter : ∀ base module, P base → localModule? base = some module →
    x.isModule module = true → M module
  absolute : ∀ p, x.Follows p → p.leadingColon = true → p.segments ≠ [] → P p.segments
  external : ∀ first rest, N first → first ≠ "crate" → first ≠ "self" → first ≠ "super" →
    P (first :: rest)
  inside : ∀ module, M module → P (modulePath module)
  item : ∀ module name kind, x.item? module name = some kind →
    (∀ target, kind ≠ .typeAlias target) → P (itemPath module name)
  /-- An alias stands for itself where its path names nothing. -/
  unresolved : ∀ module name target guarded, x.item? module name = some (.typeAlias target) →
    x.resolveWritten module target false true guarded = none → P (itemPath module name)
  child : ∀ module name, N name → name ≠ "self" → name ≠ "super" → x.item? module name = none →
    x.import? module name = none → x.modules.contains (PathText.within module name) = true →
    P (itemPath module name)
  /-- Names are appended to a path that is no module of the crate. -/
  extend : ∀ base rest, P base → rest ≠ [] → (∀ name ∈ rest, N name) →
    (∀ module, localModule? base = some module → x.isModule module = false) → P (base ++ rest)

theorem mem_keys_of_item? {x : ScopeIndex} {module name : String} {kind : ItemKind}
    (h : x.item? module name = some kind) : module ∈ x.modules.keys := by
  obtain ⟨s, hs, -⟩ := Option.bind_eq_some_iff.mp h
  exact mem_keys_of_scope? hs

theorem mem_keys_of_import? {x : ScopeIndex} {module name : String} {target : WrittenPath}
    (h : x.import? module name = some target) : module ∈ x.modules.keys := by
  obtain ⟨s, hs, -⟩ := Option.bind_eq_some_iff.mp h
  exact mem_keys_of_scope? hs

namespace ResultClosed

variable {x : ScopeIndex} {N M : String → Prop} {P : List String → Prop}

/-- What a written path resolves to. -/
abbrev OfWritten (x : ScopeIndex) (N M : String → Prop) (P : List String → Prop)
    (module : String) (path : WrittenPath) (bare globs : Bool) (guarded : Guard) : Prop :=
  M module → (∀ name ∈ path.segments, N name) →
    (path.leadingColon = true → path.segments ≠ [] → P path.segments) →
    ∀ r ∈ x.resolveWritten module path bare globs guarded, P r

/-- What names inside a module resolve to. -/
abbrev OfInside (x : ScopeIndex) (N M : String → Prop) (P : List String → Prop)
    (module : String) (segments : List String) (guarded : Guard) : Prop :=
  M module → (∀ name ∈ segments, N name) →
    ∀ r ∈ x.resolveInside module segments guarded, P r

/-- What names behind a resolved path resolve to. -/
abbrev OfDescend (x : ScopeIndex) (N : String → Prop) (P : List String → Prop)
    (base rest : List String) (guarded : Guard) : Prop :=
  P base → (∀ name ∈ rest, N name) → ∀ r ∈ x.descend base rest guarded, P r

/-- What a name that is no word for a module stands for in a module. -/
abbrev OfLookup (x : ScopeIndex) (N : String → Prop) (P : List String → Prop)
    (module name : String) (guarded : Guard) : Prop :=
  N name → name ≠ "self" → name ≠ "super" → ∀ r ∈ x.lookup module name guarded, P r

/-- What such a name stands for without the globs. -/
abbrev OfExplicit (x : ScopeIndex) (N : String → Prop) (P : List String → Prop)
    (module name : String) (guarded : Guard) : Prop :=
  N name → name ≠ "self" → name ≠ "super" → ∀ r ∈ x.lookupExplicit module name guarded, P r

variable {module name first : String} {segments base rest : List String} {bare globs : Bool}
  {guarded : Guard}

theorem absolute_path : OfWritten x N M P module ⟨segments, true⟩ bare globs guarded := by
  intro _ _ hpath r hr
  by_cases hs : segments = []
  · simp [hs] at hr
  · rw [resolveWritten_leadingColon x hs] at hr
    cases hr
    exact hpath rfl hs

section Kept

variable (hP : x.ResultClosed N M P)
include hP

theorem relative_path (hinside : ∀ m, OfInside x N M P m rest guarded)
    (hlookup : OfLookup x N P module first guarded)
    (hexplicit : OfExplicit x N P module first guarded)
    (hdescend : ∀ base, OfDescend x N P base rest guarded) :
    OfWritten x N M P module ⟨first :: rest, false⟩ bare globs guarded := by
  intro hm hn _ r hr
  obtain ⟨hfirst, hrest⟩ := List.forall_mem_cons.mp hn
  by_cases hc : first = "crate"
  · subst hc
    rw [resolveWritten_crate] at hr
    exact hinside "" hP.root hrest r hr
  by_cases hself : first = "self"
  · subst hself
    rw [resolveWritten_self] at hr
    exact hinside module hm hrest r hr
  by_cases hsuper : first = "super"
  · subst hsuper
    rw [resolveWritten_super] at hr
    obtain ⟨parent, hparent, hr⟩ := Option.bind_eq_some_iff.mp hr
    exact hinside parent (hP.parent module parent hm hparent) hrest r hr
  rw [resolveWritten_name x hc hself hsuper] at hr
  split at hr
  · rename_i base hbase
    refine hdescend base ?_ hrest r hr
    cases globs with
    | true => exact hlookup hfirst hself hsuper base hbase
    | false => exact hexplicit hfirst hself hsuper base hbase
  · split at hr
    · cases hr
      exact hP.external first rest hfirst hc hself hsuper
    · cases hr

theorem inside_cons (hinside : ∀ m, OfInside x N M P m rest guarded)
    (hlookup : OfLookup x N P module first guarded)
    (hdescend : ∀ base, OfDescend x N P base rest guarded) :
    OfInside x N M P module (first :: rest) guarded := by
  intro hm hn r hr
  obtain ⟨hfirst, hrest⟩ := List.forall_mem_cons.mp hn
  by_cases hself : first = "self"
  · subst hself
    rw [resolveInside_self] at hr
    exact hinside module hm hrest r hr
  by_cases hsuper : first = "super"
  · subst hsuper
    rw [resolveInside_super] at hr
    obtain ⟨parent, hparent, hr⟩ := Option.bind_eq_some_iff.mp hr
    exact hinside parent (hP.parent module parent hm hparent) hrest r hr
  rw [resolveInside_name x hself hsuper] at hr
  obtain ⟨base, hbase, hr⟩ := Option.bind_eq_some_iff.mp hr
  exact hdescend base (hlookup hfirst hself hsuper base hbase) hrest r hr

theorem behind (hinside : ∀ m, OfInside x N M P m rest guarded) :
    OfDescend x N P base rest guarded := by
  intro hbase hn r hr
  by_cases hrest : rest = []
  · subst hrest
    rw [descend_nil] at hr
    cases hr
    exact hbase
  have happend (hno : ∀ m, localModule? base = some m → x.isModule m = false)
      (hr : some (base ++ rest) = some r) : P r := by
    cases hr
    exact hP.extend base rest hbase hrest hn hno
  cases hl : localModule? base with
  | none =>
    rw [descend_external x hl] at hr
    exact happend (by simp [hl]) hr
  | some m =>
    cases hm : x.isModule m with
    | true =>
      rw [descend_module x hrest hl hm] at hr
      exact hinside m (hP.enter base m hbase hl hm) hn r hr
    | false =>
      rw [descend_of_not_module x hl hm] at hr
      exact happend (by simpa [hl] using hm) hr

/-- What a glob offers has the property if the path of the glob has it. -/
theorem candidate {s : ModuleScope} (hscope : x.scope? module = some s) {glob : WrittenPath}
    (hglob : glob ∈ s.globs)
    (hwritten : OfWritten x N M P module glob true false (starKey module name :: guarded))
    (hexplicit : ∀ source, OfExplicit x N P source name (starKey module name :: guarded))
    (hn : N name) (hself : name ≠ "self") (hsuper : name ≠ "super") {c : List String}
    (hc : x.globCandidate? module name guarded glob = some c) : P c := by
  have hlinked : x.Follows glob := .glob hscope hglob
  unfold globCandidate? at hc
  split at hc
  · cases hc
  · rename_i base hbase
    split at hc
    · exact hexplicit _ hn hself hsuper c hc
    · rename_i hl
      cases hc
      have hP' : P base := hwritten (hP.known module (mem_keys_of_scope? hscope))
        (hP.linked glob hlinked) (hP.absolute glob hlinked) base hbase
      exact hP.extend base [name] hP' (by simp) (by simpa using hn) (by simp [hl])

theorem seen (hexplicit : OfExplicit x N P module name guarded)
    (hglobs : ∀ s, x.scope? module = some s → starKey module name ∉ guarded →
      (∀ glob ∈ s.globs,
        OfWritten x N M P module glob true false (starKey module name :: guarded)) ∧
      ∀ source, OfExplicit x N P source name (starKey module name :: guarded)) :
    OfLookup x N P module name guarded := by
  intro hn hself hsuper r hr
  rw [lookup_eq] at hr
  cases he : x.lookupExplicit module name guarded with
  | some found =>
    rw [he] at hr
    exact hexplicit hn hself hsuper r (he.trans hr)
  | none =>
    simp only [he] at hr
    split at hr
    · cases hr
    · rename_i s hscope
      split at hr
      · cases hr
      · rename_i hg
        obtain ⟨hwritten, hsource⟩ := hglobs s hscope hg
        obtain ⟨hne, hall⟩ := only?_dedupAdjacent_eq_some_iff.mp hr
        obtain ⟨c, hc⟩ := List.exists_mem_of_ne_nil _ hne
        obtain ⟨glob, hglob, hcand⟩ := List.mem_filterMap.mp hc
        rw [← hall c hc]
        exact hP.candidate hscope hglob (hwritten glob hglob) hsource hn hself hsuper hcand

theorem bound
    (halias : ∀ target, (module, name) ∉ guarded →
      x.item? module name = some (.typeAlias target) →
      OfWritten x N M P module target false true ((module, name) :: guarded))
    (himport : ∀ target, (module, name) ∉ guarded → x.import? module name = some target →
      OfWritten x N M P module target true true ((module, name) :: guarded)) :
    OfExplicit x N P module name guarded := by
  intro hn hself hsuper r hr
  by_cases hg : (module, name) ∈ guarded
  · rw [lookupExplicit_guarded x hg] at hr
    cases hr
  cases hi : x.item? module name with
  | some kind =>
    by_cases hk : ∃ target, kind = .typeAlias target
    · obtain ⟨target, rfl⟩ := hk
      have hlinked : x.Follows target := .aliased hi
      rw [lookupExplicit_alias x hg hi] at hr
      cases hr
      cases hbase : x.resolveWritten module target false true ((module, name) :: guarded) with
      | some base =>
        exact halias target hg hi (hP.known module (mem_keys_of_item? hi))
          (hP.linked target hlinked) (hP.absolute target hlinked) base hbase
      | none => exact hP.unresolved module name target _ hi hbase
    · have hitem : ∀ target, kind ≠ .typeAlias target := fun target e => hk ⟨target, e⟩
      rw [lookupExplicit_item x hg hi hitem] at hr
      cases hr
      exact hP.item module name kind hi hitem
  | none =>
    cases hm : x.import? module name with
    | some target =>
      have hlinked : x.Follows target := .imported hself hsuper hi hm
      rw [lookupExplicit_import x hg hi hm] at hr
      exact himport target hg hm (hP.known module (mem_keys_of_import? hm))
        (hP.linked target hlinked) (hP.absolute target hlinked) r hr
    | none =>
      rw [lookupExplicit_child x hg hi hm] at hr
      split at hr
      · rename_i hchild
        cases hr
        exact hP.child module name hn hself hsuper hi hm hchild
      · cases hr

/-- Every step of resolution keeps the property. -/
theorem stepwise : x.Stepwise (OfWritten x N M P) (OfInside x N M P) (OfDescend x N P)
    (OfLookup x N P) (OfExplicit x N P) where
  absolute _ _ _ _ _ := absolute_path
  blank _ _ _ _ := fun _ _ _ r hr => by simp at hr
  relative := hP.relative_path
  arrived module _ := fun hm _ r hr => by
    rw [resolveInside_nil] at hr
    cases hr
    exact hP.inside module hm
  within := hP.inside_cons
  behind := hP.behind
  seen := hP.seen
  bound := hP.bound

end Kept

end ResultClosed

/-- **Properties that every step of resolution keeps hold of every result.** -/
theorem resolveWritten_closed {x : ScopeIndex} {N M : String → Prop} {P : List String → Prop}
    (hP : x.ResultClosed N M P) :
    (∀ module path bare globs guarded, M module → (∀ name ∈ path.segments, N name) →
      (path.leadingColon = true → path.segments ≠ [] → P path.segments) →
      ∀ r ∈ x.resolveWritten module path bare globs guarded, P r) ∧
    (∀ base rest guarded, P base → (∀ name ∈ rest, N name) →
      ∀ r ∈ x.descend base rest guarded, P r) ∧
    (∀ module segments guarded, M module → (∀ name ∈ segments, N name) →
      ∀ r ∈ x.resolveInside module segments guarded, P r) ∧
    (∀ module name guarded, N name → name ≠ "self" → name ≠ "super" →
      ∀ r ∈ x.lookup module name guarded, P r) ∧
    (∀ module name guarded, N name → name ≠ "self" → name ≠ "super" →
      ∀ r ∈ x.lookupExplicit module name guarded, P r) :=
  ⟨hP.stepwise.written, hP.stepwise.descended, hP.stepwise.inside, hP.stepwise.lookedUp,
    hP.stepwise.explicit⟩

/-- No path resolves to the empty one. -/
theorem resolveWritten_ne_nil {x : ScopeIndex} {module : String} {path : WrittenPath}
    {bare globs : Bool} {guarded : Guard} {r : List String}
    (h : x.resolveWritten module path bare globs guarded = some r) : r ≠ [] := by
  have hclosed : x.ResultClosed (fun _ => True) (fun _ => True) (· ≠ []) :=
    { linked := fun _ _ _ _ => trivial
      known := fun _ _ => trivial
      root := trivial
      parent := fun _ _ _ _ => trivial
      enter := fun _ _ _ _ _ => trivial
      absolute := fun _ _ _ hp => hp
      external := fun _ _ _ _ _ _ => List.cons_ne_nil _ _
      inside := fun _ _ => List.cons_ne_nil _ _
      item := fun _ _ _ _ _ => List.cons_ne_nil _ _
      unresolved := fun _ _ _ _ _ _ => List.cons_ne_nil _ _
      child := fun _ _ _ _ _ _ _ _ => List.cons_ne_nil _ _
      extend := fun _ _ hb _ _ _ => List.append_ne_nil_of_left_ne_nil hb _ }
  exact (resolveWritten_closed hclosed).1 module path bare globs guarded trivial
    (fun _ _ => trivial) (fun _ hp => hp) r h

end ScopeIndex

end LogMarkers
