import LogMarkers.Proofs.Scope.ExternalPaths

/-!
# Two resolutions side by side

When two indexes, each with lookups of its own under way, give the same answers. They have to know
the same modules, items, imports and globs; which lookups are under way may differ where it makes no
difference.

* `globSupply?`, `lookup_eq_or`: what the globs of a module supply, the second half of a lookup;
* `Mirrors`: what a relation between guards has to keep;
* `Mirrors.stepwise`: what one step of each of the five functions keeps;
* `resolveWritten_mirrors`: guards that are related give the same answers, for each of them.
-/

namespace LogMarkers

/-- Whether there is an only candidate depends on which candidates there are, and neither on their
    order nor on how often they occur. -/
theorem only?_dedupAdjacent_congr {α : Type} [DecidableEq α] {l l' : List α}
    (h : ∀ a, a ∈ l' ↔ a ∈ l) : only? (dedupAdjacent l') = only? (dedupAdjacent l) := by
  refine Option.ext fun a => ?_
  have hnil : l' = [] ↔ l = [] := by
    rw [List.eq_nil_iff_forall_not_mem, List.eq_nil_iff_forall_not_mem]
    exact forall_congr' fun b => not_congr (h b)
  rw [only?_dedupAdjacent_eq_some_iff, only?_dedupAdjacent_eq_some_iff, ne_eq, ne_eq, hnil]
  exact and_congr_right fun _ => forall_congr' fun b => imp_congr_left (h b)

namespace ScopeIndex

/-! ## 1. What the globs supply -/

/-- What the globs of a module supply for a name, if that is one path. -/
def globSupply? (x : ScopeIndex) (module name : String) (guarded : Guard) :
    Option (List String) :=
  match x.scope? module with
  | none => none
  | some s =>
    if guarded.contains (starKey module name) then none
    else only? (dedupAdjacent (s.globs.filterMap (x.globCandidate? module name guarded)))

/-- A name is looked up in the module itself, and only then among its globs. -/
theorem lookup_eq_or (x : ScopeIndex) (module name : String) (guarded : Guard) :
    x.lookup module name guarded =
      (x.lookupExplicit module name guarded).or (x.globSupply? module name guarded) := by
  unfold globSupply?
  simp only [lookup_eq, List.contains_iff_mem]
  cases x.lookupExplicit module name guarded <;> rfl

theorem globSupply?_guarded {x : ScopeIndex} {module name : String} {guarded : Guard}
    (h : starKey module name ∈ guarded) : x.globSupply? module name guarded = none := by
  unfold globSupply?
  split
  · rfl
  · rw [if_pos (List.contains_iff_mem.mpr h)]

theorem globSupply?_free {x : ScopeIndex} {module name : String} {guarded : Guard}
    {s : ModuleScope} (hs : x.scope? module = some s) (h : starKey module name ∉ guarded) :
    x.globSupply? module name guarded =
      only? (dedupAdjacent (s.globs.filterMap (x.globCandidate? module name guarded))) := by
  unfold globSupply?
  rw [hs]
  exact if_neg (mt List.contains_iff_mem.mp h)

/-- A search among globs is not the search among those of another module, or for another name. -/
theorem starKey_inj {module module' name name' : String}
    (h : starKey module name = starKey module' name') : module = module' ∧ name = name' := by
  obtain ⟨hmodule, hname⟩ := Prod.mk.inj h
  refine ⟨hmodule, String.toList_injective ?_⟩
  have hchars := congrArg String.toList hname
  rw [String.toList_append, String.toList_append] at hchars
  exact List.append_cancel_left hchars

/-! ## 2. Guards that make no difference -/

/-- Indexes with the same modules, items, imports and globs, and a relation between the lookups
    under way in them that every further lookup keeps. -/
structure Mirrors (x y : ScopeIndex) (R : Guard → Guard → Prop) : Prop where
  contains : ∀ module, y.modules.contains module = x.modules.contains module
  item : ∀ module name, y.item? module name = x.item? module name
  imported : ∀ module name, y.import? module name = x.import? module name
  globs : ∀ {module s t}, x.scope? module = some s → y.scope? module = some t →
    ∀ glob, glob ∈ t.globs ↔ glob ∈ s.globs
  /-- A lookup is under way in both, unless no item, import or module has the name. -/
  explicit : ∀ {g g' : Guard}, R g g' → ∀ module name,
    ((module, name) ∈ g' ↔ (module, name) ∈ g) ∨ ¬ x.BindsExplicitly module name
  /-- A search among globs is under way in both, unless it finds nothing in either. -/
  starred : ∀ {g g' : Guard}, R g g' → ∀ module name,
    (starKey module name ∈ g' ↔ starKey module name ∈ g) ∨
      x.globSupply? module name g = none ∧ y.globSupply? module name g' = none
  /-- Following an alias or an import. -/
  link : ∀ {g g' : Guard}, R g g' → ∀ module name,
    (∀ kind, x.item? module name = some kind → ∃ target, kind = .typeAlias target) →
    R ((module, name) :: g) ((module, name) :: g')
  /-- Searching among globs. -/
  among : ∀ {g g' : Guard}, R g g' → ∀ module name,
    R (starKey module name :: g) (starKey module name :: g')

namespace Mirrors

variable {x y : ScopeIndex} {R : Guard → Guard → Prop} {g g' : Guard} {module name : String}

theorem isModule (h : Mirrors x y R) (module : String) :
    y.isModule module = x.isModule module := by
  unfold ScopeIndex.isModule
  simp only [h.contains, h.item]

theorem scope?_isSome (h : Mirrors x y R) (module : String) :
    (y.scope? module).isSome = (x.scope? module).isSome := h.contains module

theorem binds (h : Mirrors x y R) :
    y.BindsExplicitly module name ↔ x.BindsExplicitly module name := by
  unfold BindsExplicitly
  rw [h.item, h.imported, h.contains]

/-- What the globs supply is the same if every single glob offers the same. -/
theorem globSupply? (h : Mirrors x y R) (hR : R g g')
    (hcandidate : starKey module name ∉ g → ∀ s, x.scope? module = some s → ∀ glob ∈ s.globs,
      y.globCandidate? module name g' glob = x.globCandidate? module name g glob) :
    y.globSupply? module name g' = x.globSupply? module name g := by
  rcases h.starred hR module name with hiff | ⟨hx, hy⟩
  swap
  · rw [hx, hy]
  by_cases hg : starKey module name ∈ g
  · rw [globSupply?_guarded hg, globSupply?_guarded (hiff.mpr hg)]
  have hsome := h.scope?_isSome module
  cases hs : x.scope? module with
  | none =>
    rw [hs] at hsome
    have ht : y.scope? module = none := Option.isNone_iff_eq_none.mp (by simpa using hsome)
    unfold ScopeIndex.globSupply?
    rw [hs, ht]
  | some s =>
    rw [hs] at hsome
    obtain ⟨t, ht⟩ := Option.isSome_iff_exists.mp hsome
    rw [globSupply?_free hs hg, globSupply?_free ht (mt hiff.mp hg)]
    refine only?_dedupAdjacent_congr fun a => ?_
    rw [List.mem_filterMap, List.mem_filterMap]
    refine exists_congr fun glob => ?_
    rw [h.globs hs ht]
    exact and_congr_right fun hglob => by rw [hcandidate hg s hs glob hglob]

/-! ## 3. The steps -/

variable {first : String} {base rest segments : List String} {bare globs : Bool}

/-- The two indexes resolve a written path alike. -/
abbrev OfWritten (x y : ScopeIndex) (R : Guard → Guard → Prop) (module : String)
    (path : WrittenPath) (bare globs : Bool) (g : Guard) : Prop :=
  ∀ g', R g g' →
    y.resolveWritten module path bare globs g' = x.resolveWritten module path bare globs g

/-- They resolve names inside a module alike. -/
abbrev OfInside (x y : ScopeIndex) (R : Guard → Guard → Prop) (module : String)
    (segments : List String) (g : Guard) : Prop :=
  ∀ g', R g g' → y.resolveInside module segments g' = x.resolveInside module segments g

/-- They resolve names behind a resolved path alike. -/
abbrev OfDescend (x y : ScopeIndex) (R : Guard → Guard → Prop) (base rest : List String)
    (g : Guard) : Prop :=
  ∀ g', R g g' → y.descend base rest g' = x.descend base rest g

/-- They look a name up alike. -/
abbrev OfLookup (x y : ScopeIndex) (R : Guard → Guard → Prop) (module name : String)
    (g : Guard) : Prop :=
  ∀ g', R g g' → y.lookup module name g' = x.lookup module name g

/-- They look a name up alike without the globs. -/
abbrev OfExplicit (x y : ScopeIndex) (R : Guard → Guard → Prop) (module name : String)
    (g : Guard) : Prop :=
  ∀ g', R g g' → y.lookupExplicit module name g' = x.lookupExplicit module name g

theorem absolute_path : OfWritten x y R module ⟨segments, true⟩ bare globs g := by
  intro g' _
  by_cases hs : segments = []
  · simp [hs]
  · rw [resolveWritten_leadingColon x hs, resolveWritten_leadingColon y hs]

theorem relative_path (hinside : ∀ m, OfInside x y R m rest g)
    (hlookup : OfLookup x y R module first g) (hexplicit : OfExplicit x y R module first g)
    (hdescend : ∀ base, OfDescend x y R base rest g) :
    OfWritten x y R module ⟨first :: rest, false⟩ bare globs g := by
  intro g' hR
  by_cases hc : first = "crate"
  · simp [hc, hinside _ g' hR]
  by_cases hself : first = "self"
  · simp [hself, hinside _ g' hR]
  by_cases hsuper : first = "super"
  · simp [hsuper, hinside _ g' hR]
  rw [resolveWritten_name y hc hself hsuper, resolveWritten_name x hc hself hsuper,
    hlookup g' hR, hexplicit g' hR]
  split
  · exact hdescend _ g' hR
  · rfl

theorem inside_cons (hinside : ∀ m, OfInside x y R m rest g)
    (hlookup : OfLookup x y R module first g) (hdescend : ∀ base, OfDescend x y R base rest g) :
    OfInside x y R module (first :: rest) g := by
  intro g' hR
  by_cases hself : first = "self"
  · simp [hself, hinside _ g' hR]
  by_cases hsuper : first = "super"
  · simp [hsuper, hinside _ g' hR]
  rw [resolveInside_name y hself hsuper, resolveInside_name x hself hsuper, hlookup g' hR]
  exact Option.bind_congr fun base _ => hdescend base g' hR

section Kept

variable (h : Mirrors x y R)
include h

theorem behind (hinside : ∀ m, OfInside x y R m rest g) : OfDescend x y R base rest g := by
  intro g' hR
  by_cases hrest : rest = []
  · simp [hrest]
  cases hl : localModule? base with
  | none => rw [descend_external x hl, descend_external y hl]
  | some m =>
    cases hm : x.isModule m with
    | true =>
      rw [descend_module x hrest hl hm, descend_module y hrest hl ((h.isModule m).trans hm)]
      exact hinside m g' hR
    | false =>
      rw [descend_of_not_module x hl hm, descend_of_not_module y hl ((h.isModule m).trans hm)]

/-- The guards differ in searches that find nothing. -/
theorem seen (hexplicit : OfExplicit x y R module name g)
    (hglobs : ∀ s, x.scope? module = some s → starKey module name ∉ g →
      (∀ glob ∈ s.globs, OfWritten x y R module glob true false (starKey module name :: g)) ∧
      ∀ source, OfExplicit x y R source name (starKey module name :: g)) :
    OfLookup x y R module name g := by
  intro g' hR
  rw [lookup_eq_or, lookup_eq_or, hexplicit g' hR, h.globSupply? hR]
  intro hg s hs glob hglob
  obtain ⟨hwritten, hsource⟩ := hglobs s hs hg
  have hR' := h.among hR module name
  unfold globCandidate?
  rw [hwritten glob hglob _ hR']
  split
  · rfl
  · split
    · exact hsource _ _ hR'
    · rfl

/-- The guards differ in names that nothing binds. -/
theorem bound
    (halias : ∀ target, (module, name) ∉ g → x.item? module name = some (.typeAlias target) →
      OfWritten x y R module target false true ((module, name) :: g))
    (himport : ∀ target, (module, name) ∉ g → x.import? module name = some target →
      OfWritten x y R module target true true ((module, name) :: g)) :
    OfExplicit x y R module name g := by
  intro g' hR
  by_cases hb : x.BindsExplicitly module name
  swap
  · rw [lookupExplicit_eq_none_of_unbound hb,
      lookupExplicit_eq_none_of_unbound (mt h.binds.mp hb)]
  have hiff := (h.explicit hR module name).resolve_right (not_not_intro hb)
  by_cases hg : (module, name) ∈ g
  · rw [lookupExplicit_guarded x hg, lookupExplicit_guarded y (hiff.mpr hg)]
  have hg' : (module, name) ∉ g' := mt hiff.mp hg
  have hitem := h.item module name
  have himported := h.imported module name
  cases hi : x.item? module name with
  | some kind =>
    rw [hi] at hitem
    by_cases hk : ∃ target, kind = .typeAlias target
    · obtain ⟨target, rfl⟩ := hk
      have hR' := h.link hR module name fun kind hkind =>
        ⟨target, Option.some.inj (hkind.symm.trans hi)⟩
      rw [lookupExplicit_alias x hg hi, lookupExplicit_alias y hg' hitem, halias target hg hi _ hR']
    · have hnone : ∀ target, kind ≠ .typeAlias target := fun target e => hk ⟨target, e⟩
      rw [lookupExplicit_item x hg hi hnone, lookupExplicit_item y hg' hitem hnone]
  | none =>
    rw [hi] at hitem
    cases hm : x.import? module name with
    | some target =>
      have hR' := h.link hR module name fun kind hkind => nomatch hkind.symm.trans hi
      rw [lookupExplicit_import x hg hi hm, lookupExplicit_import y hg' hitem (himported.trans hm),
        himport target hg hm _ hR']
    | none =>
      rw [lookupExplicit_child x hg hi hm, lookupExplicit_child y hg' hitem (himported.trans hm),
        h.contains]

/-- Every step of resolution keeps the answers alike. -/
theorem stepwise : x.Stepwise (OfWritten x y R) (OfInside x y R) (OfDescend x y R)
    (OfLookup x y R) (OfExplicit x y R) where
  absolute _ _ _ _ _ := absolute_path
  blank _ _ _ _ := fun _ _ => by simp
  relative := relative_path
  arrived _ _ := fun _ _ => by simp
  within := inside_cons
  behind := h.behind
  seen := h.seen
  bound := h.bound

end Kept

end Mirrors

/-- **Related guards give the same answers.** -/
theorem resolveWritten_mirrors {x y : ScopeIndex} {R : Guard → Guard → Prop}
    (h : Mirrors x y R) :
    (∀ module path bare globs g, ∀ g', R g g' →
      y.resolveWritten module path bare globs g' = x.resolveWritten module path bare globs g) ∧
    (∀ base rest g, ∀ g', R g g' → y.descend base rest g' = x.descend base rest g) ∧
    (∀ module segments g, ∀ g', R g g' →
      y.resolveInside module segments g' = x.resolveInside module segments g) ∧
    (∀ module name g, ∀ g', R g g' → y.lookup module name g' = x.lookup module name g) ∧
    (∀ module name g, ∀ g', R g g' →
      y.lookupExplicit module name g' = x.lookupExplicit module name g) :=
  ⟨h.stepwise.written, h.stepwise.descended, h.stepwise.inside, h.stepwise.lookedUp,
    h.stepwise.explicit⟩

end ScopeIndex

end LogMarkers
