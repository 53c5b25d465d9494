import LogMarkers.Proofs.Scope.Lookup
import Mathlib.Data.List.Basic

/-!
# Paths that start with the name of another crate

A path whose first name nothing in the crate binds should denote itself. It does, unless the globs
of the module that stand for paths of other crates all stand for one path `e`: then the first name
is taken from that glob, and the path denotes `e` with its own names behind it.

* `ScopeIndex.BindsExplicitly`: a module binds a name by an item, an import or a module inside it;
* `ScopeIndex.foreignGlobs`: what the globs of a module stand for outside the crate;
* `resolve_unbound`: what a path with an unbound first name denotes;
* `resolve_unbound_eq_self_iff`: exactly when it denotes itself.
-/

namespace LogMarkers

namespace ScopeIndex

/-! ## 1. Unbound names -/

/-- Whether a module binds a name itself: by an item, an import or a module inside it. -/
def BindsExplicitly (x : ScopeIndex) (module name : String) : Prop :=
  x.item? module name ≠ none ∨ x.import? module name ≠ none ∨
    x.modules.contains (PathText.within module name) = true

instance (x : ScopeIndex) (module name : String) : Decidable (x.BindsExplicitly module name) :=
  inferInstanceAs (Decidable (_ ∨ _ ∨ _))

theorem lookupExplicit_eq_none_of_unbound {x : ScopeIndex} {module name : String}
    (h : ¬ x.BindsExplicitly module name) (guarded : Guard) :
    x.lookupExplicit module name guarded = none := by
  unfold BindsExplicitly at h
  simp only [not_or, ne_eq, Decidable.not_not] at h
  obtain ⟨hi, hm, hchild⟩ := h
  by_cases hg : (module, name) ∈ guarded
  · exact x.lookupExplicit_guarded hg
  · rw [x.lookupExplicit_child hg hi hm, if_neg hchild]

/-! ## 2. Globs of other crates -/

/-- What a glob of a module stands for while a name is looked up among the globs. -/
def globBase? (x : ScopeIndex) (module name : String) (glob : WrittenPath) :
    Option (List String) :=
  x.resolveWritten module glob true false [starKey module name]

/-- What a glob stands for, if that is outside the crate. -/
def foreignBase? (x : ScopeIndex) (module name : String) (glob : WrittenPath) :
    Option (List String) :=
  (x.globBase? module name glob).filter fun base => localModule? base == none

/-- The paths of other crates that the globs of a scope stand for, in the order of the globs. -/
def foreignGlobs (x : ScopeIndex) (module name : String) (s : ModuleScope) : List (List String) :=
  s.globs.filterMap (x.foreignBase? module name)

/-- Whether no module of the crate that the scope imports everything from binds the name. -/
def GlobsLeaveFree (x : ScopeIndex) (module name : String) (s : ModuleScope) : Prop :=
  ∀ glob ∈ s.globs, ∀ base source, x.globBase? module name glob = some base →
    localModule? base = some source → ¬ x.BindsExplicitly source name

theorem ne_nil_of_mem_foreignGlobs {x : ScopeIndex} {module name : String} {s : ModuleScope}
    {e : List String} (h : e ∈ x.foreignGlobs module name s) : e ≠ [] := by
  obtain ⟨glob, -, hglob⟩ := List.mem_filterMap.mp h
  obtain ⟨hbase, -⟩ := Option.filter_eq_some_iff.mp hglob
  exact resolveWritten_ne_nil hbase

/-- A glob whose first name nothing binds stands for its path as written. -/
theorem foreignBase?_of_unbound {x : ScopeIndex} {module first : String} (hc : first ≠ "crate")
    (hs : first ≠ "self") (hp : first ≠ "super") (h : ¬ x.BindsExplicitly module first)
    (name : String) (rest : List String) :
    x.foreignBase? module name ⟨first :: rest, false⟩ = some (first :: rest) := by
  have hbase : x.globBase? module name ⟨first :: rest, false⟩ = some (first :: rest) := by
    unfold globBase?
    rw [x.resolveWritten_name hc hs hp, if_neg Bool.false_ne_true,
      lookupExplicit_eq_none_of_unbound h]
    exact if_pos (.inr rfl)
  unfold foreignBase?
  rw [hbase, Option.filter_some, if_pos]
  exact beq_iff_eq.mpr (if_neg hc)

/-- Only globs of other crates offer a name that no module of the crate binds. -/
theorem filterMap_globCandidate? {x : ScopeIndex} {module name : String} {s : ModuleScope}
    (h : x.GlobsLeaveFree module name s) :
    s.globs.filterMap (x.globCandidate? module name []) =
      (x.foreignGlobs module name s).map (· ++ [name]) := by
  unfold foreignGlobs
  rw [List.map_filterMap]
  refine List.filterMap_congr fun glob hglob => ?_
  unfold globCandidate? foreignBase?
  have hfree := h glob hglob
  unfold globBase? at hfree ⊢
  cases hbase : x.resolveWritten module glob true false [starKey module name] with
  | none => rfl
  | some base =>
    cases hl : localModule? base with
    | none => simp [Option.filter, hl]
    | some source =>
      have hnone := lookupExplicit_eq_none_of_unbound (hfree base source hbase hl)
        [starKey module name]
      simp [Option.filter, hl, hnone]

theorem only?_dedupAdjacent_map_append (l : List (List String)) (name : String) :
    only? (dedupAdjacent (l.map (· ++ [name]))) =
      (only? (dedupAdjacent l)).map (· ++ [name]) := by
  refine Option.ext fun a => ?_
  rw [only?_dedupAdjacent_eq_some_iff, Option.map_eq_some_iff]
  constructor
  · rintro ⟨hne, hall⟩
    obtain ⟨e, he⟩ := List.exists_mem_of_ne_nil l (fun h => hne (by rw [h]; rfl))
    have hea : e ++ [name] = a := hall _ (List.mem_map_of_mem he)
    refine ⟨e, only?_dedupAdjacent_eq_some_iff.mpr ⟨List.ne_nil_of_mem he, fun b hb => ?_⟩, hea⟩
    have hba : b ++ [name] = a := hall _ (List.mem_map_of_mem hb)
    exact List.append_cancel_right (hba.trans hea.symm)
  · rintro ⟨e, he, rfl⟩
    obtain ⟨hne, hall⟩ := only?_dedupAdjacent_eq_some_iff.mp he
    refine ⟨fun h => hne (List.map_eq_nil_iff.mp h), fun b hb => ?_⟩
    obtain ⟨b', hb', rfl⟩ := List.mem_map.mp hb
    rw [hall b' hb']

/-! ## 3. What a path with an unbound first name denotes -/

section Unbound

variable {x : ScopeIndex} {module name : String} {s : ModuleScope} {rest : List String}

/-- A name that the crate does not bind is looked up among the globs of other crates. -/
theorem lookup_unbound (hscope : x.scope? module = some s)
    (hown : ¬ x.BindsExplicitly module name) (hglobs : x.GlobsLeaveFree module name s) :
    x.lookup module name [] =
      (only? (dedupAdjacent (x.foreignGlobs module name s))).map (· ++ [name]) := by
  rw [lookup_eq, lookupExplicit_eq_none_of_unbound hown, hscope]
  simp only [List.not_mem_nil, ↓reduceIte]
  rw [filterMap_globCandidate? hglobs, only?_dedupAdjacent_map_append]

/-- **What a path with an unbound first name denotes**: itself, or itself behind the only path of
    another crate that the globs of the module stand for. -/
theorem resolve_unbound (hscope : x.scope? module = some s) (hc : name ≠ "crate")
    (hs : name ≠ "self") (hp : name ≠ "super") (hrest : rest ≠ [])
    (hown : ¬ x.BindsExplicitly module name) (hglobs : x.GlobsLeaveFree module name s) :
    x.resolve module ⟨name :: rest, false⟩ =
      some ((only? (dedupAdjacent (x.foreignGlobs module name s))).getD [] ++ name :: rest) := by
  unfold resolve
  rw [x.resolveWritten_name hc hs hp, if_pos rfl, lookup_unbound hscope hown hglobs]
  cases hfound : only? (dedupAdjacent (x.foreignGlobs module name s)) with
  | none => simp [hrest]
  | some e =>
    -- the first name is taken behind `e`, which is no path of the crate, so the others follow as
    -- they are
    obtain ⟨hne, hall⟩ := only?_dedupAdjacent_eq_some_iff.mp hfound
    obtain ⟨b, hb⟩ := List.exists_mem_of_ne_nil _ hne
    have he : e ∈ x.foreignGlobs module name s := hall b hb ▸ hb
    obtain ⟨glob, -, hglob⟩ := List.mem_filterMap.mp he
    obtain ⟨-, hl⟩ := Option.filter_eq_some_iff.mp hglob
    have hl' : localModule? (e ++ [name]) = none := by
      obtain ⟨first, tail, rfl⟩ := List.exists_cons_of_ne_nil (ne_nil_of_mem_foreignGlobs he)
      simpa [localModule?] using hl
    show x.descend (e ++ [name]) rest [] = some (e ++ name :: rest)
    rw [x.descend_external hl', List.append_assoc]
    rfl

/-- **A path with an unbound first name denotes itself exactly when the globs of the module stand
    for no path of another crate, or for two different ones.** -/
theorem resolve_unbound_eq_self_iff (hscope : x.scope? module = some s) (hc : name ≠ "crate")
    (hs : name ≠ "self") (hp : name ≠ "super") (hrest : rest ≠ [])
    (hown : ¬ x.BindsExplicitly module name) (hglobs : x.GlobsLeaveFree module name s) :
    x.resolve module ⟨name :: rest, false⟩ = some (name :: rest) ↔
      x.foreignGlobs module name s = [] ∨
        ∃ a ∈ x.foreignGlobs module name s, ∃ b ∈ x.foreignGlobs module name s, a ≠ b := by
  rw [resolve_unbound hscope hc hs hp hrest hown hglobs]
  cases hfound : only? (dedupAdjacent (x.foreignGlobs module name s)) with
  | none =>
    -- no single candidate was left, so there was none or there were two different ones
    refine iff_of_true rfl ?_
    refine Classical.byContradiction fun hcon => ?_
    simp only [not_or, not_exists, not_and, ne_eq, Decidable.not_not] at hcon
    obtain ⟨hne, heq⟩ := hcon
    obtain ⟨e, he⟩ := List.exists_mem_of_ne_nil _ hne
    have hsome := only?_dedupAdjacent_eq_some_iff.mpr ⟨hne, fun b hb => heq b hb e he⟩
    rw [hfound] at hsome
    cases hsome
  | some e =>
    obtain ⟨hne, hall⟩ := only?_dedupAdjacent_eq_some_iff.mp hfound
    refine iff_of_false (fun h => ?_) (fun h => ?_)
    · obtain ⟨b, hb⟩ := List.exists_mem_of_ne_nil _ hne
      have hlen := congrArg List.length (Option.some.inj h)
      have he : e ≠ [] := hall b hb ▸ ne_nil_of_mem_foreignGlobs hb
      have hpos := List.length_pos_of_ne_nil he
      simp only [Option.getD_some, List.length_append, List.length_cons] at hlen
      omega
    · rcases h with h | ⟨a, ha, b, hb, hab⟩
      · exact hne h
      · exact hab ((hall a ha).trans (hall b hb).symm)

end Unbound

/-! ## 4. A root with globs -/

/-- The index of a crate whose root imports everything from these paths and declares nothing. -/
def ofRootGlobs (globs : List WrittenPath) : ScopeIndex :=
  globs.foldl (fun x glob => x.addGlob "" glob) {}

theorem globsLeaveFree_of_foreign {x : ScopeIndex} {module name : String} {s : ModuleScope}
    (h : ∀ glob ∈ s.globs, (x.foreignBase? module name glob).isSome) :
    x.GlobsLeaveFree module name s := by
  intro glob hglob base source hbase hl
  have hsome := h glob hglob
  unfold foreignBase? at hsome
  rw [hbase] at hsome
  simp [Option.filter, hl] at hsome

/-- Beside two globs of different crates, the path of a marker denotes the marker. -/
theorem resolve_marker_beside_two_globs :
    ∃ s, (ofRootGlobs [⟨["autolog"], false⟩, ⟨["tracing"], false⟩]).scope? "" = some s ∧
      s.globs.length = 2 ∧
      (ofRootGlobs [⟨["autolog"], false⟩, ⟨["tracing"], false⟩]).resolve ""
        ⟨["autolog", "auto_log_class"], false⟩ = some ["autolog", "auto_log_class"] := by
  refine ⟨{ globs := [⟨["autolog"], false⟩, ⟨["tracing"], false⟩] }, by decide, rfl, ?_⟩
  have hautolog : (ofRootGlobs [⟨["autolog"], false⟩, ⟨["tracing"], false⟩]).foreignBase? ""
      "autolog" ⟨["autolog"], false⟩ = some ["autolog"] :=
    foreignBase?_of_unbound (by decide) (by decide) (by decide) (by decide) "autolog" []
  have htracing : (ofRootGlobs [⟨["autolog"], false⟩, ⟨["tracing"], false⟩]).foreignBase? ""
      "autolog" ⟨["tracing"], false⟩ = some ["tracing"] :=
    foreignBase?_of_unbound (by decide) (by decide) (by decide) (by decide) "autolog" []
  refine (resolve_unbound_eq_self_iff (s := { globs := [⟨["autolog"], false⟩,
    ⟨["tracing"], false⟩] }) (by decide) (by decide) (by decide) (by decide) (by decide)
    (by decide) (globsLeaveFree_of_foreign ?_)).mpr (.inr ?_)
  · simp [hautolog, htracing]
  · unfold foreignGlobs
    rw [List.filterMap_cons_some hautolog, List.filterMap_cons_some htracing]
    exact ⟨["autolog"], by simp, ["tracing"], by simp, by decide⟩

/-- **Beside a glob of its own crate, the path of a marker denotes something else**, although
    nothing in the crate binds its first name. -/
theorem resolve_marker_beside_its_glob :
    ∃ s, (ofRootGlobs [⟨["autolog"], false⟩]).scope? "" = some s ∧
      ¬ (ofRootGlobs [⟨["autolog"], false⟩]).BindsExplicitly "" "autolog" ∧
      (ofRootGlobs [⟨["autolog"], false⟩]).GlobsLeaveFree "" "autolog" s ∧
      (ofRootGlobs [⟨["autolog"], false⟩]).resolve "" ⟨["autolog", "auto_log_class"], false⟩ =
        some ["autolog", "autolog", "auto_log_class"] := by
  have hscope : (ofRootGlobs [⟨["autolog"], false⟩]).scope? "" =
      some { globs := [⟨["autolog"], false⟩] } := by decide
  have hown : ¬ (ofRootGlobs [⟨["autolog"], false⟩]).BindsExplicitly "" "autolog" := by decide
  have hautolog := foreignBase?_of_unbound (by decide) (by decide) (by decide) hown "autolog" []
  have hglobs : (ofRootGlobs [⟨["autolog"], false⟩]).GlobsLeaveFree "" "autolog"
      { globs := [⟨["autolog"], false⟩] } :=
    globsLeaveFree_of_foreign (by simp [hautolog])
  refine ⟨_, hscope, hown, hglobs, ?_⟩
  rw [resolve_unbound hscope (by decide) (by decide) (by decide) (by decide) hown hglobs]
  unfold foreignGlobs
  rw [List.filterMap_cons_some hautolog]
  rfl

end ScopeIndex

end LogMarkers
