import LogMarkers.Proofs.Scope.AliasChains

/-!
# Paths that start at a module

A path can start at the root (`crate`), at the module it is written in (`self`), or at a module
around it (`super`, once for every level). Where the modules hang together, the three ways to write
the path of a module lead to the same place, whatever names follow.

* `ancestor?`: the module that a number of levels leads out to;
* `WellFormed.exists_ancestor`, `WellFormed.ancestor?_eq_none`: it is a module with the names before
  the last ones, and there is none beyond the root;
* `resolve_self`, `resolve_supers`: both words enter a module;
* `resolve_of_leadingWord`: they lead where the path from the root leads.
-/

namespace LogMarkers

/-- The number of modules around a module. -/
def moduleDepth (module : String) : Nat := (PathText.segments module).length

/-- The module that many levels around a module. -/
def ancestor? : Nat → String → Option String
  | 0, module => some module
  | n + 1, module => (parentModule? module).bind (ancestor? n)

namespace ScopeIndex

variable {x : ScopeIndex}

/-- A module is the root, or one name behind the module around it. -/
theorem WellFormed.parent_cases (hx : x.WellFormed) {module : String}
    (hm : module ∈ x.modules.keys) :
    module = "" ∨ ∃ parent ∈ x.modules.keys, ∃ name, parentModule? module = some parent ∧
      PathText.segments module = PathText.segments parent ++ [name] := by
  by_cases hroot : module = ""
  · exact .inl hroot
  obtain ⟨parent, hp, name, kind, rfl, hi, -⟩ := hx.declared module hm hroot
  have hname : IsPlain name := hx.plain _ (item_mem_linkKeys hi)
  obtain ⟨names, hnames, rfl⟩ := hx.exists_names parent hp
  exact .inr ⟨_, hp, name, parentModule?_within _ hname.isName,
    PathText.segments_within hnames hname.isName⟩

/-- **A module has an ancestor for every level up to the root**, and its names are the first ones of
    the module. -/
theorem WellFormed.exists_ancestor (hx : x.WellFormed) {k : Nat} :
    ∀ {module : String}, module ∈ x.modules.keys → k ≤ moduleDepth module →
      ∃ ancestor ∈ x.modules.keys, ancestor? k module = some ancestor ∧
        PathText.segments ancestor =
          (PathText.segments module).take (moduleDepth module - k) := by
  induction k with
  | zero =>
    intro module hm _
    exact ⟨module, hm, rfl, List.take_length.symm⟩
  | succ k ih =>
    intro module hm hk
    rcases hx.parent_cases hm with rfl | ⟨parent, hp, name, hparent, hsegments⟩
    · exact absurd hk (Nat.not_succ_le_zero k)
    have hdepth : moduleDepth module = moduleDepth parent + 1 := by
      simp [moduleDepth, hsegments]
    obtain ⟨ancestor, hmem, hancestor, hnames⟩ := ih hp (by omega)
    refine ⟨ancestor, hmem, ?_, ?_⟩
    · rw [ancestor?, hparent, Option.bind_some, hancestor]
    · have hle : moduleDepth parent - k ≤ (PathText.segments parent).length := Nat.sub_le ..
      rw [hnames, hdepth, hsegments, Nat.add_sub_add_right, List.take_append_of_le_length hle]

/-- There is no module around the root. -/
theorem WellFormed.ancestor?_eq_none (hx : x.WellFormed) {k : Nat} :
    ∀ {module : String}, module ∈ x.modules.keys → moduleDepth module < k →
      ancestor? k module = none := by
  induction k with
  | zero => exact fun _ h => absurd h (Nat.not_lt_zero _)
  | succ k ih =>
    intro module hm hk
    rw [ancestor?]
    rcases hx.parent_cases hm with rfl | ⟨parent, hp, name, hparent, hsegments⟩
    · rfl
    have hdepth : moduleDepth module = moduleDepth parent + 1 := by
      simp [moduleDepth, hsegments]
    rw [hparent, Option.bind_some]
    exact ih hp (by omega)

/-- Leading words for the parent lead out of a module, one level each. -/
theorem resolveInside_supers (x : ScopeIndex) (k : Nat) (module : String) (rest : List String)
    (guarded : Guard) :
    x.resolveInside module (List.replicate k "super" ++ rest) guarded =
      (ancestor? k module).bind (x.resolveInside · rest guarded) := by
  induction k generalizing module with
  | zero => rfl
  | succ k ih =>
    rw [List.replicate_succ, List.cons_append, resolveInside_super, ancestor?, Option.bind_assoc]
    exact Option.bind_congr fun parent _ => ih parent

theorem resolve_crate (x : ScopeIndex) (module : String) (rest : List String) :
    x.resolve module ⟨"crate" :: rest, false⟩ = x.resolveInside "" rest [] :=
  x.resolveWritten_crate

theorem resolve_self (x : ScopeIndex) (module : String) (rest : List String) :
    x.resolve module ⟨"self" :: rest, false⟩ = x.resolveInside module rest [] :=
  x.resolveWritten_self

/-- A path that starts with words for the parent is resolved in the ancestor they lead to. -/
theorem resolve_supers (x : ScopeIndex) {k : Nat} (hk : 1 ≤ k) (module : String)
    (rest : List String) :
    x.resolve module ⟨List.replicate k "super" ++ rest, false⟩ =
      (ancestor? k module).bind (x.resolveInside · rest []) := by
  obtain ⟨n, rfl⟩ : ∃ n, k = n + 1 := ⟨k - 1, by omega⟩
  rw [resolve, List.replicate_succ, List.cons_append, resolveWritten_super, ancestor?,
    Option.bind_assoc]
  exact Option.bind_congr fun parent _ => x.resolveInside_supers n parent rest []

/-- Names behind the path of a module, from the root, are resolved inside the module. -/
theorem WellFormed.resolve_crate_segments (hx : x.WellFormed) {module : String}
    (hm : module ∈ x.modules.keys) (module' : String) (rest : List String) :
    x.resolve module' ⟨"crate" :: (PathText.segments module ++ rest), false⟩ =
      x.resolveInside module rest [] := by
  rw [resolve_crate]
  exact hx.resolveInside_segments (by simp) module hm rest

/-- **The words for the module, the modules around it and the root lead to the same place.** In a
    well-formed index, whatever names follow and in whatever module the path from the root is
    written:

    * behind `self` they denote what they denote behind the path of the module;
    * behind `super`, written as often as there are levels or less, what they denote behind the path
      of the module that many levels around, which has the names of the module but for the last
      ones;
    * behind more than that, nothing. -/
theorem resolve_of_leadingWord (hx : x.WellFormed) {module : String} (hm : module ∈ x.modules.keys)
    (module' : String) (rest : List String) (k : Nat) :
    x.resolve module ⟨"self" :: rest, false⟩ =
        x.resolve module' ⟨"crate" :: (PathText.segments module ++ rest), false⟩ ∧
      (1 ≤ k → k ≤ moduleDepth module →
        ∃ ancestor ∈ x.modules.keys, ancestor? k module = some ancestor ∧
          PathText.segments ancestor =
            (PathText.segments module).take (moduleDepth module - k) ∧
          x.resolve module ⟨List.replicate k "super" ++ rest, false⟩ =
            x.resolve module' ⟨"crate" :: (PathText.segments ancestor ++ rest), false⟩) ∧
      (moduleDepth module < k →
        x.resolve module ⟨List.replicate k "super" ++ rest, false⟩ = none) := by
  refine ⟨?_, fun hpos hk => ?_, fun hk => ?_⟩
  · rw [resolve_self, hx.resolve_crate_segments hm]
  · obtain ⟨ancestor, hmem, hancestor, hnames⟩ := hx.exists_ancestor hm hk
    refine ⟨ancestor, hmem, hancestor, hnames, ?_⟩
    rw [resolve_supers x hpos, hancestor, Option.bind_some, hx.resolve_crate_segments hmem]
  · rw [resolve_supers x (by omega), hx.ancestor?_eq_none hm hk, Option.bind_none]

/-- In `ui::kit`: through the module itself to an import, through the module around it to one that
    is followed further, to the root and past it. -/
theorem resolve_of_leadingWord_ofReexports :
    "ui::kit" ∈ ofReexports.modules.keys ∧ moduleDepth "ui::kit" = 2 ∧
      ofReexports.resolve "ui::kit" ⟨["self", "log"], false⟩ =
        ofReexports.resolve "" ⟨["crate", "ui", "kit", "log"], false⟩ ∧
      ofReexports.resolve "ui::kit" ⟨["super", "mark", "x"], false⟩ =
        ofReexports.resolve "" ⟨["crate", "ui", "mark", "x"], false⟩ ∧
      ofReexports.resolve "ui::kit" ⟨["super", "mark", "x"], false⟩ =
        some ["autolog", "auto_log_class", "x"] ∧
      ofReexports.resolve "ui::kit" ⟨["super", "super", "self", "ui"], false⟩ =
        ofReexports.resolve "ui" ⟨["crate", "self", "ui"], false⟩ ∧
      ofReexports.resolve "ui::kit" ⟨["super", "super", "super", "ui"], false⟩ = none := by
  have hx := wellFormed_ofReexports
  have hm : "ui::kit" ∈ ofReexports.modules.keys := by decide
  have hself := (resolve_of_leadingWord hx hm "" ["log"] 0).1
  obtain ⟨ui, -, hui, -, hmark⟩ :=
    (resolve_of_leadingWord hx hm "" ["mark", "x"] 1).2.1 (by decide) (by decide)
  obtain rfl : "ui" = ui := Option.some.inj ((show some "ui" = _ by decide).trans hui)
  obtain ⟨root, -, hroot, -, hword⟩ :=
    (resolve_of_leadingWord hx hm "ui" ["self", "ui"] 2).2.1 (by decide) (by decide)
  obtain rfl : "" = root := Option.some.inj ((show some "" = _ by decide).trans hroot)
  have hpast := (resolve_of_leadingWord hx hm "" ["ui"] 3).2.2 (by decide)
  -- the import of `ui` leads to that of `ui::kit`, and this one out of the crate
  have hlog : ofReexports.lookupExplicit "ui::kit" "log" [("ui", "mark")] =
      some ["autolog", "auto_log_class"] := by
    have hlink : ofReexports.import? "ui::kit" "log" =
        some ⟨["autolog", "auto_log_class"], true⟩ := by decide
    rw [lookupExplicit_import _ (by decide) (by decide) hlink]
    exact resolveWritten_leadingColon _ (by decide)
  have hfollowed : ofReexports.lookupExplicit "ui" "mark" [] =
      some ["autolog", "auto_log_class"] := by
    have hlink : ofReexports.import? "ui" "mark" =
        some ⟨["crate", "ui", "kit", "log"], false⟩ := by decide
    rw [lookupExplicit_import _ (by decide) (by decide) hlink, resolveWritten_crate]
    refine (hx.resolveInside_segments (by decide) "ui::kit" hm ["log"]).trans ?_
    rw [resolveInside_single _ (by decide) (by decide), lookup_of_explicit _ hlog]
  have hvalue : ofReexports.resolve "" ⟨["crate", "ui", "mark", "x"], false⟩ =
      some ["autolog", "auto_log_class", "x"] := by
    refine (hx.resolve_crate_segments (by decide : "ui" ∈ _) "" ["mark", "x"]).trans ?_
    rw [resolveInside_name _ (by decide) (by decide), lookup_of_explicit _ hfollowed]
    exact descend_external _ (by decide)
  exact ⟨hm, by decide, hself, hmark, hmark.trans hvalue, hword, hpast⟩

end ScopeIndex

end LogMarkers
