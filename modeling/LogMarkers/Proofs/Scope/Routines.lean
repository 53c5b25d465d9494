import LogMarkers.Proofs.Scope.Lookup

/-!
# What the functions of name resolution do with one stack

The functions of name resolution hand the lookups under way to each other as an argument. Here each
of them is a routine that keeps them on one stack instead: a lookup puts its key on it and takes it
off again, and a routine that forgets this on one of its ways out spoils the lookups that follow.

* `Routine`, `routine`: what each of the six functions does, call by call;
* `Routine.Keeps`: a routine puts on only what is not there, takes off what it put on, and calls
  only what is allowed;
* `keeps_routine`: each function does so by itself, where a call is allowed that is lighter than the
  function (`Below`), in the measure by which resolution ends;
* `result_routine`: each function gives the answer of its counterpart, if its calls do.
-/

namespace LogMarkers

namespace Resolution

/-! ## 1. Routines -/

/-- A call of one of the functions of name resolution. -/
inductive Call where
  /-- A path written in a module. -/
  | written (module : String) (path : WrittenPath) (bareIsExternal useGlobs : Bool)
  /-- Names that start inside a module. -/
  | inside (module : String) (segments : List String)
  /-- Names that follow a resolved path. -/
  | behind (base rest : List String)
  /-- A name as seen from a module. -/
  | lookup (module name : String)
  /-- A name declared or imported in a module, or a module inside it. -/
  | explicit (module name : String)
  /-- The same while its key is on the stack. -/
  | unguarded (module name : String)

/-- What a function still has to do: give its answer, or call a function or use the stack first. -/
inductive Routine where
  | answer (found : Option (List String))
  | call (c : Call) (next : Option (List String) → Routine)
  /-- Ask whether a key is on the stack. -/
  | ask (key : String × String) (next : Bool → Routine)
  | push (key : String × String) (next : Routine)
  | pop (next : Routine)

/-- Collect what the globs of a module offer for a name; the search is taken off the stack at the
    end. -/
def searchGlobs (name module : String) : List WrittenPath → List (List String) → Routine
  | [], found => .pop (.answer (only? (dedupAdjacent found)))
  | glob :: globs, found =>
    .call (.written module glob true false) fun
      | none => searchGlobs name module globs found
      | some base =>
        match ScopeIndex.localModule? base with
        | some source => .call (.explicit source name) fun
          | none => searchGlobs name module globs found
          | some candidate => searchGlobs name module globs (found ++ [candidate])
        | none => searchGlobs name module globs (found ++ [base ++ [name]])

end Resolution

open Resolution

namespace ScopeIndex

/-- A path written in a module. -/
def writtenRoutine (module : String) (path : WrittenPath) (bareIsExternal useGlobs : Bool) :
    Routine :=
  if path.leadingColon then .answer (if path.segments = [] then none else some path.segments)
  else
    match path.segments with
    | [] => .answer none
    | first :: rest =>
      if first = "crate" then .call (.inside "" rest) .answer
      else if first = "self" then .call (.inside module rest) .answer
      else if first = "super" then
        match parentModule? module with
        | none => .answer none
        | some parent => .call (.inside parent rest) .answer
      else
        .call (if useGlobs then .lookup module first else .explicit module first) fun
          | some base => .call (.behind base rest) .answer
          | none => .answer (if rest ≠ [] ∨ bareIsExternal then some (first :: rest) else none)

/-- Names that start inside a module. -/
def insideRoutine (module : String) (segments : List String) : Routine :=
  match segments with
  | [] => .answer (some (modulePath module))
  | first :: rest =>
    if first = "self" then .call (.inside module rest) .answer
    else if first = "super" then
      match parentModule? module with
      | none => .answer none
      | some parent => .call (.inside parent rest) .answer
    else
      .call (.lookup module first) fun
        | some base => .call (.behind base rest) .answer
        | none => .answer none

/-- Names that follow a resolved path. -/
def behindRoutine (x : ScopeIndex) (base rest : List String) : Routine :=
  if rest = [] then .answer (some base)
  else
    match localModule? base with
    | some module =>
      if x.isModule module then .call (.inside module rest) .answer
      else .answer (some (base ++ rest))
    | none => .answer (some (base ++ rest))

/-- A name as seen from a module. The stack is asked for the search among its globs, and while this
    goes on its key is on the stack. -/
def lookupRoutine (x : ScopeIndex) (module name : String) : Routine :=
  .call (.explicit module name) fun
    | some found => .answer (some found)
    | none =>
      match x.scope? module with
      | none => .answer none
      | some s =>
        if s.globs = [] then .answer none
        else
          .ask (starKey module name) fun
            | true => .answer none
            | false => .push (starKey module name) (searchGlobs name module s.globs [])

/-- A name declared or imported in a module: its key goes on the stack, and off again. -/
def explicitRoutine (module name : String) : Routine :=
  .ask (module, name) fun
    | true => .answer none
    | false =>
      .push (module, name) (.call (.unguarded module name) fun found => .pop (.answer found))

/-- The same while its key is on the stack. -/
def unguardedRoutine (x : ScopeIndex) (module name : String) : Routine :=
  match x.item? module name with
  | some (.typeAlias target) =>
    .call (.written module target false true) fun found =>
      .answer (some (found.getD (itemPath module name)))
  | some _ => .answer (some (itemPath module name))
  | none =>
    match x.import? module name with
    | some target => .call (.written module target true true) .answer
    | none =>
      .answer (if x.modules.contains (PathText.within module name) then
        some (itemPath module name) else none)

/-- What a function of name resolution does. -/
def routine (x : ScopeIndex) : Call → Routine
  | .written module path bareIsExternal useGlobs =>
    writtenRoutine module path bareIsExternal useGlobs
  | .inside module segments => insideRoutine module segments
  | .behind base rest => x.behindRoutine base rest
  | .lookup module name => x.lookupRoutine module name
  | .explicit module name => explicitRoutine module name
  | .unguarded module name => x.unguardedRoutine module name

/-- What a call is answered while these lookups are under way. -/
def answer (x : ScopeIndex) : Call → Guard → Option (List String)
  | .written module path bareIsExternal useGlobs, g =>
    x.resolveWritten module path bareIsExternal useGlobs g
  | .inside module segments, g => x.resolveInside module segments g
  | .behind base rest, g => x.descend base rest g
  | .lookup module name, g => x.lookup module name g
  | .explicit module name, g => x.lookupExplicit module name g
  | .unguarded module name, g => x.lookupExplicit module name g.tail

end ScopeIndex

namespace Resolution

/-! ## 2. Order on the stack -/

/-- A call may be made with this stack: the function for a lookup that is under way runs only right
    after the key of the lookup was put on. -/
def Call.Due : Call → Guard → Prop
  | .unguarded module name, g => ∃ below, g = (module, name) :: below ∧ (module, name) ∉ below
  | _, _ => True

/-- A routine that runs with the stack `g` keeps the stack in order: it puts on only what is not
    there, takes off only what it put on, and has its answer with the stack `entry`, if the calls it
    makes, which are all `allowed`, bring the stack back. -/
inductive Routine.Keeps (allowed : Call → Guard → Prop) (entry : Guard) :
    Routine → Guard → Prop where
  | answer (found : Option (List String)) : Keeps allowed entry (.answer found) entry
  | call {c : Call} {next : Option (List String) → Routine} {g : Guard} (hc : allowed c g)
      (hnext : ∀ found, Keeps allowed entry (next found) g) : Keeps allowed entry (.call c next) g
  | ask {key : String × String} {next : Bool → Routine} {g : Guard}
      (hthere : key ∈ g → Keeps allowed entry (next true) g)
      (hfree : key ∉ g → Keeps allowed entry (next false) g) :
      Keeps allowed entry (.ask key next) g
  | push {key : String × String} {next : Routine} {g : Guard} (hfree : key ∉ g)
      (hnext : Keeps allowed entry next (key :: g)) : Keeps allowed entry (.push key next) g
  | pop {key : String × String} {next : Routine} {g : Guard} (hnext : Keeps allowed entry next g) :
      Keeps allowed entry (.pop next) (key :: g)

end Resolution

namespace ScopeIndex

variable (x : ScopeIndex)

/-- The weight of a call: the keys that can still be put on the stack count most, then the names
    that are left, then how far the function is from the names. -/
def weight : Call → Guard → Nat × Nat × Nat
  | .written _ path _ _, g => (x.openKeys g path.segments, path.segments.length, 3)
  | .inside _ segments, g => (x.openKeys g segments, segments.length, 0)
  | .behind _ rest, g => (x.openKeys g rest, rest.length, 1)
  | .lookup _ name, g => (x.openKeys g [name], 0, 2)
  | .explicit _ name, g => (x.openKeys g [name], 0, 1)
  | .unguarded _ name, g => (x.openKeys g.tail [name], 0, 0)

/-- A call that may be made on the way of another one: it is due, and lighter. -/
def Below (c : Call) (g : Guard) (c' : Call) (g' : Guard) : Prop :=
  c'.Due g' ∧ Prod.Lex (· < ·) (Prod.Lex (· < ·) (· < ·)) (x.weight c' g') (x.weight c g)

variable {x} {module name : String} {g : Guard}

theorem keeps_searchGlobs {s : ModuleScope} (hs : x.scope? module = some s)
    (hfree : starKey module name ∉ g) {globs : List WrittenPath} (hglobs : globs ⊆ s.globs)
    (found : List (List String)) :
    (searchGlobs name module globs found).Keeps (x.Below (.lookup module name) g) g
      (starKey module name :: g) := by
  have hmodule := mem_keys_of_scope? hs
  induction globs generalizing found with
  | nil => exact .pop (.answer _)
  | cons glob globs ih =>
    have hrest := ih fun _ h => hglobs (List.mem_cons_of_mem _ h)
    have hlinked := glob_mem_linkPaths hs (hglobs List.mem_cons_self)
    refine .call ⟨trivial, .left _ _ (openKeys_star_lt hmodule hfree ?_)⟩ ?_
    · rw [filter_linkNames_eq_nil (mem_linkNames hlinked)]
      exact List.nil_sublist _
    rintro (_ | base)
    · exact hrest found
    dsimp only
    cases localModule? base with
    | none => exact hrest _
    | some source =>
      refine .call ⟨trivial, .left _ _ (openKeys_star_lt hmodule hfree (.refl _))⟩ ?_
      rintro (_ | candidate)
      · exact hrest found
      · exact hrest _

/-- A call with the names that follow the first one. -/
theorem below_of_rest {c c' : Call} {first : String} {rest : List String} {n n' : Nat}
    (hdue : c'.Due g) (hc : x.weight c g = (x.openKeys g (first :: rest), rest.length + 1, n))
    (hc' : x.weight c' g = (x.openKeys g rest, rest.length, n')) : x.Below c g c' g := by
  refine ⟨hdue, ?_⟩
  rw [hc, hc']
  exact lex_of_le (x.openKeys_le _ (List.sublist_cons_self _ _)) (.left _ _ (Nat.lt_succ_self _))

/-- A call with the first name only. -/
theorem below_of_first {c c' : Call} {first : String} {rest : List String} {n n' : Nat}
    (hdue : c'.Due g) (hc : x.weight c g = (x.openKeys g (first :: rest), rest.length + 1, n))
    (hc' : x.weight c' g = (x.openKeys g [first], 0, n')) : x.Below c g c' g := by
  refine ⟨hdue, ?_⟩
  rw [hc, hc']
  exact lex_of_le (x.openKeys_le _ (by simp)) (.left _ _ (Nat.zero_lt_succ _))

theorem keeps_writtenRoutine (module : String) (path : WrittenPath)
    (bareIsExternal useGlobs : Bool) :
    (writtenRoutine module path bareIsExternal useGlobs).Keeps
      (x.Below (.written module path bareIsExternal useGlobs) g) g g := by
  obtain ⟨segments, leadingColon⟩ := path
  unfold writtenRoutine
  split
  · exact .answer _
  cases segments with
  | nil => exact .answer _
  | cons first rest =>
    dsimp only
    split
    · exact .call (below_of_rest trivial rfl rfl) .answer
    split
    · exact .call (below_of_rest trivial rfl rfl) .answer
    split
    · cases parentModule? module with
      | none => exact .answer _
      | some parent => exact .call (below_of_rest trivial rfl rfl) .answer
    · refine .call ?_ ?_
      · cases useGlobs with
        | true => exact below_of_first trivial rfl rfl
        | false => exact below_of_first trivial rfl rfl
      · rintro (_ | base)
        · exact .answer _
        · exact .call (below_of_rest trivial rfl rfl) .answer

theorem keeps_insideRoutine (module : String) (segments : List String) :
    (insideRoutine module segments).Keeps (x.Below (.inside module segments) g) g g := by
  cases segments with
  | nil => exact .answer _
  | cons first rest =>
    unfold insideRoutine
    dsimp only
    split
    · exact .call (below_of_rest trivial rfl rfl) .answer
    split
    · cases parentModule? module with
      | none => exact .answer _
      | some parent => exact .call (below_of_rest trivial rfl rfl) .answer
    · refine .call (below_of_first trivial rfl rfl) ?_
      rintro (_ | base)
      · exact .answer _
      · exact .call (below_of_rest trivial rfl rfl) .answer

theorem keeps_behindRoutine (base rest : List String) :
    (x.behindRoutine base rest).Keeps (x.Below (.behind base rest) g) g g := by
  unfold behindRoutine
  split
  · exact .answer _
  split
  · split
    · exact .call ⟨trivial, .right _ (.right _ (by decide))⟩ .answer
    · exact .answer _
  · exact .answer _

theorem keeps_lookupRoutine (module name : String) :
    (x.lookupRoutine module name).Keeps (x.Below (.lookup module name) g) g g := by
  refine .call ⟨trivial, .right _ (.right _ (by decide))⟩ ?_
  rintro (_ | found)
  · dsimp only
    split
    · exact .answer _
    rename_i s hs
    split
    · exact .answer _
    · exact .ask (fun _ => .answer _) fun hfree =>
        .push hfree (keeps_searchGlobs hs hfree (List.Subset.refl _) [])
  · exact .answer _

theorem keeps_explicitRoutine (module name : String) :
    (explicitRoutine module name).Keeps (x.Below (.explicit module name) g) g g := by
  refine .ask (fun _ => .answer _) fun hfree => .push hfree ?_
  exact .call ⟨⟨g, rfl, hfree⟩, .right _ (.right _ (by decide))⟩ fun _ => .pop (.answer _)

theorem keeps_unguardedRoutine (hfree : (module, name) ∉ g) :
    (x.unguardedRoutine module name).Keeps (x.Below (.unguarded module name) ((module, name) :: g))
      ((module, name) :: g) ((module, name) :: g) := by
  unfold unguardedRoutine
  split
  · rename_i target hi
    refine .call ⟨trivial, .left _ _ ?_⟩ fun _ => .answer _
    exact openKeys_link_lt (item_mem_linkKeys hi) hfree (mem_linkNames (alias_mem_linkPaths hi))
  · exact .answer _
  · split
    · rename_i target hm
      refine .call ⟨trivial, .left _ _ ?_⟩ .answer
      exact openKeys_link_lt (import_mem_linkKeys hm) hfree
        (mem_linkNames (import_mem_linkPaths hm))
    · exact .answer _

/-- **Each function keeps the stack in order**, and calls only what is lighter than itself. -/
theorem keeps_routine {c : Call} (hdue : c.Due g) : (x.routine c).Keeps (x.Below c g) g g := by
  cases c with
  | written => exact keeps_writtenRoutine ..
  | inside => exact keeps_insideRoutine ..
  | behind => exact keeps_behindRoutine ..
  | lookup => exact keeps_lookupRoutine ..
  | explicit => exact keeps_explicitRoutine ..
  | unguarded module name =>
    obtain ⟨below, rfl, hfree⟩ := hdue
    exact keeps_unguardedRoutine hfree

/-! ## 3. The answers -/

/-- The answer of a routine whose calls are answered as name resolution answers them. -/
def result (x : ScopeIndex) : Routine → Guard → Option (List String)
  | .answer found, _ => found
  | .call c next, g => x.result (next (x.answer c g)) g
  | .ask key next, g => x.result (next (g.contains key)) g
  | .push key next, g => x.result next (key :: g)
  | .pop next, g => x.result next g.tail

theorem result_searchGlobs (globs : List WrittenPath) (found : List (List String)) :
    x.result (searchGlobs name module globs found) (starKey module name :: g) =
      only? (dedupAdjacent (found ++ globs.filterMap (x.globCandidate? module name g))) := by
  induction globs generalizing found with
  | nil => simp [searchGlobs, result]
  | cons glob globs ih =>
    have hcandidate : x.result (searchGlobs name module (glob :: globs) found)
        (starKey module name :: g) = x.result (searchGlobs name module globs
          (found ++ (x.globCandidate? module name g glob).toList)) (starKey module name :: g) := by
      rw [searchGlobs, result, answer, globCandidate?]
      cases x.resolveWritten module glob true false (starKey module name :: g) with
      | none => simp
      | some base =>
        dsimp only
        cases localModule? base with
        | none => rfl
        | some source =>
          dsimp only
          rw [result, answer]
          cases x.lookupExplicit source name (starKey module name :: g) <;> simp
    rw [hcandidate, ih, List.append_assoc]
    cases hoffer : x.globCandidate? module name g glob with
    | none => rw [List.filterMap_cons_none hoffer]; rfl
    | some candidate => rw [List.filterMap_cons_some hoffer]; rfl

theorem result_writtenRoutine (module : String) (path : WrittenPath)
    (bareIsExternal useGlobs : Bool) :
    x.result (writtenRoutine module path bareIsExternal useGlobs) g =
      x.resolveWritten module path bareIsExternal useGlobs g := by
  obtain ⟨segments, leadingColon⟩ := path
  cases leadingColon with
  | true => simp [writtenRoutine, result, resolveWritten]
  | false =>
    cases segments with
    | nil => simp [writtenRoutine, result]
    | cons first rest =>
      unfold writtenRoutine
      dsimp only
      rw [if_neg Bool.false_ne_true]
      split
      · rename_i hc
        rw [hc, resolveWritten_crate]
        rfl
      rename_i hc
      split
      · rename_i hself
        rw [hself, resolveWritten_self]
        rfl
      rename_i hself
      split
      · rename_i hsuper
        rw [hsuper, resolveWritten_super]
        cases parentModule? module <;> rfl
      rename_i hsuper
      have hfound : x.answer (if useGlobs then .lookup module first else .explicit module first) g =
          if useGlobs then x.lookup module first g else x.lookupExplicit module first g := by
        cases useGlobs <;> rfl
      rw [resolveWritten_name x hc hself hsuper, result, hfound]
      cases (if useGlobs then x.lookup module first g else x.lookupExplicit module first g) <;> rfl

theorem result_insideRoutine (module : String) (segments : List String) :
    x.result (insideRoutine module segments) g = x.resolveInside module segments g := by
  cases segments with
  | nil => simp [insideRoutine, result]
  | cons first rest =>
    unfold insideRoutine
    dsimp only
    split
    · rename_i hself
      rw [hself, resolveInside_self]
      rfl
    rename_i hself
    split
    · rename_i hsuper
      rw [hsuper, resolveInside_super]
      cases parentModule? module <;> rfl
    rename_i hsuper
    rw [resolveInside_name x hself hsuper, result, answer]
    cases x.lookup module first g <;> rfl

theorem result_behindRoutine (base rest : List String) :
    x.result (x.behindRoutine base rest) g = x.descend base rest g := by
  unfold behindRoutine
  split
  · rename_i hrest
    simp [hrest, result]
  rename_i hrest
  cases hl : localModule? base with
  | none =>
    rw [x.descend_external hl]
    rfl
  | some module =>
    dsimp only
    cases hm : x.isModule module with
    | true =>
      rw [x.descend_module hrest hl hm]
      rfl
    | false =>
      rw [x.descend_of_not_module hl hm]
      rfl

theorem result_lookupRoutine (module name : String) :
    x.result (x.lookupRoutine module name) g = x.lookup module name g := by
  rw [lookupRoutine, result, answer, lookup_eq]
  cases x.lookupExplicit module name g with
  | some found => rfl
  | none =>
    dsimp only
    cases x.scope? module with
    | none => rfl
    | some s =>
      dsimp only
      by_cases hglobs : s.globs = []
      · rw [if_pos hglobs, hglobs]
        simp [result, only?, dedupAdjacent]
      rw [if_neg hglobs, result]
      by_cases hg : starKey module name ∈ g
      · rw [List.contains_iff_mem.mpr hg, if_pos hg]
        rfl
      · have hcontains : g.contains (starKey module name) = false := by simpa using hg
        rw [hcontains, if_neg hg]
        exact result_searchGlobs s.globs []

theorem result_unguardedRoutine (hfree : (module, name) ∉ g) :
    x.result (x.unguardedRoutine module name) ((module, name) :: g) =
      x.lookupExplicit module name g := by
  unfold unguardedRoutine
  cases hi : x.item? module name with
  | some kind =>
    cases kind with
    | typeAlias target =>
      rw [x.lookupExplicit_alias hfree hi]
      rfl
    | submodule | nominal | value =>
      rw [x.lookupExplicit_item hfree hi (by nofun)]
      rfl
  | none =>
    dsimp only
    cases hm : x.import? module name with
    | some target =>
      rw [x.lookupExplicit_import hfree hi hm]
      rfl
    | none =>
      rw [x.lookupExplicit_child hfree hi hm]
      rfl

theorem result_explicitRoutine (module name : String) :
    x.result (explicitRoutine module name) g = x.lookupExplicit module name g := by
  rw [explicitRoutine, result]
  by_cases hg : (module, name) ∈ g
  · rw [List.contains_iff_mem.mpr hg, x.lookupExplicit_guarded hg]
    rfl
  · have hcontains : g.contains (module, name) = false := by simpa using hg
    rw [hcontains]
    rfl

/-- **A routine gives the answer of its function**, if the calls it makes do. -/
theorem result_routine {c : Call} (hdue : c.Due g) : x.result (x.routine c) g = x.answer c g := by
  cases c with
  | written => exact result_writtenRoutine ..
  | inside => exact result_insideRoutine ..
  | behind => exact result_behindRoutine ..
  | lookup => exact result_lookupRoutine ..
  | explicit => exact result_explicitRoutine ..
  | unguarded module name =>
    obtain ⟨below, rfl, hfree⟩ := hdue
    exact result_unguardedRoutine hfree

end ScopeIndex

end LogMarkers
