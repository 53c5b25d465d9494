import LogMarkers.Proofs.Scope.Routines

/-!
# One stack for the lookups under way

A resolver with one stack for the lookups under way, as a machine: it runs the routines of name
resolution, and its steps are to call, to answer and to use the stack. From any index, whatever its
imports, aliases and globs lead to, it ends with the answers of `resolve`, and each call brings the
stack back to where it was.

* `Machine`, `Machine.step`: a routine, the stack, and what waits for answers;
* `Passes`: the machine comes from one state to another, through states with a property;
* `passes_routine`: a call comes back, with its answer and the stack it was made with;
* `resolution_ends_with_stack_kept`: what follows for every resolution;
* `resolve_eq_of_run`: so the machine computes what a path resolves to.
-/

namespace LogMarkers

namespace Resolution

open ScopeIndex

/-! ## 1. The machine -/

/-- The routine that is running, the lookups under way, and what goes on with the answers of the
    calls that have not come back, the innermost first. -/
structure Machine where
  routine : Routine
  guarded : Guard
  waiting : List (Option (List String) → Routine)

namespace Machine

/-- A resolution that starts. -/
def start (module : String) (path : WrittenPath) : Machine :=
  ⟨.call (.written module path false true) .answer, [], []⟩

/-- A resolution that has ended. -/
def done (found : Option (List String)) : Machine := ⟨.answer found, [], []⟩

/-- One step; nothing happens any more once the outermost routine has its answer. -/
def step (x : ScopeIndex) : Machine → Machine
  | ⟨.answer found, g, []⟩ => ⟨.answer found, g, []⟩
  | ⟨.answer found, g, next :: waiting⟩ => ⟨next found, g, waiting⟩
  | ⟨.call c next, g, waiting⟩ => ⟨x.routine c, g, next :: waiting⟩
  | ⟨.ask key next, g, waiting⟩ => ⟨next (g.contains key), g, waiting⟩
  | ⟨.push key next, g, waiting⟩ => ⟨next, key :: g, waiting⟩
  | ⟨.pop next, g, waiting⟩ => ⟨next, g.tail, waiting⟩

/-- Several steps. -/
def run (x : ScopeIndex) : Nat → Machine → Machine
  | 0, s => s
  | n + 1, s => run x n (s.step x)

end Machine

/-! ## 2. Runs -/

variable {x : ScopeIndex}

/-- What holds of every state: the stack holds no key twice, and a call that is made is due. -/
structure Machine.Sound (s : Machine) : Prop where
  nodup : s.guarded.Nodup
  due : ∀ c next, s.routine = .call c next → c.Due s.guarded

/-- The machine comes from a state to another one through states with a property, these two
    included. -/
inductive Passes (x : ScopeIndex) (P : Machine → Prop) : Machine → Machine → Prop where
  | here {s : Machine} (hs : P s) : Passes x P s s
  | step {s t : Machine} (hs : P s) (hnext : Passes x P (s.step x) t) : Passes x P s t

theorem Passes.trans {P : Machine → Prop} {s t u : Machine} (h : Passes x P s t)
    (h' : Passes x P t u) : Passes x P s u := by
  induction h with
  | here => exact h'
  | step hs _ ih => exact .step hs (ih h')

theorem Passes.mono {P Q : Machine → Prop} (hPQ : ∀ s, P s → Q s) {s t : Machine}
    (h : Passes x P s t) : Passes x Q s t := by
  induction h with
  | here hs => exact .here (hPQ _ hs)
  | step hs _ ih => exact .step (hPQ _ hs) ih

theorem Machine.run_add (m n : Nat) (s : Machine) : run x (m + n) s = run x n (run x m s) := by
  induction m generalizing s with
  | zero => rw [Nat.zero_add, run]
  | succ m ih => rw [Nat.succ_add, run, run, ih]

theorem Machine.run_done (n : Nat) (found : Option (List String)) :
    run x n (done found) = done found := by
  induction n with
  | zero => rfl
  | succ n ih => exact ih

/-- A way through states with a property is a run of some length. -/
theorem Passes.exists_run {P : Machine → Prop} {s t : Machine} (h : Passes x P s t) :
    ∃ n, s.run x n = t ∧ ∀ i ≤ n, P (s.run x i) := by
  induction h with
  | here hs => exact ⟨0, rfl, fun i hi => by rwa [Nat.le_zero.mp hi]⟩
  | step hs _ ih =>
    obtain ⟨n, hrun, hall⟩ := ih
    refine ⟨n + 1, hrun, fun i hi => ?_⟩
    cases i with
    | zero => exact hs
    | succ i => exact hall i (Nat.le_of_succ_le_succ hi)

/-- A state on the way of a routine that runs while `waiting` waits for it. -/
def Machine.Within (waiting : List (Option (List String) → Routine)) (s : Machine) : Prop :=
  s.Sound ∧ waiting <:+ s.waiting

theorem Machine.Within.mono {next : Option (List String) → Routine}
    {waiting : List (Option (List String) → Routine)} (s : Machine)
    (h : s.Within (next :: waiting)) : s.Within waiting :=
  ⟨h.1, (List.suffix_cons _ _).trans h.2⟩

/-- A state between two calls, with what waits for the routine. -/
theorem within_of_nodup {r : Routine} {g : Guard}
    (waiting : List (Option (List String) → Routine)) (hg : g.Nodup)
    (hr : ∀ c next, r ≠ .call c next) : Machine.Within waiting ⟨r, g, waiting⟩ :=
  ⟨⟨hg, fun c next e => absurd e (hr c next)⟩, List.suffix_refl _⟩

/-- **A routine that keeps the stack in order** comes to its answer with the stack `entry`, if the
    calls it may make come back with theirs. -/
theorem Routine.Keeps.passes {allowed : Call → Guard → Prop}
    (hdue : ∀ c g, allowed c g → c.Due g)
    (hcalls : ∀ c g, allowed c g → g.Nodup → ∀ waiting,
      Passes x (Machine.Within waiting) ⟨x.routine c, g, waiting⟩
        ⟨.answer (x.answer c g), g, waiting⟩)
    {entry : Guard} {r : Routine} {g : Guard} (h : r.Keeps allowed entry g) (hg : g.Nodup)
    (waiting : List (Option (List String) → Routine)) :
    Passes x (Machine.Within waiting) ⟨r, g, waiting⟩
      ⟨.answer (x.result r g), entry, waiting⟩ := by
  induction h with
  | answer found => exact .here (within_of_nodup waiting hg nofun)
  | @call c next g hc _ ih =>
    have hmade : Machine.Within waiting ⟨.call c next, g, waiting⟩ := by
      refine ⟨⟨hg, fun c' next' e => ?_⟩, List.suffix_refl _⟩
      cases e
      exact hdue c g hc
    have hback := hcalls c g hc hg (next :: waiting)
    have hanswered : Machine.Within waiting ⟨.answer (x.answer c g), g, next :: waiting⟩ :=
      ⟨⟨hg, nofun⟩, List.suffix_cons _ _⟩
    exact .step hmade ((hback.mono Machine.Within.mono).trans
      (.step hanswered (ih (x.answer c g) hg)))
  | @ask key next g _ _ ihthere ihfree =>
    refine .step (within_of_nodup waiting hg nofun) ?_
    change Passes x _ ⟨next (g.contains key), g, waiting⟩
      ⟨.answer (x.result (next (g.contains key)) g), entry, waiting⟩
    by_cases hkey : key ∈ g
    · rw [List.contains_iff_mem.mpr hkey]
      exact ihthere hkey hg
    · have hcontains : g.contains key = false := by simpa using hkey
      rw [hcontains]
      exact ihfree hkey hg
  | push hfree _ ih =>
    exact .step (within_of_nodup waiting hg nofun) (ih (List.nodup_cons.mpr ⟨hfree, hg⟩))
  | pop _ ih =>
    exact .step (within_of_nodup waiting hg nofun) (ih (List.nodup_cons.mp hg).2)

/-- **A call comes back with its answer and the stack it was made with**: the calls that are made on
    its way are lighter. -/
theorem passes_routine (c : Call) (g : Guard) (hdue : c.Due g) (hg : g.Nodup)
    (waiting : List (Option (List String) → Routine)) :
    Passes x (Machine.Within waiting) ⟨x.routine c, g, waiting⟩
      ⟨.answer (x.answer c g), g, waiting⟩ := by
  rw [← result_routine hdue]
  exact (keeps_routine hdue).passes (fun _ _ hbelow => hbelow.1)
    (fun c' g' hbelow hg' waiting' => passes_routine c' g' hbelow.1 hg' waiting') hg waiting
termination_by x.weight c g
decreasing_by exact hbelow.2

/-- A resolution passes from its start to its answer. -/
theorem passes_start (x : ScopeIndex) (module : String) (path : WrittenPath) :
    Passes x Machine.Sound (.start module path) (.done (x.resolve module path)) := by
  have hback := passes_routine (x := x) (.written module path false true) [] trivial .nil [.answer]
  have hmade : Machine.Sound (.start module path) := by
    refine ⟨.nil, fun c next e => ?_⟩
    cases e
    trivial
  have hanswered : Machine.Sound ⟨.answer (x.resolve module path), [], [.answer]⟩ :=
    ⟨.nil, nofun⟩
  exact .step hmade ((hback.mono fun _ h => h.1).trans (.step hanswered (.here ⟨.nil, nofun⟩)))

/-- Every state of a resolution is sound. -/
theorem sound_run (x : ScopeIndex) (module : String) (path : WrittenPath) (n : Nat) :
    ((Machine.start module path).run x n).Sound := by
  obtain ⟨m, hrun, hsound⟩ := (passes_start x module path).exists_run
  rcases Nat.le_total n m with hn | hn
  · exact hsound n hn
  · obtain ⟨k, rfl⟩ := Nat.exists_eq_add_of_le hn
    rw [Machine.run_add, hrun, Machine.run_done]
    exact ⟨.nil, nofun⟩

/-- **What the machine ends with is what the path resolves to.** -/
theorem resolve_eq_of_run {module : String} {path : WrittenPath} {found : Option (List String)}
    (n : Nat) (h : (Machine.start module path).run x n = .done found) :
    x.resolve module path = found := by
  obtain ⟨m, hrun, -⟩ := (passes_start x module path).exists_run
  have hsame : Machine.done (x.resolve module path) = .done found := by
    rw [← Machine.run_done (x := x) n (x.resolve module path),
      ← Machine.run_done (x := x) m found, ← hrun, ← h, ← Machine.run_add, ← Machine.run_add,
      Nat.add_comm]
  exact congrArg (fun s => x.result s.routine s.guarded) hsame

end Resolution

open Resolution

/-- **Name resolution ends and keeps its stack in order**, for every index, module and path:

    * it comes to the answer of `resolve`, with an empty stack;
    * at no time the stack holds a key twice;
    * every call that is made on the way comes back, with the answer of its function and with the
      stack it was made with. -/
theorem resolution_ends_with_stack_kept (x : ScopeIndex) (module : String) (path : WrittenPath) :
    (∃ n, (Machine.start module path).run x n = .done (x.resolve module path)) ∧
      ∀ n, ((Machine.start module path).run x n).guarded.Nodup ∧
        ∀ c next g waiting, (Machine.start module path).run x n = ⟨.call c next, g, waiting⟩ →
          ∃ m, (Machine.start module path).run x (n + 1 + m) =
              ⟨.answer (x.answer c g), g, next :: waiting⟩ ∧
            ∀ i ≤ m,
              next :: waiting <:+ ((Machine.start module path).run x (n + 1 + i)).waiting := by
  obtain ⟨n, hrun, -⟩ := (passes_start x module path).exists_run
  refine ⟨⟨n, hrun⟩, fun n => ?_⟩
  have hsound := sound_run x module path n
  refine ⟨hsound.nodup, fun c next g waiting hcall => ?_⟩
  rw [hcall] at hsound
  have hback := passes_routine (x := x) c g (hsound.due c next rfl) hsound.nodup (next :: waiting)
  obtain ⟨m, hanswer, hwithin⟩ := hback.exists_run
  -- the routine of the call is what runs right after the call
  have hentered : (Machine.start module path).run x (n + 1) =
      ⟨x.routine c, g, next :: waiting⟩ := by
    rw [Machine.run_add, hcall]
    rfl
  refine ⟨m, ?_, fun i hi => ?_⟩
  · rw [Machine.run_add, hentered, hanswer]
  · rw [Machine.run_add, hentered]
    exact (hwithin i hi).2

/-- Two imports that lead to each other: the first one is looked up again while both keys are on the
    stack, and at the end the stack is empty. -/
example :
    let x := (({} : ScopeIndex).addImport "" "a" ⟨["self", "b"], false⟩).addImport "" "b"
      ⟨["self", "a"], false⟩
    ((Machine.start "" ⟨["a"], false⟩).run x 17).guarded = [("", "b"), ("", "a")] ∧
      ((Machine.start "" ⟨["a"], false⟩).run x 33).guarded = [] := by
  decide

end LogMarkers
