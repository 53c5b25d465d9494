import LogMarkers.Proofs.Run.GenericOwners
import LogMarkers.Proofs.Sink.EarlierRuns
import LogMarkers.Sink.Memory
import Mathlib.Data.List.Chain

/-!
# Runs into one memory sink, one after the other

Storing in memory never fails, and after a run exactly its artifacts are there. Their names are
listed where they were first stored: a name that stays from run to run keeps its place, and what is
new comes behind it. So the order of a run is kept only if what stays comes first in it.

* `MemorySink.store_eq`: what storing a run does;
* `MemorySink.get?_afterStore`, `MemorySink.order_afterStore`: which artifacts are there after it,
  and in which order;
* `MemorySink.order_afterStore_eq_iff`: when this is the order of the run;
* `memory_reflects_last_run_iff`: all of it for runs one after the other;
* `memory_keeps_earlier_order`: two runs with the names in another order than that of the last one.
-/

namespace LogMarkers

open Source

namespace MemorySink

/-! ## 1. Storing -/

/-- The names are listed once each, and those are listed that have artifacts. -/
structure Consistent (s : MemorySink) : Prop where
  nodup : s.order.Nodup
  listed : ∀ id, id ∈ s.order ↔ s.artifacts.contains id = true

/-- The sink after storing artifacts one after the other. -/
def putAll (s : MemorySink) (artifacts : List Artifact) : MemorySink := artifacts.foldl put s

/-- What storing artifacts one after the other does. -/
def outcomes : MemorySink → List Artifact → List WriteOutcome
  | _, [] => []
  | s, a :: rest => s.outcome a :: (s.put a).outcomes rest

/-- The sink after a run with these artifacts. -/
def afterStore (s : MemorySink) (artifacts : List Artifact) : MemorySink :=
  (s.putAll artifacts).finished

variable {s : MemorySink} {artifacts : List Artifact}

theorem persistAll_eq (s : MemorySink) (artifacts : List Artifact) :
    Sink.persistAll artifacts s = (.ok (s.outcomes artifacts), s.putAll artifacts) := by
  induction artifacts generalizing s with
  | nil => rfl
  | cons a rest ih =>
    have hpersist : Sink.persist s a = (.ok (s.outcome a), s.put a) := rfl
    rw [Sink.persistAll, hpersist]
    dsimp only
    rw [ih]
    rfl

/-- **Storing a run in memory** succeeds. -/
theorem store_eq (s : MemorySink) (artifacts : List Artifact) :
    Sink.store artifacts s = (.ok (s.outcomes artifacts), s.afterStore artifacts) := by
  rw [Sink.store, persistAll_eq]
  rfl

@[simp] theorem get?_put (s : MemorySink) (a : Artifact) (id : String) :
    (s.put a).get? id = if id = a.id then some a else s.get? id :=
  Table.get?_insert ..

theorem contains_put_of_ne {a : Artifact} {id : String} (h : id ≠ a.id) :
    (s.put a).artifacts.contains id = s.artifacts.contains id := by
  show ((s.put a).get? id).isSome = (s.get? id).isSome
  simp [h]

theorem contains_put (s : MemorySink) (a : Artifact) (id : String) :
    (s.put a).artifacts.contains id = true ↔ id = a.id ∨ s.artifacts.contains id = true := by
  show ((s.put a).get? id).isSome = true ↔ id = a.id ∨ (s.get? id).isSome = true
  by_cases h : id = a.id <;> simp [h]

theorem get?_putAll (hdistinct : (artifacts.map (·.id)).Nodup) (id : String) :
    (s.putAll artifacts).get? id = (artifacts.find? (·.id == id)).or (s.get? id) := by
  induction artifacts generalizing s with
  | nil => rfl
  | cons a rest ih =>
    rw [List.map_cons, List.nodup_cons] at hdistinct
    show ((s.put a).putAll rest).get? id = _
    rw [ih hdistinct.2, get?_put, List.find?_cons]
    by_cases h : id = a.id
    · subst h
      have hnone : rest.find? (·.id == a.id) = none := by
        refine List.find?_eq_none.mpr fun b hb heq => hdistinct.1 ?_
        rw [← beq_iff_eq.mp heq]
        exact List.mem_map_of_mem hb
      simp [hnone]
    · have hne : (a.id == id) = false := by simpa using Ne.symm h
      rw [if_neg h, hne]

/-- Names that are new are listed behind the others. -/
theorem order_putAll (hdistinct : (artifacts.map (·.id)).Nodup) :
    (s.putAll artifacts).order =
      s.order ++ (artifacts.map (·.id)).filter fun id => !s.artifacts.contains id := by
  induction artifacts generalizing s with
  | nil => exact (List.append_nil _).symm
  | cons a rest ih =>
    rw [List.map_cons, List.nodup_cons] at hdistinct
    have hrest : (rest.map (·.id)).filter (fun id => !(s.put a).artifacts.contains id) =
        (rest.map (·.id)).filter fun id => !s.artifacts.contains id := by
      refine List.filter_congr fun id hid => ?_
      rw [contains_put_of_ne fun heq => hdistinct.1 (heq ▸ hid)]
    show ((s.put a).putAll rest).order = _
    rw [ih hdistinct.2, hrest, List.map_cons]
    show (if s.artifacts.contains a.id then s.order else s.order ++ [a.id]) ++ _ = _
    cases hold : s.artifacts.contains a.id with
    | true => rw [if_pos rfl, List.filter_cons_of_neg (by simp [hold])]
    | false =>
      rw [if_neg Bool.false_ne_true, List.filter_cons_of_pos (by simp [hold]), List.append_assoc]
      rfl

theorem mem_current_putAll {id : String} :
    id ∈ (s.putAll artifacts).current ↔ id ∈ artifacts.map (·.id) ∨ id ∈ s.current := by
  induction artifacts generalizing s with
  | nil => simp [putAll]
  | cons a rest ih =>
    show id ∈ ((s.put a).putAll rest).current ↔ _
    rw [ih]
    simp only [put, List.map_cons, List.mem_cons]
    tauto

theorem Consistent.put (h : s.Consistent) (a : Artifact) : (s.put a).Consistent := by
  show Consistent ⟨_, if s.artifacts.contains a.id then s.order else s.order ++ [a.id], _⟩
  cases hold : s.artifacts.contains a.id with
  | true =>
    refine ⟨h.nodup, fun id => ?_⟩
    show id ∈ s.order ↔ (s.put a).artifacts.contains id = true
    rw [contains_put, h.listed]
    refine ⟨.inr, ?_⟩
    rintro (rfl | hid)
    · exact hold
    · exact hid
  | false =>
    have hnew : a.id ∉ s.order := by rw [h.listed, hold]; exact Bool.false_ne_true
    refine ⟨List.nodup_append.mpr ⟨h.nodup, List.nodup_singleton _, ?_⟩, fun id => ?_⟩
    · rintro id hid id' hid' rfl
      exact hnew (List.mem_singleton.mp hid' ▸ hid)
    · show id ∈ s.order ++ [a.id] ↔ (s.put a).artifacts.contains id = true
      rw [contains_put, List.mem_append, List.mem_singleton, h.listed, or_comm]

theorem Consistent.putAll (h : s.Consistent) (artifacts : List Artifact) :
    (s.putAll artifacts).Consistent := by
  induction artifacts generalizing s with
  | nil => exact h
  | cons a rest ih => exact ih (h.put a)

theorem Consistent.finished (h : s.Consistent) : s.finished.Consistent := by
  refine ⟨h.nodup.filter _, fun id => ?_⟩
  show id ∈ s.order.filter _ ↔ ((s.artifacts.filterKeys _).get? id).isSome = true
  rw [List.mem_filter, h.listed, Table.get?_filterKeys, Table.contains]
  split <;> simp_all

/-! ## 2. The sink after a run -/

/-- A sink between two runs. -/
structure AtRest (s : MemorySink) : Prop extends Consistent s where
  /-- The last run is finished. -/
  current : s.current = []

theorem atRest_empty : AtRest {} where
  nodup := List.nodup_nil
  listed _ := by simp [Table.contains]
  current := rfl

theorem AtRest.afterStore (h : s.AtRest) (artifacts : List Artifact) :
    (s.afterStore artifacts).AtRest :=
  ⟨(h.toConsistent.putAll artifacts).finished, rfl⟩

theorem mem_map_id_iff {id : String} :
    id ∈ artifacts.map (·.id) ↔ (artifacts.find? (·.id == id)).isSome = true := by
  simp

/-- **After a run exactly its artifacts are there.** -/
theorem get?_afterStore (h : s.current = []) (hdistinct : (artifacts.map (·.id)).Nodup)
    (id : String) : (s.afterStore artifacts).get? id = artifacts.find? (·.id == id) := by
  have hcurrent : (s.putAll artifacts).current.contains id = true ↔
      id ∈ artifacts.map (·.id) := by
    rw [List.contains_iff_mem, mem_current_putAll, h]
    simp
  show ((s.putAll artifacts).artifacts.filterKeys _).get? id = _
  rw [Table.get?_filterKeys]
  split
  · rename_i hkept
    show (s.putAll artifacts).get? id = _
    rw [get?_putAll hdistinct]
    exact Option.or_of_isSome (mem_map_id_iff.mp (hcurrent.mp hkept))
  · rename_i hkept
    rw [hcurrent, mem_map_id_iff, Bool.not_eq_true, Option.isSome_eq_false_iff,
      Option.isNone_iff_eq_none] at hkept
    exact hkept.symm

/-- **Their names are listed** where they were before, then the new ones in the order of the run. -/
theorem order_afterStore (h : s.current = []) (hdistinct : (artifacts.map (·.id)).Nodup) :
    (s.afterStore artifacts).order = s.order.filter (· ∈ artifacts.map (·.id)) ++
      (artifacts.map (·.id)).filter fun id => !s.artifacts.contains id := by
  have hkept : ∀ id, (s.putAll artifacts).current.contains id =
      decide (id ∈ artifacts.map (·.id)) := by
    intro id
    rw [Bool.eq_iff_iff, List.contains_iff_mem, mem_current_putAll, h, decide_eq_true_iff]
    simp
  show (s.putAll artifacts).order.filter _ = _
  simp only [order_putAll hdistinct, List.filter_append, hkept, List.filter_filter]
  congr 1
  refine List.filter_congr fun id hid => ?_
  simp [hid]

theorem AtRest.order_afterStore (h : s.AtRest) (hdistinct : (artifacts.map (·.id)).Nodup) :
    (s.afterStore artifacts).order = s.order.filter (· ∈ artifacts.map (·.id)) ++
      (artifacts.map (·.id)).filter (· ∉ s.order) := by
  rw [MemorySink.order_afterStore h.current hdistinct]
  congr 1
  refine List.filter_congr fun id _ => ?_
  rw [Bool.eq_iff_iff, decide_eq_true_iff, h.listed, Bool.not_eq_true', Bool.not_eq_true]

theorem order_afterStore_perm (h : s.AtRest) (hdistinct : (artifacts.map (·.id)).Nodup) :
    (s.afterStore artifacts).order.Perm (artifacts.map (·.id)) := by
  have hafter := h.afterStore artifacts
  refine (List.perm_ext_iff_of_nodup hafter.nodup hdistinct).mpr fun id => ?_
  rw [hafter.listed, mem_map_id_iff, ← get?_afterStore h.current hdistinct]
  rfl

/-- What stays, and then what is new: this is the order of the run exactly if what stays comes first
    in it. -/
theorem filter_append_filter_eq_iff {old new : List String} (hnew : new.Nodup) :
    old.filter (· ∈ new) ++ new.filter (· ∉ old) = new ↔ old.filter (· ∈ new) <+: new := by
  constructor
  · intro h
    exact ⟨_, h⟩
  · rintro ⟨rest, hrest⟩
    have hstays : ∀ id ∈ old.filter (· ∈ new), id ∈ old := fun id hid => (List.mem_filter.mp hid).1
    have hsplit : (old.filter (· ∈ new) ++ rest).Nodup := hrest.symm ▸ hnew
    have hfresh : ∀ id ∈ rest, id ∉ old := by
      intro id hid hold
      have hmem : id ∈ new := hrest ▸ List.mem_append_right _ hid
      exact (List.nodup_append.mp hsplit).2.2 id (List.mem_filter.mpr ⟨hold, decide_eq_true hmem⟩)
        id hid rfl
    have hfilter : new.filter (· ∉ old) = rest := by
      conv_lhs => rw [← hrest]
      rw [List.filter_append, List.filter_eq_nil_iff.mpr (by simpa using fun id hid _ => hid),
        List.filter_eq_self.mpr (by simpa using hfresh), List.nil_append]
    rw [hfilter, hrest]

/-- **When the names are in the order of the run.** -/
theorem order_afterStore_eq_iff (h : s.AtRest) (hdistinct : (artifacts.map (·.id)).Nodup) :
    (s.afterStore artifacts).order = artifacts.map (·.id) ↔
      s.order.filter (· ∈ artifacts.map (·.id)) <+: artifacts.map (·.id) := by
  rw [h.order_afterStore hdistinct, filter_append_filter_eq_iff hdistinct]

/-- Sinks after the same run differ in the order of the names at most. -/
theorem afterStore_congr {s' : MemorySink} (h : s.current = []) (h' : s'.current = [])
    (hdistinct : (artifacts.map (·.id)).Nodup)
    (horder : (s.afterStore artifacts).order = (s'.afterStore artifacts).order) :
    s.afterStore artifacts = s'.afterStore artifacts := by
  have htable : (s.afterStore artifacts).artifacts = (s'.afterStore artifacts).artifacts := by
    refine Table.ext_get? fun id => ?_
    exact (get?_afterStore h hdistinct id).trans (get?_afterStore h' hdistinct id).symm
  show MemorySink.mk (s.afterStore artifacts).artifacts (s.afterStore artifacts).order [] = _
  rw [htable, horder]
  rfl

/-- A sink with the names in the order of the run is that of a new sink after this run. -/
theorem afterStore_eq_iff (h : s.AtRest) (hdistinct : (artifacts.map (·.id)).Nodup) :
    s.afterStore artifacts = afterStore {} artifacts ↔
      (s.afterStore artifacts).order = artifacts.map (·.id) := by
  have hfresh : (afterStore {} artifacts).order = artifacts.map (·.id) :=
    (order_afterStore_eq_iff atRest_empty hdistinct).mpr (List.nil_prefix ..)
  constructor
  · intro heq
    rw [heq, hfresh]
  · intro horder
    exact afterStore_congr h.current rfl hdistinct (horder.trans hfresh.symm)

end MemorySink

/-! ## 3. Runs one after the other -/

namespace HostRun

/-- A run whose sources can be read, and which stores every artifact under a name of its own. -/
structure StoresApart (r : HostRun) : Prop where
  lowers : ∃ c, r.sources.lower = .ok c
  distinct : r.names.Nodup

/-- What both runs store comes first in the later one, in the order of the earlier one. -/
def InStep (r r' : HostRun) : Prop := r.names.filter (· ∈ r'.names) <+: r'.names

end HostRun

namespace MemorySink

variable {runs : List HostRun} {r : HostRun}

/-- **A run into memory** succeeds if its sources can be read. -/
theorem generate_eq {c : LoweredCrate} (hlower : r.sources.lower = .ok c) (s : MemorySink) :
    r.host.generate r.sources s =
      (.ok (r.host.report (r.host.output c) (s.outcomes r.artifacts)),
        s.afterStore r.artifacts) := by
  rw [Host.generate_of_lower hlower, store_eq, HostRun.artifacts_of_lower hlower]
  rfl

/-- The sink after runs into a new one. -/
def afterRuns (runs : List HostRun) : MemorySink :=
  runs.foldl (fun s r => (r.host.generate r.sources s).2) {}

theorem afterRuns_concat (runs : List HostRun) (r : HostRun) :
    afterRuns (runs ++ [r]) = (r.host.generate r.sources (afterRuns runs)).2 := by
  rw [afterRuns, List.foldl_append]
  rfl

theorem afterRuns_concat_of_storesApart (runs : List HostRun) (h : r.StoresApart) :
    afterRuns (runs ++ [r]) = (afterRuns runs).afterStore r.artifacts := by
  obtain ⟨c, hlower⟩ := h.lowers
  rw [afterRuns_concat, generate_eq hlower]

/-- One more run reports its names. -/
theorem exists_report (runs : List HostRun) (h : r.StoresApart) :
    ∃ report, r.host.generate r.sources (afterRuns runs) = (.ok report, afterRuns (runs ++ [r])) ∧
      report.artifactIds = r.names := by
  obtain ⟨c, hlower⟩ := h.lowers
  rw [afterRuns_concat_of_storesApart runs h]
  refine ⟨_, generate_eq hlower _, ?_⟩
  rw [HostRun.names, HostRun.artifacts_of_lower hlower]
  rfl

/-- Whatever was stored, and whether or not the sources could be read, the sink is at rest. -/
theorem atRest_afterRuns (runs : List HostRun) : (afterRuns runs).AtRest := by
  induction runs using List.reverseRecOn with
  | nil => exact atRest_empty
  | append_singleton runs r ih =>
    rw [afterRuns_concat]
    cases hlower : r.sources.lower with
    | ok c =>
      rw [generate_eq hlower]
      exact ih.afterStore _
    | error e =>
      rw [Host.generate, hlower]
      exact ih

theorem order_afterRuns_concat (runs : List HostRun) (h : r.StoresApart) :
    (afterRuns (runs ++ [r])).order = (afterRuns runs).order.filter (· ∈ r.names) ++
      r.names.filter (· ∉ (afterRuns runs).order) := by
  rw [afterRuns_concat_of_storesApart runs h]
  exact (atRest_afterRuns runs).order_afterStore h.distinct

/-- A sink is what a new one is after this run alone. -/
structure Reflects (s : MemorySink) (r : HostRun) : Prop where
  /-- The names are those of the run, in its order. -/
  order : s.order = r.names
  /-- The artifacts are those of the run. -/
  stored : ∀ id, s.get? id = r.artifacts.find? (·.id == id)
  fresh : s = afterRuns [r]

/-- One more run is reflected exactly if what stays comes first in it. -/
theorem reflects_concat_iff (runs : List HostRun) (h : r.StoresApart) :
    (afterRuns (runs ++ [r])).Reflects r ↔
      (afterRuns runs).order.filter (· ∈ r.names) <+: r.names := by
  have hrest := atRest_afterRuns runs
  have hfresh : afterRuns [r] = afterStore {} r.artifacts := afterRuns_concat_of_storesApart [] h
  rw [afterRuns_concat_of_storesApart runs h, HostRun.names,
    ← order_afterStore_eq_iff hrest h.distinct]
  constructor
  · exact Reflects.order
  · intro horder
    refine ⟨horder, get?_afterStore hrest.current h.distinct, ?_⟩
    rw [hfresh]
    exact (afterStore_eq_iff hrest h.distinct).mpr horder

/-- What holds after every one of some runs, with one more run. -/
theorem forall_prefix_concat_iff {P : List HostRun → HostRun → Prop} {last : HostRun} :
    (∀ earlier r, earlier ++ [r] <+: runs ++ [last] → P earlier r) ↔
      (∀ earlier r, earlier ++ [r] <+: runs → P earlier r) ∧ P runs last := by
  constructor
  · intro h
    exact ⟨fun earlier r hmem => h earlier r (hmem.trans (List.prefix_append ..)),
      h runs last (List.prefix_refl _)⟩
  · rintro ⟨hearlier, hlast⟩ earlier r hmem
    rcases List.prefix_concat_iff.mp hmem with heq | hmem
    · obtain ⟨rfl, hr⟩ := List.append_inj' heq rfl
      cases hr
      exact hlast
    · exact hearlier earlier r hmem

/-- **Every run is reflected exactly if each two consecutive ones are in step.** -/
theorem forall_reflects_iff_isChain (hruns : ∀ r ∈ runs, r.StoresApart) :
    (∀ earlier r, earlier ++ [r] <+: runs → (afterRuns (earlier ++ [r])).Reflects r) ↔
      runs.IsChain HostRun.InStep := by
  induction runs using List.reverseRecOn with
  | nil =>
    refine iff_of_true (fun earlier r hmem => ?_) .nil
    exact absurd (List.prefix_nil.mp hmem) (List.concat_ne_nil r earlier)
  | append_singleton runs last ih =>
    have hlast : last.StoresApart :=
      hruns last (List.mem_append_right _ (List.mem_singleton_self _))
    have ih := ih fun r hr => hruns r (List.mem_append_left _ hr)
    rw [forall_prefix_concat_iff, List.isChain_append, reflects_concat_iff runs hlast, ih]
    refine and_congr_right fun hchain => ?_
    -- the last but one run is reflected, so its names are those that may stay
    rcases List.eq_nil_or_concat runs with rfl | ⟨before, r, rfl⟩
    · simp [afterRuns]
    · have hreflects := ih.mpr hchain before r (by simp)
      simp [hreflects.order, HostRun.InStep]

end MemorySink

open MemorySink in
/-- **What a memory sink says of the last run.** Runs go into a new sink one after the other, each
    with distinct names. Every run succeeds, and after it the sink has its artifacts and no others,
    under its names in some order. The sink is after every run what a new one is after this run
    alone, names in order, exactly if in any two consecutive runs what both store comes first in the
    later one, in the order of the earlier one. -/
theorem memory_reflects_last_run_iff {runs : List HostRun} (hruns : ∀ r ∈ runs, r.StoresApart) :
    (∀ earlier r, earlier ++ [r] <+: runs →
      ∃ report, r.host.generate r.sources (afterRuns earlier) =
          (.ok report, afterRuns (earlier ++ [r])) ∧
        report.artifactIds = r.names ∧ (afterRuns (earlier ++ [r])).order.Perm r.names ∧
        ∀ id, (afterRuns (earlier ++ [r])).get? id = r.artifacts.find? (·.id == id)) ∧
      ((∀ earlier r, earlier ++ [r] <+: runs → (afterRuns (earlier ++ [r])).Reflects r) ↔
        runs.IsChain HostRun.InStep) := by
  refine ⟨fun earlier r hmem => ?_, forall_reflects_iff_isChain hruns⟩
  have hr : r.StoresApart :=
    hruns r (hmem.subset (List.mem_append_right _ (List.mem_singleton_self _)))
  have hrest := atRest_afterRuns earlier
  obtain ⟨report, hreport, hids⟩ := exists_report earlier hr
  rw [afterRuns_concat_of_storesApart earlier hr] at hreport ⊢
  exact ⟨report, hreport, hids, order_afterStore_perm hrest hr.distinct,
    get?_afterStore hrest.current hr.distinct⟩

/-! ## 4. A struct beside another one -/

/-- Two marked structs. -/
def pairText : String :=
  "#[autolog::auto_log_class]\npub struct Button;\n#[autolog::auto_log_class]\npub struct Widget;\n"

/-- A run on them, by the host of the run on one struct. -/
def pairRun : HostRun := { widgetRun with sources := oneFile pairText }

/-- Their extensions are stored by name. -/
theorem storesApart_pairRun :
    pairRun.StoresApart ∧
      pairRun.names = ["autolog_markers.g.rs", "Button.autolog.g.rs", "Widget.autolog.g.rs"] := by
  obtain ⟨-, line, line', hc⟩ := exists_structPair (by decide +kernel :
    (itemsOf pairText).toOption.bind structPair? =
      some ([("Button", classMarker), ("Widget", classMarker)], false))
  let c : LoweredCrate :=
    ⟨structPairTree "Button" "Widget" line line', structPairScopes "Button" "Widget" false⟩
  let targets := [LoweredCrate.IsStruct.target "Button" line,
    LoweredCrate.IsStruct.target "Widget" line']
  have hfindings : (c.tree.findings c.model .standard).map (·.target) = targets := by
    have hplain : ∀ name ∈ ["Button", "Widget"],
        (structPairScopes "Button" "Widget" false).isGeneric (itemPath "" name) = false := by decide
    refine (congrArg (List.map _)
      (findings_structPair (by decide) (by decide) false line line')).trans ?_
    rw [hplain "Button" (by simp), hplain "Widget" (by simp)]
    rfl
  let extension (name : String) : Artifact := .ofOwner "" name ".autolog.g.rs"
    (Renderer.standard.extension "" name [Renderer.standard.snippet name .declaration])
  have hemit : (emit .standard ".autolog.g.rs" targets).artifacts =
      [extension "Button", extension "Widget"] := by
    have hbefore : OwnerKey.before ⟨"", some "Button"⟩ ⟨"", some "Widget"⟩ = true := by decide
    simp [targets, extension, emit, groups, ownerKeys, OwnerKey.insert, emitGroup, Target.key,
      collisions, LoweredCrate.IsStruct.target, hbefore]
  have hartifacts : (pairRun.host.output c).artifacts =
      [extension "Button", extension "Widget"] := by
    rw [← hemit, ← hfindings]
    exact pairRun.host.generator.artifacts_run c.tree c.model Registry.onDeclarations_standard
  have hnames : pairRun.names =
      ["autolog_markers.g.rs", "Button.autolog.g.rs", "Widget.autolog.g.rs"] := by
    rw [HostRun.names, HostRun.artifacts_of_lower (r := pairRun) hc, Host.artifacts, hartifacts]
    decide
  exact ⟨⟨⟨c, hc⟩, by rw [hnames]; decide⟩, hnames⟩

theorem storesApart_widgetRun : widgetRun.StoresApart := by
  obtain ⟨c, -, hc, -⟩ := artifacts_widgetRun
  exact ⟨⟨c, hc⟩, by rw [names_widgetRun]; decide⟩

open MemorySink in
/-- The struct that stays comes first in the second run, so the sink is that of this run alone. -/
theorem memory_reflects_last_run_widgetRun :
    pairRun.StoresApart ∧ widgetRun.StoresApart ∧ [pairRun, widgetRun].IsChain HostRun.InStep ∧
      (afterRuns [pairRun]).Reflects pairRun ∧
      (afterRuns [pairRun, widgetRun]).Reflects widgetRun := by
  obtain ⟨hpair, hnames⟩ := storesApart_pairRun
  have hwidget := storesApart_widgetRun
  have hruns : ∀ r ∈ [pairRun, widgetRun], r.StoresApart := by simp [hpair, hwidget]
  have hchain : [pairRun, widgetRun].IsChain HostRun.InStep := by
    simp only [List.isChain_cons_cons, List.isChain_singleton, and_true, HostRun.InStep, hnames,
      names_widgetRun]
    decide
  have hreflects := (memory_reflects_last_run_iff hruns).2.mpr hchain
  exact ⟨hpair, hwidget, hchain, hreflects [] pairRun (by simp),
    hreflects [pairRun] widgetRun (List.prefix_refl _)⟩

open MemorySink in
/-- **A name that stays keeps its place**: a run on one struct and then one on two structs, of which
    the new one comes first. The last run reports its names in its own order, and the sink has them
    in another one. -/
theorem memory_keeps_earlier_order :
    widgetRun.StoresApart ∧ pairRun.StoresApart ∧ widgetRun.host = pairRun.host ∧
      (∃ report, pairRun.host.generate pairRun.sources (afterRuns [widgetRun]) =
          (.ok report, afterRuns [widgetRun, pairRun]) ∧
        report.artifactIds =
          ["autolog_markers.g.rs", "Button.autolog.g.rs", "Widget.autolog.g.rs"]) ∧
      (afterRuns [widgetRun, pairRun]).order =
        ["autolog_markers.g.rs", "Widget.autolog.g.rs", "Button.autolog.g.rs"] ∧
      afterRuns [widgetRun, pairRun] ≠ afterRuns [pairRun] := by
  obtain ⟨hpair, hnames⟩ := storesApart_pairRun
  have hwidget := storesApart_widgetRun
  have hfirst : (afterRuns [widgetRun]).order = widgetRun.names := by
    refine (order_afterRuns_concat [] hwidget).trans ?_
    rw [names_widgetRun]
    decide
  have horder : (afterRuns [widgetRun, pairRun]).order =
      ["autolog_markers.g.rs", "Widget.autolog.g.rs", "Button.autolog.g.rs"] := by
    refine (order_afterRuns_concat [widgetRun] hpair).trans ?_
    rw [hfirst, names_widgetRun, hnames]
    decide
  have halone : (afterRuns [pairRun]).order = pairRun.names := by
    refine (order_afterRuns_concat [] hpair).trans ?_
    rw [hnames]
    decide
  obtain ⟨report, hreport, hids⟩ := exists_report [widgetRun] hpair
  refine ⟨hwidget, hpair, rfl, ⟨report, hreport, hids.trans hnames⟩, horder, fun heq => ?_⟩
  rw [heq, halone, hnames] at horder
  revert horder
  decide

end LogMarkers
