import LogMarkers.Proofs.Emission.Owners
import LogMarkers.Run

/-!
# A run finds what all nodes yield

A run looks only at candidates: nodes that declare something and carry an attribute. Nothing is lost
by this, as long as no marker may stand on the two kinds of nodes that declare nothing.

* `weigh_fst`: the marker that counts on a node is the first one that fits its kind;
* `isCandidate_of_finding`: a node with a finding is a candidate;
* `resolveAll_never`: a run that nobody gives up resolves the candidates in order;
* `artifacts_run`, `diagnostics_run`: what a run returns, by what all nodes yield;
* `run_eq_resolution_of_all_nodes`: the artifacts of a run are those of the findings of all nodes,
  its reports are those of the candidates and of emission, and its counters count them.
-/

namespace LogMarkers

/-! ## 1. Nodes with a finding -/

/-- Whether no registered marker may stand on a node that declares nothing. -/
def Registry.OnDeclarations (r : Registry) : Prop :=
  ∀ m ∈ r.markers, .sourceFile ∉ m.targets ∧ .other ∉ m.targets

instance (r : Registry) : Decidable r.OnDeclarations :=
  inferInstanceAs (Decidable (∀ m ∈ r.markers, .sourceFile ∉ m.targets ∧ .other ∉ m.targets))

theorem Registry.onDeclarations_standard : Registry.standard.OnDeclarations := by decide

theorem Registry.mem_markers_of_find? {r : Registry} {p : SymbolPath} {m : Marker}
    (h : r.find? p = some m) : m ∈ r.markers :=
  List.mem_map.mpr ⟨(p.text, m), Table.mem_of_lookup h, rfl⟩

theorem mem_markers_of_mem_markersOn {model : SemanticModel} {r : Registry} {i : NodeId} {n : Node}
    {m : Marker} (h : m ∈ markersOn model r i n) : m ∈ r.markers := by
  obtain ⟨k, -, hk⟩ := List.mem_filterMap.mp h
  obtain ⟨p, -, hp⟩ := Option.bind_eq_some_iff.mp hk
  exact Registry.mem_markers_of_find? hp

/-- **The marker that counts is the first that fits**, unless one counts already. -/
theorem weigh_fst (n : Node) (first : Option Marker) (ms : List Marker) :
    (weigh n first ms).1 = first.or (ms.find? (·.appliesTo n.kind)) := by
  induction ms generalizing first with
  | nil => cases first <;> rfl
  | cons m rest ih =>
    unfold weigh
    by_cases hm : m.appliesTo n.kind = true
    · rw [if_pos hm, List.find?_cons, hm]
      cases first with
      | none => exact ih (some m)
      | some f => exact ih (some f)
    · rw [if_neg hm, List.find?_cons, Bool.eq_false_of_not_eq_true hm]
      exact ih first

/-- A finding comes from a marker of the node that fits it, and is about what the marker asks
    for. -/
theorem exists_marker_of_finding {t : Tree} {model : SemanticModel} {r : Registry} {i : NodeId}
    {f : Finding} (h : (resolve t model r i).finding = some f) :
    ∃ n m augmentation, t.node? i = some n ∧ m ∈ markersOn model r i n ∧
      m.appliesTo n.kind = true ∧ m.augmentation? n = some augmentation ∧
      findTarget t model i n m augmentation = .ok f := by
  unfold resolve at h
  cases hn : t.node? i with
  | none =>
    rw [hn] at h
    cases h
  | some n =>
    simp only [hn] at h
    have hfst := weigh_fst n none (markersOn model r i n)
    rw [Option.none_or] at hfst
    cases hw : (weigh n none (markersOn model r i n)).1 with
    | none =>
      rw [hw] at h
      cases h
    | some m =>
      rw [hw] at hfst h
      have hfind : (markersOn model r i n).find? (·.appliesTo n.kind) = some m := hfst.symm
      have hfits := List.find?_some hfind
      cases ha : m.augmentation? n with
      | none =>
        simp only [ha] at h
        cases h
      | some augmentation =>
        simp only [ha] at h
        cases ht : findTarget t model i n m augmentation with
        | error report =>
          simp only [ht] at h
          cases h
        | ok finding =>
          simp only [ht] at h
          cases h
          exact ⟨n, m, augmentation, rfl, List.mem_of_find?_eq_some hfind, hfits, ha, ht⟩

/-- **A node with a finding is a candidate.** -/
theorem isCandidate_of_finding {t : Tree} {model : SemanticModel} {r : Registry}
    (hr : r.OnDeclarations) {i : NodeId} {f : Finding}
    (h : (resolve t model r i).finding = some f) :
    ∃ n, t.node? i = some n ∧ Tree.isCandidate n = true := by
  obtain ⟨n, m, -, hn, hm, hfits, -⟩ := exists_marker_of_finding h
  refine ⟨n, hn, ?_⟩
  obtain ⟨hfile, hother⟩ := hr m (mem_markers_of_mem_markersOn hm)
  have hkind : n.kind ∈ m.targets := List.contains_iff_mem.mp hfits
  have hdeclares : n.kind.isDeclarationLike = true := by
    cases hk : n.kind <;> first | rfl | (rw [hk] at hkind; contradiction)
  have hattributes : n.attributes ≠ [] := by
    intro e
    unfold markersOn at hm
    rw [e] at hm
    cases hm
  unfold Tree.isCandidate
  rw [hdeclares, List.isEmpty_eq_false_iff.mpr hattributes]
  rfl

/-! ## 2. The nodes a run resolves -/

/-- The indices of the candidates, in order. -/
def Tree.candidateIds (t : Tree) : List NodeId :=
  t.ids.filter fun i => (t.node? i).any Tree.isCandidate

/-- The findings of all nodes, in order. -/
def Tree.findings (t : Tree) (model : SemanticModel) (r : Registry) : List Finding :=
  t.ids.filterMap fun i => (resolve t model r i).finding

namespace Generator

variable (g : Generator) (t : Tree) (model : SemanticModel)

theorem resolveAll_never (ids : List NodeId) :
    g.resolveAll t model (fun _ => false) ids =
      (ids.filter fun i => (t.node? i).any Tree.isCandidate).map (resolve t model g.registry) := by
  induction ids with
  | nil => rfl
  | cons i rest ih =>
    unfold resolveAll
    rw [List.filter_cons]
    simp only [Bool.false_eq_true, ↓reduceIte]
    cases hn : t.node? i with
    | none => exact ih
    | some n =>
      by_cases hc : Tree.isCandidate n = true
      · simp only [hc, Option.any_some, ↓reduceIte, List.map_cons]
        rw [ih]
      · simp only [hc, Option.any_some, ↓reduceIte, Bool.false_eq_true]
        exact ih

/-- The resolutions of the candidates hold the findings of all nodes. -/
theorem filterMap_finding_candidateIds (hr : g.registry.OnDeclarations) :
    (t.candidateIds.map (resolve t model g.registry)).filterMap (·.finding) =
      t.findings model g.registry := by
  have hpassed : ∀ i ∈ t.ids,
      (if (t.node? i).any Tree.isCandidate then (resolve t model g.registry i).finding else none) =
        (resolve t model g.registry i).finding := by
    intro i _
    split
    · rfl
    · rename_i hc
      -- a node that is passed over has no finding
      cases hf : (resolve t model g.registry i).finding with
      | none => rfl
      | some f =>
        obtain ⟨n, hn, hcandidate⟩ := isCandidate_of_finding hr hf
        rw [hn] at hc
        exact absurd hcandidate hc
  unfold Tree.candidateIds Tree.findings
  rw [List.filterMap_map, List.filterMap_filter]
  exact List.filterMap_congr hpassed

theorem collect_candidateIds (hr : g.registry.OnDeclarations) :
    collect ((t.candidateIds.map (resolve t model g.registry)).map (·.finding)) =
      (t.findings model g.registry).map (·.target) := by
  unfold collect
  rw [← g.filterMap_finding_candidateIds t model hr, List.filterMap_map]
  rfl

theorem length_findings_le (hr : g.registry.OnDeclarations) :
    (t.findings model g.registry).length ≤ t.candidateIds.length := by
  have hle := List.length_filterMap_le (·.finding)
    (t.candidateIds.map (resolve t model g.registry))
  rwa [g.filterMap_finding_candidateIds t model hr, List.length_map] at hle

theorem length_candidateIds_le : t.candidateIds.length ≤ t.size := by
  have hle := List.length_filter_le (fun i => (t.node? i).any Tree.isCandidate) t.ids
  rwa [Tree.ids, List.length_range] at hle

/-! ## 3. What a run returns -/

theorem run_eq_finish :
    g.run t model = g.finish t (t.candidateIds.map (resolve t model g.registry)) := by
  unfold run
  rw [resolveAll_never]
  rfl

/-- The artifacts are those of the findings of all nodes. -/
theorem artifacts_run (hr : g.registry.OnDeclarations) :
    (g.run t model).artifacts =
      (emit g.renderer g.settings.artifactSuffix
        ((t.findings model g.registry).map (·.target))).artifacts := by
  rw [run_eq_finish, finish, g.collect_candidateIds t model hr]

/-- The reports are those of the candidates, then those of emission. -/
theorem diagnostics_run (hr : g.registry.OnDeclarations) :
    (g.run t model).diagnostics =
      t.candidateIds.flatMap (fun i => (resolve t model g.registry i).diagnostics) ++
        (emit g.renderer g.settings.artifactSuffix
          ((t.findings model g.registry).map (·.target))).diagnostics := by
  rw [run_eq_finish, finish, g.collect_candidateIds t model hr, List.flatMap_map]

/-- **A run finds what all nodes yield**: its artifacts are those of the findings of all nodes, its
    reports are those of the candidates followed by those of emission, and its counters count the
    nodes, the candidates, the findings, the artifacts and the reports. -/
theorem run_eq_resolution_of_all_nodes (hr : g.registry.OnDeclarations) :
    let findings := t.findings model g.registry
    let emission := emit g.renderer g.settings.artifactSuffix (findings.map (·.target))
    let output := g.run t model
    output.artifacts = emission.artifacts ∧
      output.diagnostics =
        t.candidateIds.flatMap (fun i => (resolve t model g.registry i).diagnostics) ++
          emission.diagnostics ∧
      output.stats.nodesVisited = t.size ∧
      output.stats.candidates = t.candidateIds.length ∧
      output.stats.findings = findings.length ∧
      output.stats.artifacts = output.artifacts.length ∧
      output.stats.diagnostics = output.diagnostics.length ∧
      output.stats.artifacts ≤ output.stats.findings ∧
      output.stats.findings ≤ output.stats.candidates ∧
      output.stats.candidates ≤ output.stats.nodesVisited := by
  intro findings emission output
  have houtput : output = g.finish t (t.candidateIds.map (resolve t model g.registry)) :=
    g.run_eq_finish t model
  have hartifacts : output.artifacts = emission.artifacts := g.artifacts_run t model hr
  have hnodes : output.stats.nodesVisited = t.size := by
    rw [houtput]
    rfl
  have hcandidates : output.stats.candidates = t.candidateIds.length := by
    rw [houtput]
    exact List.length_map ..
  have hfindings : output.stats.findings = findings.length := by
    rw [houtput, ← List.length_map (·.target), ← g.collect_candidateIds t model hr]
    rfl
  have hcount : output.stats.artifacts = output.artifacts.length := by
    rw [houtput]
    rfl
  have hcount' : output.stats.diagnostics = output.diagnostics.length := by
    rw [houtput]
    rfl
  refine ⟨hartifacts, g.diagnostics_run t model hr, hnodes, hcandidates, hfindings, hcount, hcount',
    ?_, ?_, ?_⟩
  · have hle := length_artifacts_le g.renderer g.settings.artifactSuffix (findings.map (·.target))
    rw [List.length_map] at hle
    rw [hcount, hfindings, hartifacts]
    exact hle
  · rw [hfindings, hcandidates]
    exact g.length_findings_le t model hr
  · rw [hcandidates, hnodes]
    exact length_candidateIds_le t

/-- The generator with the markers, the texts and the settings it has by default. -/
def standard : Generator := ⟨{}, .standard, .standard, rfl⟩

/-- A file with a struct in it; both carry an attribute. The field of the struct has none. -/
def markedFile : Tree := Tree.build
  [ .openNode { kind := .sourceFile, attributes := [⟨["auto_log_class"], false⟩] },
    .openNode { kind := .struct, name := some "Order", attributes := [⟨["auto_log_class"], false⟩] },
    .leaf { kind := .field, name := some "total" } ]

/-- Both attributes of `markedFile` denote the marker of types. -/
def markedModel : SemanticModel := SymbolTable.model
  { attributes :=
      [ ((0, 0), .ofSegments ["autolog", "auto_log_class"]),
        ((1, 0), .ofSegments ["autolog", "auto_log_class"]) ] }

/-- The run on `markedFile` extends the struct, which is its only finding. -/
theorem run_markedFile :
    (standard.run markedFile markedModel).artifacts =
        (emit .standard ".autolog.g.rs"
          [⟨some "Order", "", .declaration, ⟨"autolog::auto_log_class"⟩, none⟩]).artifacts ∧
      (standard.run markedFile markedModel).stats.findings = 1 := by
  have hfindings : markedFile.findings markedModel standard.registry =
      [⟨1, ⟨some "Order", "", .declaration, ⟨"autolog::auto_log_class"⟩, none⟩⟩] := by decide
  obtain ⟨hartifacts, -, -, -, hcount, -⟩ :=
    standard.run_eq_resolution_of_all_nodes markedFile markedModel Registry.onDeclarations_standard
  rw [hfindings] at hartifacts hcount
  exact ⟨hartifacts, hcount⟩

end Generator

end LogMarkers
