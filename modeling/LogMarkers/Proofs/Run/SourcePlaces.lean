import LogMarkers.Proofs.Run.MarkerAccounts
import LogMarkers.Proofs.Tree.Nesting

/-!
# Where code stands does not matter

Moving declarations to other lines or files and spelling their attributes in another way changes no
artifact, no counter and no report but for its place. Two runs are compared stage by stage, on trees
of the same shape.

* `Tree.SameShape`: kinds, names, parents and numbers of attributes agree, the rest may differ;
* `Diagnostic.unplaced`, `Target.unplaced`: what is left of a report and of a target without the
  places they carry;
* `resolve_of_sameShape`, `resolve_of_agreesOn`: resolution, with one owner lookup for both trees
  (`Tree.SameShape.owner?`);
* `emit_of_unplaced`: grouping, collisions and emission;
* `Generator.run_of_sameShape`: whole runs.
-/

namespace LogMarkers

/-! ## 1. Shapes -/

/-- What a node is apart from its location and the spellings of its attributes. -/
structure NodeShape where
  kind : NodeKind
  name : Option String
  parent : Option NodeId
  /-- The number of attributes. -/
  attributes : Nat
  deriving DecidableEq

/-- The shape of a node. -/
def Node.shape (n : Node) : NodeShape := ⟨n.kind, n.name, n.parent, n.attributes.length⟩

/-- Two trees with the same nodes up to locations and spellings. -/
def Tree.SameShape (t t' : Tree) : Prop :=
  t.nodes.toList.map Node.shape = t'.nodes.toList.map Node.shape

instance (t t' : Tree) : Decidable (t.SameShape t') :=
  inferInstanceAs (Decidable (t.nodes.toList.map Node.shape = t'.nodes.toList.map Node.shape))

/-- Two models that answer alike on all that can be asked about a tree. -/
def SemanticModel.AgreesOn (model : SemanticModel) (t : Tree) (model' : SemanticModel) : Prop :=
  ∀ i n, t.node? i = some n → model.declared? i = model'.declared? i ∧
    ∀ k < n.attributes.length, model.attribute? i k = model'.attribute? i k

namespace Tree.SameShape

variable {t t' : Tree}

theorem node? (h : t.SameShape t') (i : NodeId) :
    (t.node? i).map Node.shape = (t'.node? i).map Node.shape := by
  have hi := congrArg (·[i]?) h
  simpa [Tree.node?] using hi

theorem size (h : t.SameShape t') : t.size = t'.size := by
  have hlength := congrArg List.length h
  simpa [Tree.size] using hlength

theorem ids (h : t.SameShape t') : t.ids = t'.ids := by
  rw [Tree.ids, Tree.ids, h.size]

theorem exists_node (h : t.SameShape t') {i : NodeId} {n : Node} (hn : t.node? i = some n) :
    ∃ n', t'.node? i = some n' ∧ n.shape = n'.shape := by
  have hi := h.node? i
  rw [hn, Option.map_some] at hi
  obtain ⟨n', hn', hshape⟩ := Option.map_eq_some_iff.mp hi.symm
  exact ⟨n', hn', hshape.symm⟩

theorem node?_eq_none (h : t.SameShape t') {i : NodeId} (hn : t.node? i = none) :
    t'.node? i = none := by
  have hi := h.node? i
  rw [hn] at hi
  exact Option.map_eq_none_iff.mp hi.symm

theorem parent? (h : t.SameShape t') (i : NodeId) : t.parent? i = t'.parent? i := by
  have hparent : ∀ u : Tree, u.parent? i = ((u.node? i).map Node.shape).bind (·.parent) := by
    intro u
    rw [Tree.parent?]
    cases u.node? i <;> rfl
  rw [hparent, hparent, h.node?]

/-- The ways to the root are the same. -/
theorem ancestors (h : t.SameShape t') (i : NodeId) : t.ancestors i = t'.ancestors i := by
  induction i using Nat.strongRecOn with
  | ind i ih =>
    rw [Tree.ancestors_eq, Tree.ancestors_eq, ← h.parent?]
    cases hp : t.parent? i with
    | none => rfl
    | some p => exact congrArg _ (ih p (Tree.parent?_lt hp))

theorem ownerAmong (h : t.SameShape t') (chain : List NodeId) :
    (t.ownerAmong chain).map (fun o => (o.1, o.2.shape)) =
      (t'.ownerAmong chain).map fun o => (o.1, o.2.shape) := by
  induction chain with
  | nil => rfl
  | cons i rest ih =>
    rw [Tree.ownerAmong, Tree.ownerAmong]
    cases hn : t.node? i with
    | none => rw [h.node?_eq_none hn]
    | some n =>
      obtain ⟨n', hn', hshape⟩ := h.exists_node hn
      have hkind : n.kind = n'.kind := congrArg NodeShape.kind hshape
      rw [hn']
      dsimp only
      rw [← hkind]
      split
      · simp [hshape]
      · split
        · rfl
        · exact ih

/-- **The owners are the same.** -/
theorem owner? (h : t.SameShape t') (i : NodeId) :
    (t.owner? i).map (fun o => (o.1, o.2.shape)) =
      (t'.owner? i).map fun o => (o.1, o.2.shape) := by
  rw [Tree.owner?, Tree.owner?]
  cases hn : t.node? i with
  | none => rw [h.node?_eq_none hn]
  | some n =>
    obtain ⟨n', hn', hshape⟩ := h.exists_node hn
    have hkind : n.kind = n'.kind := congrArg NodeShape.kind hshape
    rw [hn']
    dsimp only
    rw [← hkind, ← h.ancestors]
    split
    · simp [hshape]
    · exact h.ownerAmong _

theorem candidateIds (h : t.SameShape t') : t.candidateIds = t'.candidateIds := by
  have hcandidate : ∀ u : Tree, ∀ i, (u.node? i).any Tree.isCandidate =
      ((u.node? i).map Node.shape).any fun s => s.kind.isDeclarationLike && s.attributes != 0 := by
    intro u i
    cases u.node? i with
    | none => rfl
    | some n =>
      rw [Option.map_some, Option.any_some, Option.any_some, Tree.isCandidate]
      cases hattributes : n.attributes <;> simp [Node.shape, hattributes]
  rw [Tree.candidateIds, Tree.candidateIds, h.ids]
  refine List.filter_congr fun i _ => ?_
  rw [hcandidate, hcandidate, h.node?]

end Tree.SameShape

/-! ## 2. Resolution -/

/-- A report without its place: neither the location, nor the message that names the location of an
    earlier member. -/
def Diagnostic.unplaced (d : Diagnostic) : Diagnostic where
  cause := d.cause
  message := if d.cause = .duplicateGeneratedMember then "" else d.message
  owner := d.owner

/-- A target without the location it was found at. -/
def Target.unplaced (t : Target) : Target := { t with location := none }

/-- A finding without its location. -/
def Finding.unplaced (f : Finding) : Finding := { f with target := f.target.unplaced }

/-- A resolution without locations. -/
def Resolution.unplaced (res : Resolution) : Resolution where
  finding := res.finding.map (·.unplaced)
  diagnostics := res.diagnostics.map (·.unplaced)

section Resolution

variable {t t' : Tree} {model model' : SemanticModel} {n n' : Node}

theorem markersOn_of_shape (h : n.shape = n'.shape) (r : Registry) (i : NodeId) :
    markersOn model r i n = markersOn model r i n' := by
  have hlength : n.attributes.length = n'.attributes.length := congrArg NodeShape.attributes h
  rw [markersOn, markersOn, hlength]

theorem augmentation?_of_shape (h : n.shape = n'.shape) (m : Marker) :
    m.augmentation? n = m.augmentation? n' := by
  have hname : n.name = n'.name := congrArg NodeShape.name h
  rw [Marker.augmentation?, Marker.augmentation?, hname]

theorem unplaced_misplaced (h : n.shape = n'.shape) (m : Marker) :
    (misplaced n m).unplaced = (misplaced n' m).unplaced := by
  have hkind : n.kind = n'.kind := congrArg NodeShape.kind h
  unfold misplaced
  rw [hkind]
  rfl

theorem markedText_of_shape (h : n.shape = n'.shape) (m : Marker) :
    markedText n m = markedText n' m := by
  have hname : n.name = n'.name := congrArg NodeShape.name h
  rw [markedText, markedText, hname]

/-- Weighing chooses the same marker and reports on the same ones. -/
theorem weigh_of_shape (h : n.shape = n'.shape) (first : Option Marker) (ms : List Marker) :
    (weigh n first ms).1 = (weigh n' first ms).1 ∧
      (weigh n first ms).2.map (·.unplaced) = (weigh n' first ms).2.map (·.unplaced) := by
  have hkind : n.kind = n'.kind := congrArg NodeShape.kind h
  induction ms generalizing first with
  | nil => cases first <;> exact ⟨rfl, rfl⟩
  | cons m rest ih =>
    cases hm : m.appliesTo n.kind with
    | false =>
      rw [weigh_misfit _ hm, weigh_misfit _ (hkind ▸ hm), List.map_cons, List.map_cons,
        unplaced_misplaced h, (ih first).2]
      exact ⟨(ih first).1, rfl⟩
    | true =>
      cases first with
      | none =>
        rw [weigh_fit _ hm, weigh_fit _ (hkind ▸ hm)]
        exact ih (some m)
      | some f =>
        rw [weigh_fit_again _ hm, weigh_fit_again _ (hkind ▸ hm), List.map_cons, List.map_cons,
          (ih (some f)).2]
        exact ⟨(ih (some f)).1, rfl⟩

theorem ownerName?_of_shape (h : n.shape = n'.shape) (declared : Option DeclaredSymbol) :
    ownerName? n declared = ownerName? n' declared := by
  have hkind : n.kind = n'.kind := congrArg NodeShape.kind h
  have hname : n.name = n'.name := congrArg NodeShape.name h
  unfold ownerName?
  rw [hkind, hname]

/-- The marker that counts leads to the same finding, or to the same report. -/
theorem findTarget_of_sameShape (ht : t.SameShape t') (h : n.shape = n'.shape)
    (model : SemanticModel) (i : NodeId) (m : Marker) (augmentation : Augmentation) :
    ((findTarget t model i n m augmentation).mapError (·.unplaced)).map (·.unplaced) =
      ((findTarget t' model i n' m augmentation).mapError (·.unplaced)).map (·.unplaced) := by
  have howner := ht.owner? i
  unfold findTarget
  cases hfound : t.owner? i with
  | none =>
    rw [hfound] at howner
    rw [Option.map_eq_none_iff.mp howner.symm]
    unfold ownerMissing
    rw [markedText_of_shape h]
    rfl
  | some found =>
    rw [hfound] at howner
    obtain ⟨⟨owner, node'⟩, hfound', hsame⟩ := Option.map_eq_some_iff.mp howner.symm
    obtain ⟨rfl, hnode⟩ := Prod.mk.inj hsame
    rw [hfound']
    dsimp only
    cases hgeneric : (model.declared? found.1).filter (·.generic) with
    | some s =>
      unfold ownerGeneric
      rw [markedText_of_shape h]
      rfl
    | none =>
      rw [ownerName?_of_shape hnode]
      rfl

/-- **Declarations of the same shape resolve alike.** -/
theorem resolve_of_sameShape (ht : t.SameShape t') (model : SemanticModel) (r : Registry)
    (i : NodeId) : (resolve t model r i).unplaced = (resolve t' model r i).unplaced := by
  cases hn : t.node? i with
  | none => rw [resolve, resolve, hn, ht.node?_eq_none hn]
  | some n =>
    obtain ⟨n', hn', h⟩ := ht.exists_node hn
    obtain ⟨hchosen, hreports⟩ := weigh_of_shape h none (markersOn model r i n)
    rw [markersOn_of_shape h] at hchosen hreports
    cases hasked : (weigh n' none (markersOn model r i n')).1.bind (·.augmentation? n') with
    | none =>
      have hasked' : (weigh n none (markersOn model r i n)).1.bind (·.augmentation? n) = none := by
        rw [markersOn_of_shape h, hchosen, ← hasked]
        exact Option.bind_congr fun m _ => augmentation?_of_shape h m
      rw [resolve_of_unasked hn hasked', resolve_of_unasked hn' hasked, markersOn_of_shape h]
      exact congrArg (Resolution.mk none) hreports
    | some augmentation =>
      obtain ⟨m, hm', hasked'⟩ := Option.bind_eq_some_iff.mp hasked
      have hm : (weigh n none (markersOn model r i n)).1 = some m := by
        rw [markersOn_of_shape h, hchosen, hm']
      have hfound := findTarget_of_sameShape ht h model i m augmentation
      rw [resolve_of_markedBy ⟨hn, hm, (augmentation?_of_shape h m).trans hasked'⟩,
        resolve_of_markedBy ⟨hn', hm', hasked'⟩, markersOn_of_shape h]
      cases hres : findTarget t model i n m augmentation with
      | error d =>
        cases hres' : findTarget t' model i n' m augmentation with
        | error d' =>
          rw [hres, hres'] at hfound
          have hd : d.unplaced = d'.unplaced := Except.error.inj hfound
          simp only [Resolution.unplaced, List.map_append, hreports, List.map_singleton, hd]
        | ok f' =>
          rw [hres, hres'] at hfound
          cases hfound
      | ok f =>
        cases hres' : findTarget t' model i n' m augmentation with
        | error d' =>
          rw [hres, hres'] at hfound
          cases hfound
        | ok f' =>
          rw [hres, hres'] at hfound
          have hf : f.unplaced = f'.unplaced := Except.ok.inj hfound
          simp only [Resolution.unplaced, hreports, Option.map_some, hf]

/-- Models that answer alike lead to the same findings and reports. -/
theorem resolve_of_agreesOn (h : model.AgreesOn t model') (r : Registry) (i : NodeId) :
    resolve t model r i = resolve t model' r i := by
  cases hn : t.node? i with
  | none => rw [resolve, resolve, hn]
  | some n =>
    have hmarkers : markersOn model r i n = markersOn model' r i n := by
      refine List.filterMap_congr fun k hk => ?_
      rw [(h i n hn).2 k (List.mem_range.mp hk)]
    have hfind : ∀ m augmentation,
        findTarget t model i n m augmentation = findTarget t model' i n m augmentation := by
      intro m augmentation
      unfold findTarget
      cases howner : t.owner? i with
      | none => rfl
      | some found =>
        dsimp only
        rw [(h found.1 found.2 (Tree.node?_of_owner? howner).1).1]
    simp only [resolve, hn, hmarkers, hfind]

end Resolution

/-! ## 3. Emission -/

section Emission

variable {ts ts' : List Target} (renderer : Renderer) (suffix : String)

theorem ownerKeys_unplaced (ts : List Target) :
    ownerKeys (ts.map (·.unplaced)) = ownerKeys ts := by
  rw [ownerKeys, List.foldr_map]
  rfl

theorem targetsOf_unplaced (ts : List Target) (k : OwnerKey) :
    targetsOf (ts.map (·.unplaced)) k = (targetsOf ts k).map (·.unplaced) :=
  List.filter_map

/-- What is left of a report on a repeated name without its place. -/
theorem unplaced_of_mem_collisions {qualified : String} {pairs : List (Target × Snippet)}
    {seen : List (String × Option Location)} {d : Diagnostic}
    (h : d ∈ collisions qualified seen pairs) :
    d.unplaced =
      { cause := .duplicateGeneratedMember, message := "", owner := some qualified } := by
  induction pairs generalizing seen with
  | nil => cases h
  | cons p rest ih =>
    unfold collisions at h
    split at h
    · rcases List.mem_cons.mp h with rfl | h
      · rfl
      · exact ih h
    · exact ih h

/-- The reports on repeated names without their places depend on the names alone. -/
theorem collisions_unplaced (qualified : String) {pairs pairs' : List (Target × Snippet)}
    (h : identsOf pairs = identsOf pairs') :
    (collisions qualified [] pairs).map (·.unplaced) =
      (collisions qualified [] pairs').map (·.unplaced) := by
  have hcount := length_collisions_nil qualified pairs
  have hcount' := length_collisions_nil qualified pairs'
  have hpairs : pairs.length = pairs'.length := by
    simpa [identsOf] using congrArg List.length h
  have hlength : (collisions qualified [] pairs).length =
      (collisions qualified [] pairs').length := by
    rw [h] at hcount
    omega
  rw [List.map_eq_replicate_iff.mpr fun _ => unplaced_of_mem_collisions,
    List.map_eq_replicate_iff.mpr fun _ => unplaced_of_mem_collisions, hlength]

/-- **A group is emitted alike wherever its targets were found.** -/
theorem emitGroup_of_unplaced (k : OwnerKey) (h : ts.map (·.unplaced) = ts'.map (·.unplaced)) :
    (emitGroup renderer suffix ⟨k, ts⟩).artifacts = (emitGroup renderer suffix ⟨k, ts'⟩).artifacts ∧
      (emitGroup renderer suffix ⟨k, ts⟩).diagnostics.map (·.unplaced) =
        (emitGroup renderer suffix ⟨k, ts'⟩).diagnostics.map (·.unplaced) := by
  unfold emitGroup
  cases k.owner with
  | none =>
    have hlength : ts.length = ts'.length := by simpa using congrArg List.length h
    dsimp only [unnamedOwner]
    rw [hlength]
    exact ⟨rfl, rfl⟩
  | some owner =>
    -- a snippet is rendered from what a target asks for
    have hsnippets : ts.map (fun t => renderer.snippet owner t.augmentation) =
        ts'.map fun t => renderer.snippet owner t.augmentation := by
      have hmap := congrArg (List.map fun t => renderer.snippet owner t.augmentation) h
      rwa [List.map_map, List.map_map] at hmap
    have hidents : ∀ us : List Target,
        identsOf (us.zip (us.map fun t => renderer.snippet owner t.augmentation)) =
          (us.map fun t => renderer.snippet owner t.augmentation).map (·.ident) := by
      intro us
      rw [← List.map_prod_left_eq_zip, identsOf, List.map_map, List.map_map]
      rfl
    have hreports := collisions_unplaced (qualifiedOwner k.space owner)
      (((hidents ts).trans (congrArg _ hsnippets)).trans (hidents ts').symm)
    dsimp only
    cases hfirst : collisions (qualifiedOwner k.space owner) []
        (ts.zip (ts.map fun t => renderer.snippet owner t.augmentation)) with
    | nil =>
      rw [hfirst] at hreports
      rw [List.map_eq_nil_iff.mp hreports.symm, hsnippets]
      exact ⟨rfl, rfl⟩
    | cons d ds =>
      cases hsecond : collisions (qualifiedOwner k.space owner) []
          (ts'.zip (ts'.map fun t => renderer.snippet owner t.augmentation)) with
      | nil =>
        rw [hfirst, hsecond] at hreports
        cases hreports
      | cons d' ds' =>
        rw [hfirst, hsecond] at hreports
        exact ⟨rfl, hreports⟩

/-- **Targets are emitted alike wherever they were found.** -/
theorem emit_of_unplaced (h : ts.map (·.unplaced) = ts'.map (·.unplaced)) :
    (emit renderer suffix ts).artifacts = (emit renderer suffix ts').artifacts ∧
      (emit renderer suffix ts).diagnostics.map (·.unplaced) =
        (emit renderer suffix ts').diagnostics.map (·.unplaced) := by
  have hkeys : ownerKeys ts = ownerKeys ts' := by
    rw [← ownerKeys_unplaced, h, ownerKeys_unplaced]
  have hgroup := fun k => emitGroup_of_unplaced renderer suffix k
    (show (targetsOf ts k).map (·.unplaced) = (targetsOf ts' k).map (·.unplaced) by
      rw [← targetsOf_unplaced, h, targetsOf_unplaced])
  rw [emit_artifacts, emit_artifacts, emit_diagnostics, emit_diagnostics, hkeys,
    List.map_flatMap, List.map_flatMap]
  exact ⟨List.flatMap_congr fun k _ => (hgroup k).1, List.flatMap_congr fun k _ => (hgroup k).2⟩

end Emission

/-! ## 4. Runs -/

/-- Targets are collected alike from resolutions that differ in places only. -/
theorem collect_unplaced (resolutions : List Resolution) :
    (collect (resolutions.map (·.finding))).map (·.unplaced) =
      collect ((resolutions.map (·.unplaced)).map (·.finding)) := by
  unfold collect
  rw [List.map_map, List.map_map, List.filterMap_map, List.filterMap_map, List.map_filterMap,
    List.map_filterMap]
  refine List.filterMap_congr fun res _ => ?_
  dsimp only [Function.comp_apply, id_eq, Resolution.unplaced]
  cases res.finding <;> rfl

/-- Finishing is the same for resolutions that differ in places only. -/
theorem Generator.finish_of_unplaced (g : Generator) {t t' : Tree} (hsize : t.size = t'.size)
    {resolutions resolutions' : List Resolution}
    (h : resolutions.map (·.unplaced) = resolutions'.map (·.unplaced)) :
    (g.finish t resolutions).artifacts = (g.finish t' resolutions').artifacts ∧
      (g.finish t resolutions).stats = (g.finish t' resolutions').stats ∧
      (g.finish t resolutions).diagnostics.map (·.unplaced) =
        (g.finish t' resolutions').diagnostics.map (·.unplaced) := by
  have htargets : (collect (resolutions.map (·.finding))).map (·.unplaced) =
      (collect (resolutions'.map (·.finding))).map (·.unplaced) := by
    rw [collect_unplaced, h, collect_unplaced]
  obtain ⟨hartifacts, hemission⟩ := emit_of_unplaced g.renderer g.settings.artifactSuffix htargets
  have hreports : (g.finish t resolutions).diagnostics.map (·.unplaced) =
      (g.finish t' resolutions').diagnostics.map (·.unplaced) := by
    have hflat : ∀ l : List Resolution, (l.flatMap (·.diagnostics)).map (·.unplaced) =
        (l.map (·.unplaced)).flatMap (·.diagnostics) := by
      intro l
      rw [List.map_flatMap, List.flatMap_map]
      rfl
    unfold finish
    rw [List.map_append, List.map_append, hemission, hflat, hflat, h]
  have hcandidates : resolutions.length = resolutions'.length := by
    simpa using congrArg List.length h
  have hfindings : (collect (resolutions.map (·.finding))).length =
      (collect (resolutions'.map (·.finding))).length := by
    simpa using congrArg List.length htargets
  have hcount : (g.finish t resolutions).diagnostics.length =
      (g.finish t' resolutions').diagnostics.length := by
    simpa using congrArg List.length hreports
  refine ⟨hartifacts, ?_, hreports⟩
  unfold finish at hcount ⊢
  simp only [hsize, hcandidates, hfindings, hcount, hartifacts]

/-- **Where code stands changes no output**: for trees of the same shape and models that answer
    alike, a generator returns the same artifacts and counters and the same reports but for their
    places, in the same order. -/
theorem Generator.run_of_sameShape (g : Generator) {t t' : Tree} {model model' : SemanticModel}
    (hshape : t.SameShape t') (hmodel : model.AgreesOn t model') :
    (g.run t model).artifacts = (g.run t' model').artifacts ∧
      (g.run t model).stats = (g.run t' model').stats ∧
      (g.run t model).diagnostics.map (fun d => (d.cause.code, d.severity, d.owner)) =
        (g.run t' model').diagnostics.map (fun d => (d.cause.code, d.severity, d.owner)) ∧
      (g.run t model).diagnostics.map (·.unplaced) =
        (g.run t' model').diagnostics.map (·.unplaced) := by
  have hresolutions : (t.candidateIds.map (resolve t model g.registry)).map (·.unplaced) =
      (t'.candidateIds.map (resolve t' model' g.registry)).map (·.unplaced) := by
    rw [← hshape.candidateIds, List.map_map, List.map_map]
    refine List.map_congr_left fun i _ => ?_
    rw [Function.comp_apply, Function.comp_apply, resolve_of_agreesOn hmodel,
      resolve_of_sameShape hshape]
  obtain ⟨hartifacts, hstats, hreports⟩ := g.finish_of_unplaced hshape.size hresolutions
  rw [← g.run_eq_finish, ← g.run_eq_finish] at hartifacts hstats hreports
  refine ⟨hartifacts, hstats, ?_, hreports⟩
  have hmap := congrArg (List.map fun d => (d.cause.code, d.severity, d.owner)) hreports
  rwa [List.map_map, List.map_map] at hmap

/-- A struct with two marked fields. The first one is at the given place, the second one on the next
    line, and the attributes of both are spelled alike. -/
def spelledTree (file : String) (line : Nat) (spelling : List String) : Tree := Tree.build
  [ .openNode { kind := .struct, name := some "Widget" },
    .leaf { kind := .field, name := some "size", attributes := [⟨spelling, false⟩],
            location := some ⟨file, line⟩ },
    .leaf { kind := .field, name := some "color", attributes := [⟨spelling, false⟩],
            location := some ⟨file, line + 1⟩ } ]

/-- The attributes denote the markers of properties and of methods. -/
def spelledTable : SymbolTable where
  attributes :=
    [ ((1, 0), .ofSegments ["autolog", "auto_log_property"]),
      ((2, 0), .ofSegments ["autolog", "auto_log_method"]) ]

/-- The same answers, and one on a node that is not there. -/
def widerTable : SymbolTable :=
  { spelledTable with declarations := [(3, ⟨"Widget", .global, true⟩)] }

/-- In another file and spelled in full: the first field extends the struct and the marker of the
    second is misplaced as before, with a report that only has another place. -/
theorem Generator.run_of_sameShape_spelledTree :
    (spelledTree "src/lib.rs" 2 ["log"]).SameShape
        (spelledTree "src/ui.rs" 40 ["autolog", "log"]) ∧
      spelledTable.model.AgreesOn (spelledTree "src/lib.rs" 2 ["log"]) widerTable.model ∧
      (standard.run (spelledTree "src/lib.rs" 2 ["log"]) spelledTable.model).artifacts =
        (standard.run (spelledTree "src/ui.rs" 40 ["autolog", "log"]) widerTable.model).artifacts ∧
      (standard.run (spelledTree "src/lib.rs" 2 ["log"]) spelledTable.model).artifacts.map (·.id) =
        ["Widget.autolog.g.rs"] ∧
      (standard.run (spelledTree "src/lib.rs" 2 ["log"]) spelledTable.model).diagnostics.map
          (fun d => (d.cause.code, d.severity, d.owner)) =
        (standard.run (spelledTree "src/ui.rs" 40 ["autolog", "log"])
          widerTable.model).diagnostics.map (fun d => (d.cause.code, d.severity, d.owner)) ∧
      (standard.run (spelledTree "src/lib.rs" 2 ["log"]) spelledTable.model).diagnostics.map
          (fun d => (d.cause, d.location)) = [(.misplacedMarker, some ⟨"src/lib.rs", 3⟩)] ∧
      (standard.run (spelledTree "src/ui.rs" 40 ["autolog", "log"])
          widerTable.model).diagnostics.map (fun d => (d.cause, d.location)) =
        [(.misplacedMarker, some ⟨"src/ui.rs", 41⟩)] := by
  have hshape : (spelledTree "src/lib.rs" 2 ["log"]).SameShape
      (spelledTree "src/ui.rs" 40 ["autolog", "log"]) := by decide
  have hmodel : spelledTable.model.AgreesOn (spelledTree "src/lib.rs" 2 ["log"])
      widerTable.model := by
    intro i n hn
    refine ⟨?_, fun k _ => rfl⟩
    have hi : i < 3 := (Array.getElem?_eq_some_iff.mp hn).1
    have hnone : ∀ i < 3, widerTable.model.declared? i = none := by decide
    exact (hnone i hi).symm
  obtain ⟨hartifacts, -, hcodes, -⟩ := standard.run_of_sameShape hshape hmodel
  exact ⟨hshape, hmodel, hartifacts, by decide +kernel, hcodes, by decide +kernel,
    by decide +kernel⟩

end LogMarkers
