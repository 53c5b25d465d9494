import LogMarkers.Proofs.Crate.OwnerSearch
import LogMarkers.Proofs.Run.GeneratedCode
import LogMarkers.Proofs.Run.MarkerAccounts

/-!
# Markers that nothing can take

A marker that fits its declaration is reported as ownerless if nothing owns the declaration. In a
crate this happens to the methods of traits only, because of all kinds of declarations that the
three markers fit it is only methods that may have no owner.

* `Diagnostic.IsOwnerless`: the reports in question. Weighing markers and emitting artifacts make
  none of them (`not_isOwnerless_of_mem_weigh`, `not_isOwnerless_of_mem_emit`);
* `ownerless_resolve_of_markedBy`, `ownerless_resolve_of_owned`: a declaration has one of them if its
  marker counts and there is no owner, and none otherwise;
* `LoweredCrate.IsMarkedTraitMethod`: the methods of traits that are marked, and
  `isMarkedTraitMethod_iff`: these are the declarations with a marker and no owner;
* `owners_of_lowered_crate`: who owns what in a crate, and which markers a run reports as ownerless.
-/

namespace LogMarkers

open Source

/-! ## 1. Reports on missing owners -/

/-- A report says that nothing owns a marked declaration. -/
def Diagnostic.IsOwnerless (d : Diagnostic) : Prop := d.cause = .ownerNotFound

instance (d : Diagnostic) : Decidable d.IsOwnerless :=
  inferInstanceAs (Decidable (d.cause = .ownerNotFound))

/-- The reports of a list that say so. -/
def ownerless (reports : List Diagnostic) : List Diagnostic := reports.filter (·.IsOwnerless)

theorem ownerless_append (ds ds' : List Diagnostic) :
    ownerless (ds ++ ds') = ownerless ds ++ ownerless ds' := List.filter_append ..

theorem ownerless_eq_nil {ds : List Diagnostic} (h : ∀ d ∈ ds, ¬ d.IsOwnerless) :
    ownerless ds = [] :=
  List.filter_eq_nil_iff.mpr fun d hd hsays => h d hd (of_decide_eq_true hsays)

/-- Weighing reports on markers, not on owners. -/
theorem not_isOwnerless_of_mem_weigh {n : Node} {first : Option Marker} {ms : List Marker}
    {d : Diagnostic} (h : d ∈ (weigh n first ms).2) : ¬ d.IsOwnerless := by
  induction ms generalizing first with
  | nil => cases h
  | cons m rest ih =>
    cases hm : m.appliesTo n.kind with
    | false =>
      rw [weigh_misfit rest hm] at h
      rcases List.mem_cons.mp h with rfl | h
      · intro hsays
        cases hsays
      · exact ih h
    | true =>
      cases first with
      | none =>
        rw [weigh_fit rest hm] at h
        exact ih h
      | some f =>
        rw [weigh_fit_again rest hm] at h
        rcases List.mem_cons.mp h with rfl | h
        · intro hsays
          cases hsays
        · exact ih h

theorem not_isOwnerless_of_mem_collisions {qualified : String}
    {seen : List (String × Option Location)} {pairs : List (Target × Snippet)} {d : Diagnostic}
    (h : d ∈ collisions qualified seen pairs) : ¬ d.IsOwnerless := by
  induction pairs generalizing seen with
  | nil => cases h
  | cons pair rest ih =>
    unfold collisions at h
    split at h
    · rcases List.mem_cons.mp h with rfl | h
      · intro hsays
        cases hsays
      · exact ih h
    · exact ih h

/-- Emission reports on names and on owners without one. -/
theorem not_isOwnerless_of_mem_emit {renderer : Renderer} {suffix : String} {targets : List Target}
    {d : Diagnostic} (h : d ∈ (emit renderer suffix targets).diagnostics) : ¬ d.IsOwnerless := by
  rw [emit_diagnostics] at h
  obtain ⟨k, -, hd⟩ := List.mem_flatMap.mp h
  unfold emitGroup at hd
  split at hd
  · cases List.mem_singleton.mp hd
    intro hsays
    cases hsays
  · dsimp only at hd
    split at hd
    · cases hd
    · exact not_isOwnerless_of_mem_collisions hd

/-! ## 2. One declaration -/

section Declaration

variable {t : Tree} {model : SemanticModel} {r : Registry} {i : NodeId}

/-- A marker that counts is reported where nothing owns the declaration. -/
theorem ownerless_resolve_of_markedBy {n : Node} {m : Marker} {augmentation : Augmentation}
    (h : MarkedBy t model r i n m augmentation) (howner : t.owner? i = none) :
    ownerless (resolve t model r i).diagnostics = [ownerMissing n m] := by
  have hmissing : findTarget t model i n m augmentation = .error (ownerMissing n m) := by
    rw [findTarget, howner]
  rw [resolve_of_markedBy h, hmissing, ownerless_append,
    ownerless_eq_nil fun d hd => not_isOwnerless_of_mem_weigh hd]
  rfl

/-- Nothing is reported as ownerless where no marker counts, or something owns the declaration. -/
theorem ownerless_resolve_of_owned
    (h : ∀ n m augmentation, MarkedBy t model r i n m augmentation → t.owner? i ≠ none) :
    ownerless (resolve t model r i).diagnostics = [] := by
  refine ownerless_eq_nil fun d hd => ?_
  cases hn : t.node? i with
  | none =>
    rw [resolve, hn] at hd
    cases hd
  | some n =>
    cases hasked : (weigh n none (markersOn model r i n)).1.bind (·.augmentation? n) with
    | none =>
      rw [resolve_of_unasked hn hasked] at hd
      exact not_isOwnerless_of_mem_weigh hd
    | some augmentation =>
      obtain ⟨m, hchosen, hasks⟩ := Option.bind_eq_some_iff.mp hasked
      have hmarked : MarkedBy t model r i n m augmentation := ⟨hn, hchosen, hasks⟩
      rw [resolve_of_markedBy hmarked] at hd
      rcases findTarget_cases t model i n m augmentation with
        ⟨report, hfound, hreport⟩ | ⟨f, hfound, -⟩
      · rw [hfound] at hd
        rcases List.mem_append.mp hd with hd | hd
        · exact not_isOwnerless_of_mem_weigh hd
        · cases List.mem_singleton.mp hd
          rcases hreport with ⟨-, hnone⟩ | ⟨hcause, -⟩
          · exact absurd hnone (h n m augmentation hmarked)
          · intro hsays
            cases hcause.symm.trans hsays
      · rw [hfound] at hd
        exact not_isOwnerless_of_mem_weigh hd

end Declaration

/-! ## 3. The methods of traits -/

/-- The marker that logs a method. -/
def methodMarker : Marker :=
  ⟨.ofSegments ["autolog", "auto_log_method"], .member .method, [.method]⟩

namespace Registry

theorem find?_methodMarker : standard.find? methodMarker.identity = some methodMarker := by decide

/-- It is the only one of the three that may stand on a method. -/
theorem eq_methodMarker_of_appliesTo :
    ∀ m ∈ standard.markers, m.appliesTo .method = true → m = methodMarker := by decide

/-- The other two may stand on types and on fields. -/
theorem kind_of_mem_targets_standard : ∀ m ∈ standard.markers, ∀ k ∈ m.targets,
    k = .method ∨ k = .field ∨ k.isTypeDeclaration = true := by decide

end Registry

/-- **On a method, the marker that logs it counts** if an attribute denotes it. -/
theorem weigh_method {model : SemanticModel} {i : NodeId} {n : Node} (hk : n.kind = .method)
    (h : methodMarker ∈ markersOn model .standard i n) :
    (weigh n none (markersOn model .standard i n)).1 = some methodMarker := by
  rw [weigh_fst, Option.none_or]
  have hsome : ((markersOn model .standard i n).find? (·.appliesTo n.kind)).isSome = true :=
    List.find?_isSome.mpr ⟨methodMarker, h, by rw [hk]; rfl⟩
  obtain ⟨m, hm⟩ := Option.isSome_iff_exists.mp hsome
  have hfits := List.find?_some hm
  rw [hk] at hfits
  rw [hm, Registry.eq_methodMarker_of_appliesTo m
    (mem_markers_of_mem_markersOn (List.mem_of_find?_eq_some hm)) hfits]

namespace LoweredCrate

/-- A node is a method of a trait, and one of its attributes denotes the marker that logs methods. -/
structure IsMarkedTraitMethod (c : LoweredCrate) (i : NodeId) (n : Node) : Prop where
  node : c.tree.node? i = some n
  method : n.kind = .method
  inTrait : ∃ p outer, n.parent = some p ∧ c.tree.node? p = some outer ∧ outer.kind = .trait
  marked : ∃ k < n.attributes.length,
    c.model.attribute? i k = some (.ofSegments ["autolog", "auto_log_method"])

theorem mem_markersOn_methodMarker {c : LoweredCrate} {i : NodeId} {n : Node} :
    methodMarker ∈ markersOn c.model .standard i n ↔ ∃ k < n.attributes.length,
      c.model.attribute? i k = some (.ofSegments ["autolog", "auto_log_method"]) := by
  simp only [markersOn, List.mem_filterMap, List.mem_range, Option.bind_eq_some_iff]
  refine exists_congr fun k => and_congr_right fun _ => ⟨?_, fun h => ⟨_, h, ?_⟩⟩
  · rintro ⟨p, hp, hfind⟩
    rw [hp, ← Registry.identity_of_find? hfind]
    rfl
  · exact Registry.find?_methodMarker

/-- **The marked methods of traits are what has a marker and no owner.** -/
theorem isMarkedTraitMethod_iff {c : LoweredCrate} {i : NodeId} {n : Node} (hfits : c.tree.Fits n) :
    c.IsMarkedTraitMethod i n ↔
      (∃ m augmentation, MarkedBy c.tree c.model .standard i n m augmentation) ∧
        c.tree.owner? i = none := by
  constructor
  · intro h
    obtain ⟨name, hname⟩ := hfits.named h.method
    obtain ⟨augmentation, hasked⟩ := exists_augmentation hname methodMarker
    refine ⟨⟨methodMarker, augmentation, h.node,
      weigh_method h.method (mem_markersOn_methodMarker.mpr h.marked), hasked⟩, ?_⟩
    obtain ⟨p, outer, hp, houter, hk⟩ := h.inTrait
    have hscope : n.kind.isOwnerScope = false := by rw [h.method]; rfl
    have hholds : outer.kind.holds n.kind = true := by rw [hk, h.method]; rfl
    rw [Tree.owner?_of_holds h.node hscope hp houter hholds, hk]
    rfl
  · rintro ⟨⟨m, augmentation, hn, hchosen, -⟩, hnone⟩
    rw [weigh_fst, Option.none_or] at hchosen
    have hm := List.mem_of_find?_eq_some hchosen
    have hfit := List.find?_some hchosen
    have howned := hfits.ownedByKind hn
    unfold Tree.OwnedByKind at howned
    rcases Registry.kind_of_mem_targets_standard m (mem_markers_of_mem_markersOn hm) n.kind
        (List.contains_iff_mem.mp hfit) with hk | hk | htype
    · rw [hk] at howned hfit
      obtain ⟨p, outer, hp, houter, ⟨-, hsome⟩ | ⟨htrait, -⟩⟩ := howned
      · rw [hnone] at hsome
        cases hsome
      · refine ⟨hn, hk, ⟨p, outer, hp, houter, htrait⟩, mem_markersOn_methodMarker.mp ?_⟩
        rwa [← Registry.eq_methodMarker_of_appliesTo m (mem_markers_of_mem_markersOn hm) hfit]
    · rw [hk] at howned
      obtain ⟨p, outer, -, -, -, hsome⟩ := howned
      rw [hnone] at hsome
      cases hsome
    · have hscope : n.kind.isOwnerScope = true := by rw [NodeKind.isOwnerScope, htype]; rfl
      rw [Tree.owner?_of_isOwnerScope hn hscope] at hnone
      cases hnone

/-- A marked method of a trait can carry a marker at all. -/
theorem IsMarkedTraitMethod.mem_candidateIds {c : LoweredCrate} {i : NodeId} {n : Node}
    (h : c.IsMarkedTraitMethod i n) : i ∈ c.tree.candidateIds := by
  obtain ⟨k, hk, -⟩ := h.marked
  have hne : n.attributes ≠ [] := List.ne_nil_of_length_pos (Nat.zero_lt_of_lt hk)
  refine List.mem_filter.mpr ⟨List.mem_range.mpr (Tree.lt_size_of_node? h.node), ?_⟩
  rw [h.node, Option.any_some, Tree.isCandidate, h.method, List.isEmpty_eq_false_iff.mpr hne]
  rfl

/-- **What is reported as ownerless on a node**: nothing, or that it is a marked method of a
    trait. -/
theorem ownerless_resolve {c : LoweredCrate} {i : NodeId} {n : Node} (hn : c.tree.node? i = some n)
    (hfits : c.tree.Fits n) :
    (c.IsMarkedTraitMethod i n →
      ownerless (resolve c.tree c.model .standard i).diagnostics = [ownerMissing n methodMarker]) ∧
      (¬ c.IsMarkedTraitMethod i n →
        ownerless (resolve c.tree c.model .standard i).diagnostics = []) := by
  constructor
  · intro h
    obtain ⟨⟨m, augmentation, hmarked⟩, hnone⟩ := (isMarkedTraitMethod_iff hfits).mp h
    have hm : some m = some methodMarker := hmarked.chosen.symm.trans
      (weigh_method h.method (mem_markersOn_methodMarker.mpr h.marked))
    cases hm
    exact ownerless_resolve_of_markedBy hmarked hnone
  · intro h
    refine ownerless_resolve_of_owned fun n' m augmentation hmarked hnone => h ?_
    cases hn.symm.trans hmarked.node
    exact (isMarkedTraitMethod_iff hfits).mpr ⟨⟨m, augmentation, hmarked⟩, hnone⟩

/-- The report on a marked method of a trait. -/
def OwnerlessReport (c : LoweredCrate) (i : NodeId) (d : Diagnostic) : Prop :=
  ∃ n, c.tree.node? i = some n ∧ d = ownerMissing n methodMarker

/-- Some nodes of a crate: those of them that are marked methods of traits are reported, in order. -/
theorem exists_ownerless_nodes {c : LoweredCrate}
    (hfits : ∀ i n, c.tree.node? i = some n → c.tree.Fits n) {ids : List NodeId}
    (hids : ∀ i ∈ ids, i < c.tree.size) :
    ∃ unowned : List NodeId, unowned.Sublist ids ∧
      (∀ i ∈ ids, i ∈ unowned ↔ ∃ n, c.IsMarkedTraitMethod i n) ∧
      List.Forall₂ c.OwnerlessReport unowned
        (ownerless (ids.flatMap fun i => (resolve c.tree c.model .standard i).diagnostics)) := by
  classical
  refine ⟨ids.filter fun i => decide (∃ n, c.IsMarkedTraitMethod i n), List.filter_sublist,
    fun i hi => by simp [hi], ?_⟩
  induction ids with
  | nil => exact .nil
  | cons i rest ih =>
    have hrest := ih fun j hj => hids j (List.mem_cons_of_mem _ hj)
    obtain ⟨n, hn⟩ := Tree.exists_node_iff.mpr (hids i List.mem_cons_self)
    obtain ⟨hreported, hnothing⟩ := ownerless_resolve hn (hfits i n hn)
    rw [List.flatMap_cons, ownerless_append]
    by_cases hmarked : c.IsMarkedTraitMethod i n
    · have hexists : ∃ n, c.IsMarkedTraitMethod i n := ⟨n, hmarked⟩
      rw [hreported hmarked, List.filter_cons_of_pos (by simpa using hexists)]
      exact .cons ⟨n, hn, rfl⟩ hrest
    · have hnot : ¬ ∃ n, c.IsMarkedTraitMethod i n := by
        rintro ⟨n', hn'⟩
        cases hn.symm.trans hn'.node
        exact hmarked hn'
      rw [hnothing hmarked, List.filter_cons_of_neg (by simpa using hnot)]
      exact hrest

end LoweredCrate

/-! ## 4. A crate and its runs -/

/-- **Who owns what in a crate.** In the tree of a lowered crate, a struct, an enum, a union and an
    `impl` block own themselves, a field is owned by the struct or the union it stands right in, a
    method or a constant of an `impl` block by this block, and everything else by nothing. A run with
    the three markers therefore reports an ownerless marker once on every method of a trait that
    carries the one that logs methods, in the order of the nodes, and on nothing else. -/
theorem owners_of_lowered_crate {s : SourceSet} {c : LoweredCrate} (h : s.lower = .ok c) :
    (∀ i n, c.tree.node? i = some n → c.tree.OwnedByKind i n) ∧
      ∀ g : Generator, g.registry = .standard →
        ∃ ids : List NodeId, ids.Pairwise (· < ·) ∧
          (∀ i, i ∈ ids ↔ ∃ n, c.IsMarkedTraitMethod i n) ∧
          List.Forall₂ (fun i d => ∃ n, c.tree.node? i = some n ∧ d = ownerMissing n methodMarker)
            ids ((g.run c.tree c.model).diagnostics.filter (·.cause = .ownerNotFound)) := by
  have hfits : ∀ i n, c.tree.node? i = some n → c.tree.Fits n := fun i n => s.fits_of_lower h
  refine ⟨fun i n hn => (hfits i n hn).ownedByKind hn, fun g hg => ?_⟩
  have hreports := g.diagnostics_run c.tree c.model (hg ▸ Registry.onDeclarations_standard)
  have hids : ∀ i ∈ c.tree.candidateIds, i < c.tree.size :=
    fun i hi => List.mem_range.mp (List.mem_filter.mp hi).1
  obtain ⟨ids, hsublist, hmem, hall⟩ := LoweredCrate.exists_ownerless_nodes hfits hids
  refine ⟨ids, (List.pairwise_lt_range.filter _).sublist hsublist, fun i => ⟨fun hi => ?_, ?_⟩, ?_⟩
  · exact (hmem i (hsublist.mem hi)).mp hi
  · rintro ⟨n, hn⟩
    exact (hmem i hn.mem_candidateIds).mpr ⟨n, hn⟩
  · show List.Forall₂ c.OwnerlessReport ids (ownerless (g.run c.tree c.model).diagnostics)
    rw [hreports, ownerless_append, ownerless_eq_nil fun d hd => not_isOwnerless_of_mem_emit hd,
      List.append_nil, hg]
    exact hall

/-- A trait with a marked method, and an `impl` block of it. -/
def traitText : String :=
  "pub trait Draw \x7b\n#[::autolog::auto_log_method]\nfn draw(&self);\n\x7d\n" ++
    "impl Draw for Widget \x7b\nfn draw(&self) \x7b\x7d\n\x7d\n"

/-- The name and the attribute of the method of a trait, where besides there is an `impl` block with
    a method. -/
def traitMethod? : List Item → Option (String × WrittenPath)
  | [.trait _ [] [⟨.method, name, [.plain marker]⟩], .impl (some _) _ [] [⟨.method, _, []⟩]] =>
    some (name.text, marker.written)
  | _ => none

/-- The marked method, which is the second node of its file. -/
def drawNode (line : Nat) : Node :=
  ⟨.method, some "draw", some 1, [⟨["autolog", "auto_log_method"], true⟩],
    some ⟨"src/lib.rs", line⟩⟩

/-- The nodes of the crate. -/
theorem exists_traitCrate :
    ∃ c line trait block method, (oneFile traitText).lower = .ok c ∧
      c.tree.node? 1 = some trait ∧ trait.kind = .trait ∧ c.tree.node? 2 = some (drawNode line) ∧
      c.tree.node? 3 = some block ∧ block.kind = .impl ∧
      c.tree.node? 4 = some method ∧ method.kind = .method ∧ method.parent = some 3 := by
  obtain ⟨items, hok, hitems⟩ := exists_items_of_bind (by decide +kernel :
    (itemsOf traitText).toOption.bind traitMethod? =
      some ("draw", ⟨["autolog", "auto_log_method"], true⟩))
  unfold traitMethod? at hitems
  split at hitems
  · rename_i trait name marker path line method
    obtain ⟨hname, hmarker⟩ := Prod.mk.inj (Option.some.inj hitems)
    have hpaths : attributePaths [.plain marker] = [⟨["autolog", "auto_log_method"], true⟩] := by
      simp [attributePaths, Attribute.paths, hmarker]
    refine ⟨_, name.line, _, _, _, lower_oneFile hok, rfl, rfl, ?_, rfl, rfl, rfl, rfl, rfl⟩
    rw [drawNode, ← hpaths, ← hname]
    rfl
  · cases hitems

/-- The method of the trait, node 2, is reported; that of the block, node 4, belongs to the block. -/
theorem owners_of_traitText :
    ∃ c line, (oneFile traitText).lower = .ok c ∧ c.tree.owner? 2 = none ∧
      (c.tree.owner? 4).map (·.1) = some 3 ∧
      ownerMissing (drawNode line) methodMarker ∈
        (Generator.standard.run c.tree c.model).diagnostics := by
  obtain ⟨c, line, trait, block, method, hlower, htrait, hkind, hdraw, hblock, hkind', hmethod,
    hkind'', hparent⟩ := exists_traitCrate
  obtain ⟨howners, hruns⟩ := owners_of_lowered_crate hlower
  obtain ⟨p, outer, hp, houter, howner⟩ := howners 2 _ hdraw
  have howned := howners 4 _ hmethod
  rw [Tree.OwnedByKind, hkind''] at howned
  obtain ⟨p', outer', hp', houter', howner'⟩ := howned
  cases hp
  cases hparent.symm.trans hp'
  cases htrait.symm.trans houter
  cases hblock.symm.trans houter'
  refine ⟨c, line, hlower, ?_, ?_, ?_⟩
  · exact (howner.resolve_left fun h => by rw [hkind] at h; cases h.1).2
  · rw [(howner'.resolve_right fun h => by rw [hkind'] at h; cases h.1).2]
    rfl
  · have hmarked : c.IsMarkedTraitMethod 2 (drawNode line) :=
      ⟨hdraw, rfl, ⟨1, trait, rfl, htrait, hkind⟩, 0, Nat.one_pos,
        c.scopes.attribute?_of_leadingColon hdraw rfl (by decide)⟩
    obtain ⟨ids, -, hids, hall⟩ := hruns .standard rfl
    obtain ⟨hlength, hreports⟩ := List.forall₂_iff_get.mp hall
    obtain ⟨k, hk, hget⟩ := List.getElem_of_mem ((hids 2).mpr ⟨_, hmarked⟩)
    obtain ⟨n, hn, hreport⟩ := hreports k hk (hlength ▸ hk)
    rw [List.get_eq_getElem, hget, hdraw] at hn
    cases hn
    exact hreport ▸ List.mem_of_mem_filter (List.get_mem _ ⟨k, hlength ▸ hk⟩)

end LogMarkers
