import LogMarkers.Proofs.Run.SharedGroups

/-!
# Every recognised marker is accounted for

Some attributes of a declaration denote registered markers. Each of them leads to the finding of the
declaration or to a report of its own, so no marker is lost and none is reported twice.

* `recognised` and `firstFitting?`: which attributes denote markers, and which of them counts;
* `weigh_misfit`, `weigh_fit`, `weigh_fit_again`: what weighing does with the next marker, and
  `weigh_of_first` with all of them;
* `weigh_recognised_of_none`, `weigh_recognised_of_some`: the reports of weighing, attribute by
  attribute;
* `findTarget_cases`: what comes of the marker that counts;
* `resolve_accounts_for_markers`: all of it for a declaration with a name.
-/

namespace LogMarkers

/-! ## 1. Recognised attributes -/

section Recognised

variable (model : SemanticModel) (r : Registry) (i : NodeId) (n : Node)

/-- The registered marker that the attribute of a node at a position denotes. -/
def markerAt? (k : Nat) : Option Marker := (model.attribute? i k).bind r.find?

/-- The positions of the attributes of a node that denote registered markers. -/
def recognised : List Nat :=
  (List.range n.attributes.length).filter fun k => (markerAt? model r i k).isSome

/-- The first of these positions whose marker may stand on the node. -/
def firstFitting? : Option Nat :=
  (recognised model r i n).find? fun k => (markerAt? model r i k).any (·.appliesTo n.kind)

/-- The report on the marker at a position that does not count: it is misplaced, or stands after the
    one that counts. -/
def ReportOn (k : Nat) (d : Diagnostic) : Prop :=
  ∃ m, markerAt? model r i k = some m ∧
    (m.appliesTo n.kind = false ∧ d.cause = .misplacedMarker ∧ d = misplaced n m ∨
      m.appliesTo n.kind = true ∧ d.cause = .conflictingMarkers ∧
        ∃ first f, firstFitting? model r i n = some first ∧ first < k ∧
          markerAt? model r i first = some f ∧ d = conflicting n f m)

variable {model r i n}

theorem exists_marker_of_mem_recognised {k : Nat} (h : k ∈ recognised model r i n) :
    ∃ m, markerAt? model r i k = some m :=
  Option.isSome_iff_exists.mp (List.mem_filter.mp h).2

theorem recognised_lt : (recognised model r i n).Pairwise (· < ·) :=
  List.pairwise_lt_range.filter _

theorem markersOn_eq :
    markersOn model r i n = (recognised model r i n).filterMap (markerAt? model r i) := by
  unfold markersOn recognised
  rw [List.filterMap_filter]
  refine List.filterMap_congr fun k _ => ?_
  show markerAt? model r i k = _
  cases markerAt? model r i k <;> rfl

/-- Reports on the markers at some positions, one by one. -/
theorem forall₂_reportOn {report : Marker → Diagnostic} {ks : List Nat}
    (h : ∀ k ∈ ks, ∃ m, markerAt? model r i k = some m ∧ ReportOn model r i n k (report m)) :
    List.Forall₂ (ReportOn model r i n) ks ((ks.filterMap (markerAt? model r i)).map report) := by
  induction ks with
  | nil => exact .nil
  | cons k rest ih =>
    obtain ⟨m, hm, hreport⟩ := h k List.mem_cons_self
    rw [List.filterMap_cons_some hm, List.map_cons]
    exact .cons hreport (ih fun k' hk' => h k' (List.mem_cons_of_mem _ hk'))

end Recognised

/-! ## 2. Weighing the markers -/

/-- The report on a marker beside the one that counts. -/
def besideFirst (n : Node) (first m : Marker) : Diagnostic :=
  if m.appliesTo n.kind then conflicting n first m else misplaced n m

section Next

variable {n : Node} {m : Marker} (ms : List Marker)

/-- A marker that does not fit is reported in its place. -/
theorem weigh_misfit (h : m.appliesTo n.kind = false) (first : Option Marker) :
    weigh n first (m :: ms) =
      ((weigh n first ms).1, misplaced n m :: (weigh n first ms).2) := by
  cases first <;> rw [weigh, h, if_neg Bool.false_ne_true]

/-- The first marker that fits counts. -/
theorem weigh_fit (h : m.appliesTo n.kind = true) :
    weigh n none (m :: ms) = weigh n (some m) ms := by
  rw [weigh, if_pos h]

/-- A later one that fits is reported in its place. -/
theorem weigh_fit_again (h : m.appliesTo n.kind = true) (first : Marker) :
    weigh n (some first) (m :: ms) =
      ((weigh n (some first) ms).1, conflicting n first m :: (weigh n (some first) ms).2) := by
  rw [weigh, if_pos h]

end Next

/-- Markers of which none fits are all misplaced, and leave the others to be weighed. -/
theorem weigh_append_of_none_fits {n : Node} {ms : List Marker}
    (h : ∀ m ∈ ms, m.appliesTo n.kind = false) (rest : List Marker) :
    weigh n none (ms ++ rest) =
      ((weigh n none rest).1, ms.map (misplaced n) ++ (weigh n none rest).2) := by
  induction ms with
  | nil => rfl
  | cons m ms ih =>
    rw [List.cons_append, weigh_misfit _ (h m List.mem_cons_self),
      ih fun m' hm' => h m' (List.mem_cons_of_mem _ hm')]
    rfl

/-- Once a marker counts, every other one is reported. -/
theorem weigh_some (n : Node) (first : Marker) (ms : List Marker) :
    weigh n (some first) ms = (some first, ms.map (besideFirst n first)) := by
  induction ms with
  | nil => rfl
  | cons m rest ih =>
    rw [List.map_cons, besideFirst]
    cases hm : m.appliesTo n.kind with
    | true => rw [weigh_fit_again _ hm, ih, if_pos rfl]
    | false => rw [weigh_misfit _ hm, ih, if_neg Bool.false_ne_true]

/-- **The markers around the first that fits** are reported, and this one counts. -/
theorem weigh_of_first {n : Node} {before after : List Marker} {m : Marker}
    (hbefore : ∀ m' ∈ before, m'.appliesTo n.kind = false) (hm : m.appliesTo n.kind = true) :
    weigh n none (before ++ m :: after) = (some m, (before ++ after).map (besideFirst n m)) := by
  have hmisplaced : before.map (misplaced n) = before.map (besideFirst n m) := by
    refine List.map_congr_left fun m' hm' => ?_
    rw [besideFirst, hbefore m' hm', if_neg Bool.false_ne_true]
  rw [weigh_append_of_none_fits hbefore, weigh_fit _ hm, weigh_some, hmisplaced, List.map_append]

section Weighing

variable {model : SemanticModel} {r : Registry} {i : NodeId} {n : Node}

/-- Without a marker that fits, each one is reported as misplaced. -/
theorem weigh_recognised_of_none (h : firstFitting? model r i n = none) :
    (weigh n none (markersOn model r i n)).1 = none ∧
      List.Forall₂ (ReportOn model r i n) (recognised model r i n)
        (weigh n none (markersOn model r i n)).2 := by
  have hmisfit : ∀ k ∈ recognised model r i n, ∀ m, markerAt? model r i k = some m →
      m.appliesTo n.kind = false := by
    intro k hk m hm
    have hnot := List.find?_eq_none.mp h k hk
    rwa [hm, Option.any_some, Bool.not_eq_true] at hnot
  have hnone : ∀ m ∈ markersOn model r i n, m.appliesTo n.kind = false := by
    intro m hm
    rw [markersOn_eq] at hm
    obtain ⟨k, hk, hm⟩ := List.mem_filterMap.mp hm
    exact hmisfit k hk m hm
  have hweigh := weigh_append_of_none_fits hnone []
  rw [List.append_nil] at hweigh
  rw [hweigh, weigh, List.append_nil, markersOn_eq]
  refine ⟨rfl, forall₂_reportOn fun k hk => ?_⟩
  obtain ⟨m, hm⟩ := exists_marker_of_mem_recognised hk
  exact ⟨m, hm, m, hm, .inl ⟨hmisfit k hk m hm, rfl, rfl⟩⟩

/-- Otherwise the first one that fits counts, and each other one is reported. -/
theorem weigh_recognised_of_some {first : Nat} (h : firstFitting? model r i n = some first) :
    ∃ m, markerAt? model r i first = some m ∧
      (weigh n none (markersOn model r i n)).1 = some m ∧
      List.Forall₂ (ReportOn model r i n) ((recognised model r i n).filter (· ≠ first))
        (weigh n none (markersOn model r i n)).2 ∧
      (recognised model r i n).length = (weigh n none (markersOn model r i n)).2.length + 1 := by
  obtain ⟨hfits, before, after, hsplit, hbefore⟩ := List.find?_eq_some_iff_append.mp h
  obtain ⟨m, hm, hfits⟩ := (Option.any_eq_true ..).mp hfits
  have hmisfit : ∀ k ∈ before, ∀ m', markerAt? model r i k = some m' →
      m'.appliesTo n.kind = false := by
    intro k hk m' hm'
    have hnot := hbefore k hk
    rwa [hm', Option.any_some, Bool.not_eq_true'] at hnot
  -- the positions increase, so the first one is passed once and the later ones are greater
  have hlt : (before ++ first :: after).Pairwise (· < ·) := hsplit ▸ recognised_lt
  obtain ⟨-, hrest, hearlier⟩ := List.pairwise_append.mp hlt
  have hlater : ∀ k ∈ after, first < k := (List.pairwise_cons.mp hrest).1
  have hothers : (recognised model r i n).filter (· ≠ first) = before ++ after := by
    rw [hsplit, List.filter_append, List.filter_cons_of_neg (by simp)]
    congr 1
    · refine List.filter_eq_self.mpr fun k hk => decide_eq_true ?_
      exact Nat.ne_of_lt (hearlier k hk first List.mem_cons_self)
    · exact List.filter_eq_self.mpr fun k hk => decide_eq_true (Nat.ne_of_gt (hlater k hk))
  have hmarkers : markersOn model r i n = before.filterMap (markerAt? model r i) ++
      m :: after.filterMap (markerAt? model r i) := by
    rw [markersOn_eq, hsplit, List.filterMap_append, List.filterMap_cons_some hm]
  have hweigh : weigh n none (markersOn model r i n) =
      (some m, ((before ++ after).filterMap (markerAt? model r i)).map (besideFirst n m)) := by
    rw [hmarkers, List.filterMap_append]
    refine weigh_of_first (fun m' hm' => ?_) hfits
    obtain ⟨k, hk, hm'⟩ := List.mem_filterMap.mp hm'
    exact hmisfit k hk m' hm'
  have hreports : List.Forall₂ (ReportOn model r i n) (before ++ after)
      (weigh n none (markersOn model r i n)).2 := by
    rw [hweigh]
    refine forall₂_reportOn fun k hk => ?_
    have hk' : k ∈ recognised model r i n := (List.mem_filter.mp (hothers ▸ hk)).1
    obtain ⟨m', hm'⟩ := exists_marker_of_mem_recognised hk'
    refine ⟨m', hm', m', hm', ?_⟩
    cases happlies : m'.appliesTo n.kind with
    | false => exact .inl ⟨rfl, by simp [besideFirst, happlies, misplaced]⟩
    | true =>
      have hmem : k ∈ after := by
        rcases List.mem_append.mp hk with hk | hk
        · rw [hmisfit k hk m' hm'] at happlies
          cases happlies
        · exact hk
      have hreport : besideFirst n m m' = conflicting n m m' := if_pos happlies
      exact .inr ⟨rfl, hreport ▸ rfl, first, m, h, hlater k hmem, hm, hreport⟩
  refine ⟨m, hm, by rw [hweigh], hothers ▸ hreports, ?_⟩
  have hlength := hreports.length_eq
  rw [hsplit, ← hlength]
  simp only [List.length_append, List.length_cons]
  omega

end Weighing

/-! ## 3. The marker that counts -/

/-- The report on the owner of a declaration: there is none, or it has parameters. -/
def ReportOnOwner (t : Tree) (model : SemanticModel) (i : NodeId) (d : Diagnostic) : Prop :=
  d.cause = .ownerNotFound ∧ t.owner? i = none ∨
    d.cause = .genericOwner ∧ ∃ owner node s, t.owner? i = some (owner, node) ∧
      model.declared? owner = some s ∧ s.generic = true

/-- A declaration has an owner, of which no parameters are known. -/
def HasPlainOwner (t : Tree) (model : SemanticModel) (i : NodeId) : Prop :=
  ∃ owner node, t.owner? i = some (owner, node) ∧
    ∀ s, model.declared? owner = some s → s.generic = false

theorem ReportOnOwner.not_hasPlainOwner {t : Tree} {model : SemanticModel} {i : NodeId}
    {d : Diagnostic} (h : ReportOnOwner t model i d) : ¬ HasPlainOwner t model i := by
  rintro ⟨owner, node, howner, hplain⟩
  rcases h with ⟨-, hnone⟩ | ⟨-, owner', node', s, howner', hs, hgeneric⟩
  · rw [hnone] at howner
    cases howner
  · rw [howner] at howner'
    cases howner'
    rw [hplain s hs] at hgeneric
    cases hgeneric

/-- **What comes of the marker that counts**: a report on the owner or a finding. -/
theorem findTarget_cases (t : Tree) (model : SemanticModel) (i : NodeId) (n : Node) (m : Marker)
    (augmentation : Augmentation) :
    (∃ d, findTarget t model i n m augmentation = .error d ∧ ReportOnOwner t model i d) ∨
      ∃ f, findTarget t model i n m augmentation = .ok f ∧ HasPlainOwner t model i ∧
        f.target.marker = m.identity := by
  cases howner : t.owner? i with
  | none => exact .inl ⟨ownerMissing n m, by rw [findTarget, howner], .inl ⟨rfl, howner⟩⟩
  | some found =>
    obtain ⟨owner, node⟩ := found
    cases hs : model.declared? owner with
    | none =>
      let f : Finding :=
        ⟨owner, ⟨ownerName? node none, "", augmentation, m.identity, n.location⟩⟩
      have hfound : findTarget t model i n m augmentation = .ok f := by
        rw [findTarget, howner]
        simp only [hs]
        rfl
      exact .inr ⟨f, hfound, ⟨owner, node, howner, by simp [hs]⟩, rfl⟩
    | some s =>
      have hfound := findTarget_of_declared? howner hs n m augmentation
      cases hgeneric : s.generic with
      | true =>
        rw [hgeneric, if_pos rfl] at hfound
        exact .inl ⟨_, hfound, .inr ⟨rfl, owner, node, s, howner, hs, hgeneric⟩⟩
      | false =>
        rw [hgeneric, if_neg Bool.false_ne_true] at hfound
        refine .inr ⟨_, hfound, ⟨owner, node, howner, fun s' hs' => ?_⟩, rfl⟩
        rw [hs] at hs'
        cases hs'
        exact hgeneric

/-- A marker on a declaration with a name asks for something. -/
theorem exists_augmentation {n : Node} {name : String} (hname : n.name = some name) (m : Marker) :
    ∃ augmentation, m.augmentation? n = some augmentation := by
  unfold Marker.augmentation?
  cases m.kind with
  | declaration => exact ⟨_, rfl⟩
  | member role => exact ⟨.member name role, by rw [hname]; rfl⟩

/-- Where no marker asks for anything, there are only the reports of weighing. -/
theorem resolve_of_unasked {t : Tree} {model : SemanticModel} {r : Registry} {i : NodeId}
    {n : Node} (hn : t.node? i = some n)
    (hnone : (weigh n none (markersOn model r i n)).1.bind (·.augmentation? n) = none) :
    resolve t model r i = { diagnostics := (weigh n none (markersOn model r i n)).2 } := by
  cases hchosen : (weigh n none (markersOn model r i n)).1 with
  | none => simp only [resolve, hn, hchosen]
  | some m =>
    rw [hchosen, Option.bind_some] at hnone
    simp only [resolve, hn, hchosen, hnone]

/-! ## 4. The account -/

/-- What a resolution has to say on the markers of a declaration. -/
structure Accounts (t : Tree) (model : SemanticModel) (r : Registry) (i : NodeId) (n : Node)
    (res : Resolution) : Prop where
  /-- Every recognised attribute leads to the finding or to one report. -/
  count : (recognised model r i n).length = res.finding.toList.length + res.diagnostics.length
  /-- One report on every recognised attribute but the first that fits, in the order of the
      attributes, and then at most one on the owner. -/
  reports : ∃ onMarkers onOwner, res.diagnostics = onMarkers ++ onOwner ∧
    List.Forall₂ (ReportOn model r i n)
      ((recognised model r i n).filter (some · ≠ firstFitting? model r i n)) onMarkers ∧
    onOwner.length ≤ 1 ∧ ∀ d ∈ onOwner, ReportOnOwner t model i d
  /-- A finding has the identity that the first fitting attribute denotes. -/
  found : ∀ f, res.finding = some f → ∃ first, firstFitting? model r i n = some first ∧
    model.attribute? i first = some f.target.marker
  /-- There is a finding exactly if an attribute fits and an owner without parameters is there. -/
  found_iff : res.finding.isSome = true ↔
    (firstFitting? model r i n).isSome = true ∧ HasPlainOwner t model i

/-- **Every recognised marker is accounted for**, on every declaration with a name: it leads to the
    finding or to one report. The reports are on the misplaced markers and on those after the first
    that fits, in the order of the attributes; then comes the report on the owner, if there is no
    finding although a marker fits. -/
theorem resolve_accounts_for_markers (t : Tree) (model : SemanticModel) (r : Registry)
    {i : NodeId} {n : Node} {name : String} (hn : t.node? i = some n)
    (hname : n.name = some name) : Accounts t model r i n (resolve t model r i) := by
  cases hfirst : firstFitting? model r i n with
  | none =>
    obtain ⟨hnone, hreports⟩ := weigh_recognised_of_none hfirst
    have hall : (recognised model r i n).filter (some · ≠ firstFitting? model r i n) =
        recognised model r i n := by
      rw [hfirst]
      exact List.filter_eq_self.mpr fun _ _ => rfl
    rw [resolve_of_unasked hn (by rw [hnone]; rfl)]
    refine ⟨?_, ⟨_, [], (List.append_nil _).symm, hall.symm ▸ hreports, Nat.zero_le _, nofun⟩,
      nofun, iff_of_false nofun fun h => ?_⟩
    · rw [hreports.length_eq]
      exact (Nat.zero_add _).symm
    · rw [hfirst] at h
      cases h.1
  | some first =>
    obtain ⟨m, hm, hchosen, hreports, hcount⟩ := weigh_recognised_of_some hfirst
    obtain ⟨augmentation, hasked⟩ := exists_augmentation hname m
    have hothers : (recognised model r i n).filter (some · ≠ firstFitting? model r i n) =
        (recognised model r i n).filter (· ≠ first) := by
      rw [hfirst]
      exact List.filter_congr fun k _ => by simp
    rw [← hothers] at hreports
    rw [resolve_of_markedBy ⟨hn, hchosen, hasked⟩]
    rcases findTarget_cases t model i n m augmentation with
      ⟨d, hfound, hreport⟩ | ⟨f, hfound, hplain, hmarker⟩
    · rw [hfound]
      refine ⟨?_, ⟨_, [d], rfl, hreports, Nat.le_refl _, ?_⟩, nofun,
        iff_of_false nofun fun h => hreport.not_hasPlainOwner h.2⟩
      · rw [hcount, List.length_append]
        exact (Nat.zero_add _).symm
      · intro d' hd'
        exact List.mem_singleton.mp hd' ▸ hreport
    · rw [hfound]
      refine ⟨?_, ⟨_, [], (List.append_nil _).symm, hreports, Nat.zero_le _, nofun⟩,
        fun f' hf' => ⟨first, hfirst, ?_⟩, iff_of_true rfl ⟨by rw [hfirst]; rfl, hplain⟩⟩
      · rw [hcount]
        exact Nat.add_comm _ _
      · cases hf'
        obtain ⟨p, hp, hfind⟩ := Option.bind_eq_some_iff.mp hm
        rw [hp, hmarker, Registry.identity_of_find? hfind]

/-- A struct with a field that carries five attributes. -/
def crowdedTree : Tree := Tree.build
  [ .openNode { kind := .struct, name := some "Widget" },
    .leaf { kind := .field, name := some "size",
            attributes := List.replicate 5 ⟨["log"], false⟩ } ]

/-- The first attribute denotes nothing; the others denote the markers of methods, of properties
    twice and of types. -/
def crowdedModel : SemanticModel := SymbolTable.model
  { attributes :=
      [ ((1, 1), .ofSegments ["autolog", "auto_log_method"]),
        ((1, 2), .ofSegments ["autolog", "auto_log_property"]),
        ((1, 3), .ofSegments ["autolog", "auto_log_property"]),
        ((1, 4), .ofSegments ["autolog", "auto_log_class"]) ] }

/-- Four markers are recognised on the field: the second is found, the others are reported. -/
theorem resolve_accounts_for_crowdedTree :
    ∃ n, crowdedTree.node? 1 = some n ∧ recognised crowdedModel .standard 1 n = [1, 2, 3, 4] ∧
      firstFitting? crowdedModel .standard 1 n = some 2 ∧
      (resolve crowdedTree crowdedModel .standard 1).finding.isSome = true ∧
      (resolve crowdedTree crowdedModel .standard 1).diagnostics.map (·.cause) =
        [.misplacedMarker, .conflictingMarkers, .misplacedMarker] ∧
      Accounts crowdedTree crowdedModel .standard 1 n
        (resolve crowdedTree crowdedModel .standard 1) := by
  let n : Node := ⟨.field, some "size", some 0, List.replicate 5 ⟨["log"], false⟩, none⟩
  have hn : crowdedTree.node? 1 = some n := by decide
  have haccounts := resolve_accounts_for_markers crowdedTree crowdedModel .standard hn rfl
  have hfirst : firstFitting? crowdedModel .standard 1 n = some 2 := by decide
  have howner : HasPlainOwner crowdedTree crowdedModel 1 :=
    ⟨0, ⟨.struct, some "Widget", none, [], none⟩, by decide +kernel, nofun⟩
  exact ⟨n, hn, by decide, hfirst, haccounts.found_iff.mpr ⟨by rw [hfirst]; rfl, howner⟩,
    by decide +kernel, haccounts⟩

end LogMarkers
