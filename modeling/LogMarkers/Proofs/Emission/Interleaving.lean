import LogMarkers.Proofs.Emission.ArtifactNames
import Mathlib.Data.List.Sort

/-!
# The order of owners in the input

What a list of targets becomes depends on what each owner's targets are, and not on how the targets
of different owners are mixed.

* `ownerKeys_filter`: the owners of some of the owners' targets;
* `emit_filter`: the emission of the targets of some owners is that of these owners;
* `emit_split`: an emission is that of the owners before one owner, that of this owner alone, and
  that of the owners after it;
* `emit_of_same_subsequences`: lists in which every owner has the same targets become the same, and
  an owner with the same targets in two lists gets the same from both.
-/

namespace LogMarkers

/-! ## 1. Increasing lists of owners -/

namespace OwnerKey

instance : Std.Irrefl (α := OwnerKey) (· < ·) := ⟨KeyOrder.irrefl⟩

instance : Std.Antisymm (α := OwnerKey) (· < ·) :=
  ⟨fun _ _ hab hba => absurd (KeyOrder.trans hab hba) (KeyOrder.irrefl _)⟩

/-- An increasing list of owners is the owners before one owner, this owner if it is listed, and the
    owners after it. -/
theorem eq_append_filter {keys : List OwnerKey} (h : keys.Pairwise (· < ·)) (k : OwnerKey) :
    keys = keys.filter (·.before k) ++ keys.filter (· = k) ++ keys.filter (k.before ·) := by
  have hequal : (keys.filter (· = k)).Pairwise (· < ·) := h.filter _
  have hupTo : (keys.filter (·.before k) ++ keys.filter (· = k)).Pairwise (· < ·) := by
    refine List.pairwise_append.mpr ⟨h.filter _, hequal, fun a ha b hb => ?_⟩
    have hak : a < k := (List.mem_filter.mp ha).2
    rw [of_decide_eq_true (List.mem_filter.mp hb).2]
    exact hak
  have hall : (keys.filter (·.before k) ++ keys.filter (· = k) ++
      keys.filter (k.before ·)).Pairwise (· < ·) := by
    refine List.pairwise_append.mpr ⟨hupTo, h.filter _, fun a ha b hb => ?_⟩
    have hkb : k < b := (List.mem_filter.mp hb).2
    rcases List.mem_append.mp ha with ha | ha
    · exact KeyOrder.trans (show a < k from (List.mem_filter.mp ha).2) hkb
    · rw [of_decide_eq_true (List.mem_filter.mp ha).2]
      exact hkb
  refine h.eq_of_mem_iff hall fun a => ?_
  simp only [List.mem_append, List.mem_filter, decide_eq_true_eq, ← and_or_left]
  refine ⟨fun ha => ⟨ha, ?_⟩, And.left⟩
  -- an owner other than `k` stands on one side of it
  by_cases hbefore : a.before k = true
  · exact .inl (.inl hbefore)
  · by_cases heq : a = k
    · exact .inl (.inr heq)
    · exact .inr (KeyOrder.gt_of_not_lt hbefore heq)

end OwnerKey

/-- The owners of the targets of some owners. -/
theorem ownerKeys_filter (p : OwnerKey → Bool) (targets : List Target) :
    ownerKeys (targets.filter (p ·.key)) = (ownerKeys targets).filter p := by
  refine (ownerKeys_lt _).eq_of_mem_iff ((ownerKeys_lt targets).filter _) fun k => ?_
  rw [mem_ownerKeys, List.mem_filter, mem_ownerKeys]
  constructor
  · rintro ⟨t, ht, rfl⟩
    obtain ⟨hmem, hp⟩ := List.mem_filter.mp ht
    exact ⟨⟨t, hmem, rfl⟩, hp⟩
  · rintro ⟨⟨t, ht, rfl⟩, hp⟩
    exact ⟨t, List.mem_filter.mpr ⟨ht, hp⟩, rfl⟩

/-- An owner has all its targets among the targets of some owners, if it is one of them. -/
theorem targetsOf_filter {p : OwnerKey → Bool} {k : OwnerKey} (h : p k = true)
    (targets : List Target) : targetsOf (targets.filter (p ·.key)) k = targetsOf targets k := by
  unfold targetsOf
  rw [List.filter_filter]
  refine List.filter_congr fun t _ => ?_
  by_cases e : t.key = k
  · simp [e, h]
  · simp [e]

/-- Lists in which every owner has the same targets have the same owners. -/
theorem ownerKeys_of_targetsOf {targets targets' : List Target}
    (h : ∀ k, targetsOf targets k = targetsOf targets' k) :
    ownerKeys targets = ownerKeys targets' := by
  have hsub : ∀ {ts ts' : List Target}, (∀ k, targetsOf ts k = targetsOf ts' k) →
      ∀ k ∈ ownerKeys ts, k ∈ ownerKeys ts' := by
    intro ts ts' h k hk
    obtain ⟨t, ht, rfl⟩ := mem_ownerKeys.mp hk
    have hmem : t ∈ targetsOf ts t.key := List.mem_filter.mpr ⟨ht, decide_eq_true rfl⟩
    rw [h] at hmem
    exact mem_ownerKeys.mpr ⟨t, (List.mem_filter.mp hmem).1, rfl⟩
  exact (ownerKeys_lt _).eq_of_mem_iff (ownerKeys_lt _)
    fun k => ⟨hsub h k, hsub (fun k => (h k).symm) k⟩

/-! ## 2. The emission of some owners -/

namespace Emission

/-- One emission followed by another. -/
def append (a b : Emission) : Emission :=
  ⟨a.artifacts ++ b.artifacts, a.diagnostics ++ b.diagnostics⟩

instance : Append Emission := ⟨append⟩

theorem artifacts_append (a b : Emission) : (a ++ b).artifacts = a.artifacts ++ b.artifacts := rfl

/-- The emissions of several owners one after the other. -/
def flat (part : OwnerKey → Emission) (keys : List OwnerKey) : Emission :=
  ⟨keys.flatMap fun k => (part k).artifacts, keys.flatMap fun k => (part k).diagnostics⟩

theorem flat_append (part : OwnerKey → Emission) (keys more : List OwnerKey) :
    flat part (keys ++ more) = flat part keys ++ flat part more := by
  unfold flat
  rw [List.flatMap_append, List.flatMap_append]
  rfl

theorem flat_congr {part part' : OwnerKey → Emission} {keys : List OwnerKey}
    (h : ∀ k ∈ keys, part k = part' k) : flat part keys = flat part' keys := by
  unfold flat
  rw [List.flatMap_congr fun k hk => congrArg Emission.artifacts (h k hk),
    List.flatMap_congr fun k hk => congrArg Emission.diagnostics (h k hk)]

end Emission

/-- The owner of an extension. -/
def Artifact.ownerKey (a : Artifact) : OwnerKey := ⟨a.ownerNamespace, some a.ownerName⟩

section Emit

variable (renderer : Renderer) (suffix : String) (targets : List Target)

/-- What an owner gets for its targets. -/
def ownerPart (k : OwnerKey) : Emission := emitGroup renderer suffix ⟨k, targetsOf targets k⟩

theorem emit_eq_flat :
    emit renderer suffix targets =
      .flat (ownerPart renderer suffix targets) (ownerKeys targets) := by
  unfold Emission.flat ownerPart
  rw [← emit_artifacts, ← emit_diagnostics]

/-- **The emission of the targets of some owners** is what these owners get from all targets. -/
theorem emit_filter (p : OwnerKey → Bool) :
    emit renderer suffix (targets.filter (p ·.key)) =
      .flat (ownerPart renderer suffix targets) ((ownerKeys targets).filter p) := by
  rw [emit_eq_flat, ownerKeys_filter]
  refine Emission.flat_congr fun k hk => ?_
  unfold ownerPart
  rw [targetsOf_filter (List.mem_filter.mp hk).2]

/-- **An emission is put together from the owners before one owner, this owner alone, and the owners
    after it.** -/
theorem emit_split (k : OwnerKey) :
    emit renderer suffix targets =
      emit renderer suffix (targets.filter (·.key.before k)) ++
        emit renderer suffix (targetsOf targets k) ++
        emit renderer suffix (targets.filter (k.before ·.key)) := by
  have halone : emit renderer suffix (targetsOf targets k) =
      .flat (ownerPart renderer suffix targets) ((ownerKeys targets).filter (· = k)) :=
    emit_filter renderer suffix targets (· = k)
  rw [halone, emit_filter renderer suffix targets (·.before k), emit_filter renderer suffix targets
    (k.before ·), ← Emission.flat_append, ← Emission.flat_append,
    ← OwnerKey.eq_append_filter (ownerKeys_lt targets) k, emit_eq_flat]

variable {renderer suffix targets}

/-- An extension belongs to the owner of a target. -/
theorem ownerKey_of_mem_emit {a : Artifact} (h : a ∈ (emit renderer suffix targets).artifacts) :
    ∃ t ∈ targets, t.key = a.ownerKey := by
  rw [emit_artifacts] at h
  obtain ⟨k, hk, ha⟩ := List.mem_flatMap.mp h
  obtain ⟨owner, text, howner, rfl⟩ := exists_owner_of_mem_emitGroup ha
  obtain ⟨t, ht, rfl⟩ := mem_ownerKeys.mp hk
  exact ⟨t, ht, congrArg (OwnerKey.mk t.key.space) howner⟩

/-- None of the extensions belongs to an owner without targets. -/
theorem filter_ownerKey_eq_nil {k : OwnerKey} (h : ∀ t ∈ targets, t.key ≠ k) :
    (emit renderer suffix targets).artifacts.filter (·.ownerKey = k) = [] := by
  refine List.filter_eq_nil_iff.mpr fun a ha hk => ?_
  obtain ⟨t, ht, e⟩ := ownerKey_of_mem_emit ha
  exact h t ht (e.trans (of_decide_eq_true hk))

/-- The extensions of an owner are those that its targets alone become. -/
theorem filter_ownerKey_emit (k : OwnerKey) :
    (emit renderer suffix targets).artifacts.filter (·.ownerKey = k) =
      (emit renderer suffix (targetsOf targets k)).artifacts := by
  have hbefore : ∀ t ∈ targets.filter (·.key.before k), t.key ≠ k := by
    intro t ht e
    have hlt : t.key < k := (List.mem_filter.mp ht).2
    rw [e] at hlt
    exact KeyOrder.irrefl k hlt
  have hafter : ∀ t ∈ targets.filter (k.before ·.key), t.key ≠ k := by
    intro t ht e
    have hlt : k < t.key := (List.mem_filter.mp ht).2
    rw [e] at hlt
    exact KeyOrder.irrefl k hlt
  have halone : (emit renderer suffix (targetsOf targets k)).artifacts.filter (·.ownerKey = k) =
      (emit renderer suffix (targetsOf targets k)).artifacts := by
    refine List.filter_eq_self.mpr fun a ha => ?_
    obtain ⟨t, ht, e⟩ := ownerKey_of_mem_emit ha
    rw [← e]
    exact (List.mem_filter.mp ht).2
  rw [emit_split renderer suffix targets k, Emission.artifacts_append, Emission.artifacts_append,
    List.filter_append, List.filter_append, filter_ownerKey_eq_nil hbefore, halone,
    filter_ownerKey_eq_nil hafter, List.nil_append, List.append_nil]

end Emit

/-! ## 3. Mixing owners -/

/-- What an owner gets of an emission: one part of it, between what the owners before it and the
    owners after it get, with the artifacts of this owner and no others. -/
structure ShareOf (renderer : Renderer) (suffix : String) (targets : List Target) (k : OwnerKey)
    (part : Emission) : Prop where
  between : emit renderer suffix targets =
    emit renderer suffix (targets.filter (·.key.before k)) ++ part ++
      emit renderer suffix (targets.filter (k.before ·.key))
  artifacts : (emit renderer suffix targets).artifacts.filter (·.ownerKey = k) = part.artifacts

/-- An owner's share is what its targets alone become. -/
theorem shareOf_targetsOf (renderer : Renderer) (suffix : String) (targets : List Target)
    (k : OwnerKey) :
    ShareOf renderer suffix targets k (emit renderer suffix (targetsOf targets k)) :=
  ⟨emit_split renderer suffix targets k, filter_ownerKey_emit k⟩

/-- **How the targets of different owners are mixed makes no difference.** Two lists in which every
    owner has the same targets in the same order become the same artifacts and the same reports. And
    an owner that has the same targets in both lists, whatever the other owners have, has the same
    share of both, which is what its targets alone become. -/
theorem emit_of_same_subsequences (renderer : Renderer) (suffix : String)
    (targets targets' : List Target) :
    ((∀ k, targetsOf targets k = targetsOf targets' k) →
      emit renderer suffix targets = emit renderer suffix targets') ∧
    ∀ k, targetsOf targets k = targetsOf targets' k →
      ShareOf renderer suffix targets k (emit renderer suffix (targetsOf targets k)) ∧
      ShareOf renderer suffix targets' k (emit renderer suffix (targetsOf targets k)) := by
  refine ⟨fun h => ?_, fun k h => ⟨shareOf_targetsOf renderer suffix targets k, ?_⟩⟩
  · rw [emit_eq_flat, emit_eq_flat, ownerKeys_of_targetsOf h]
    refine Emission.flat_congr fun k _ => ?_
    unfold ownerPart
    rw [h]
  · rw [h]
    exact shareOf_targetsOf renderer suffix targets' k

/-- A target of a type in the module `ui`, or of an owner without a name. -/
def uiTarget (owner : Option String) (augmentation : Augmentation) (line : Nat) : Target :=
  ⟨owner, "ui", augmentation, ⟨"autolog::auto_log_class"⟩, some ⟨"src/ui.rs", line⟩⟩

/-- Three owners whose targets are mixed: `Widget` has two members, `Button` has one twice, and one
    owner has no name. -/
def mixedTargets : List Target :=
  [uiTarget (some "Widget") .declaration 1, uiTarget (some "Button") .declaration 2,
    uiTarget none .declaration 3, uiTarget (some "Widget") (.member "text" .property) 4,
    uiTarget (some "Button") .declaration 5]

/-- The same targets owner by owner. -/
def sortedTargets : List Target :=
  [uiTarget (some "Widget") .declaration 1, uiTarget (some "Widget") (.member "text" .property) 4,
    uiTarget none .declaration 3, uiTarget (some "Button") .declaration 2,
    uiTarget (some "Button") .declaration 5]

/-- Mixed or not, and beside any other owners, `Widget` gets its extension and `Button` the error on
    the second of its targets. -/
theorem emit_of_same_subsequences_mixedTargets :
    (∀ k, targetsOf mixedTargets k = targetsOf sortedTargets k) ∧
      mixedTargets ≠ sortedTargets ∧
      emit .standard ".rs" mixedTargets = emit .standard ".rs" sortedTargets ∧
      (emit .standard ".rs" mixedTargets).artifacts.map (·.id) = ["ui.Widget.rs"] ∧
      (emit .standard ".rs" mixedTargets).diagnostics.map (·.location) =
        [some ⟨"src/ui.rs", 3⟩, some ⟨"src/ui.rs", 5⟩] ∧
      ShareOf .standard ".rs" (uiTarget (some "Panel") .declaration 9 :: mixedTargets)
        ⟨"ui", some "Button"⟩
        (emit .standard ".rs" (targetsOf mixedTargets ⟨"ui", some "Button"⟩)) := by
  have hsame : ∀ k, targetsOf mixedTargets k = targetsOf sortedTargets k := by
    intro k
    by_cases hwidget : k = ⟨"ui", some "Widget"⟩
    · subst hwidget
      decide
    by_cases hbutton : k = ⟨"ui", some "Button"⟩
    · subst hbutton
      decide
    simp [targetsOf, mixedTargets, sortedTargets, uiTarget, Target.key, List.filter_cons,
      Ne.symm hwidget, Ne.symm hbutton]
  exact ⟨hsame, by decide, (emit_of_same_subsequences .standard ".rs" _ _).1 hsame, by decide,
    by decide, ((emit_of_same_subsequences .standard ".rs" mixedTargets _).2 _ (by decide)).2⟩

end LogMarkers
