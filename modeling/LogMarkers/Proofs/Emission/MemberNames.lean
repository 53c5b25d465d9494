import LogMarkers.Proofs.Emission.Interleaving

/-!
# Which owners are lost to members defined twice

The method that stands for an augmentation has a name from which the augmentation can be read back,
whatever the member is called. So an owner of which no two targets ask for the same never loses its
extension, and one of which two targets do always loses it.

* `Renderer.methodName_injective`: different augmentations have different methods;
* `AsksTwice`: two targets of an owner ask for the same;
* `LostToDuplicates`, `HasExtension`: what an emission says of an owner;
* `lost_to_duplicates_iff`: an owner is lost exactly if two of its targets ask for the same.
-/

namespace LogMarkers

/-! ## 1. Names of methods -/

namespace Renderer

/-- The methods for a type, for properties and for methods start differently. -/
theorem toList_methodName (a : Augmentation) :
    (methodName a).toList = "log_".toList ++ match a with
      | .declaration => "class".toList
      | .member name .property => "prop_".toList ++ name.toList
      | .member name .method => "method_".toList ++ name.toList := by
  cases a with
  | declaration => decide
  | member name role => cases role <;> simp [methodName]

/-- **Different augmentations have different methods.** -/
theorem methodName_injective : Function.Injective methodName := by
  intro a b h
  have hchars := congrArg String.toList h
  rw [toList_methodName, toList_methodName, List.append_cancel_left_eq] at hchars
  cases a with
  | declaration =>
    cases b with
    | declaration => rfl
    | member name role => cases role <;> simp at hchars
  | member name role =>
    cases b with
    | declaration => cases role <;> simp at hchars
    | member name' role' =>
      -- the roles differ in the first character, and equal ones leave the names
      cases role <;> cases role' <;> simp_all [String.toList_inj]

theorem ident_snippet_inj (owner : String) {a b : Augmentation} :
    (standard.snippet owner a).ident = (standard.snippet owner b).ident ↔ a = b :=
  methodName_injective.eq_iff

end Renderer

/-- The members of an owner have different names exactly if its targets ask for different things. -/
theorem nodup_memberNames_standard (owner : String) (ts : List Target) :
    (memberNames .standard owner ts).Nodup ↔ (ts.map (·.augmentation)).Nodup := by
  have hnames : memberNames .standard owner ts =
      (ts.map (·.augmentation)).map Renderer.methodName := by
    rw [List.map_map]
    rfl
  rw [hnames, List.nodup_map_iff Renderer.methodName_injective]

/-! ## 2. What is said of an owner -/

/-- Two targets of an owner ask for the same. -/
def AsksTwice (targets : List Target) (k : OwnerKey) : Prop :=
  ∃ (i j : Nat) (t t' : Target), i < j ∧ targets[i]? = some t ∧ targets[j]? = some t' ∧
    t.key = k ∧ t'.key = k ∧ t.augmentation = t'.augmentation

theorem asksTwice_iff {targets : List Target} {k : OwnerKey} :
    AsksTwice targets k ↔ ¬ ((targetsOf targets k).map (·.augmentation)).Nodup := by
  rw [List.Nodup, List.pairwise_map, targetsOf, List.pairwise_filter, List.pairwise_iff_getElem]
  constructor
  · rintro ⟨i, j, t, t', hij, hi, hj, hk, hk', hsame⟩ hall
    obtain ⟨hlt, rfl⟩ := List.getElem?_eq_some_iff.mp hi
    obtain ⟨hlt', rfl⟩ := List.getElem?_eq_some_iff.mp hj
    exact hall i j hlt hlt' hij (decide_eq_true hk) (decide_eq_true hk') hsame
  · intro hnot
    by_contra hnone
    refine hnot fun i j hi hj hij hk hk' hsame => hnone ?_
    exact ⟨i, j, targets[i], targets[j], hij, List.getElem?_eq_getElem hi,
      List.getElem?_eq_getElem hj, of_decide_eq_true hk, of_decide_eq_true hk', hsame⟩

/-- The owner has an extension. -/
def HasExtension (e : Emission) (k : OwnerKey) : Prop := ∃ a ∈ e.artifacts, a.ownerKey = k

/-- A named owner has targets and no extension, and errors say of it that members would be defined
    twice. -/
structure LostToDuplicates (targets : List Target) (e : Emission) (space owner : String) : Prop where
  asked : ∃ t ∈ targets, t.key = ⟨space, some owner⟩
  lost : ¬ HasExtension e ⟨space, some owner⟩
  reported : ∃ d ∈ e.diagnostics, d.cause = .duplicateGeneratedMember ∧ d.severity = .error ∧
    d.owner = some (qualifiedOwner space owner)

section

variable {renderer : Renderer} {suffix : String} {targets : List Target} {k : OwnerKey}

theorem ownerKey_of_mem_ownerPart {a : Artifact}
    (h : a ∈ (ownerPart renderer suffix targets k).artifacts) : a.ownerKey = k := by
  obtain ⟨owner, text, howner, rfl⟩ := exists_owner_of_mem_emitGroup h
  exact congrArg (OwnerKey.mk k.space) howner.symm

/-- An owner with targets has an extension exactly if its share of the emission has one. -/
theorem hasExtension_emit_iff (hk : k ∈ ownerKeys targets) :
    HasExtension (emit renderer suffix targets) k ↔
      (ownerPart renderer suffix targets k).artifacts ≠ [] := by
  unfold HasExtension
  rw [emit_artifacts]
  constructor
  · rintro ⟨a, ha, rfl⟩
    obtain ⟨k', -, ha⟩ := List.mem_flatMap.mp ha
    have hpart : a ∈ (ownerPart renderer suffix targets k').artifacts := ha
    rw [← ownerKey_of_mem_ownerPart hpart] at hpart
    exact List.ne_nil_of_mem hpart
  · intro hne
    obtain ⟨a, ha⟩ := List.exists_mem_of_ne_nil _ hne
    exact ⟨a, List.mem_flatMap.mpr ⟨k, hk, ha⟩, ownerKey_of_mem_ownerPart ha⟩

end

/-! ## 3. When an owner is lost -/

section Standard

variable (suffix : String) {targets : List Target} {space owner : String}

/-- **An owner of which no two targets ask for the same** has an extension. -/
theorem hasExtension_of_not_asksTwice (hk : ∃ t ∈ targets, t.key = ⟨space, some owner⟩)
    (h : ¬ AsksTwice targets ⟨space, some owner⟩) :
    HasExtension (emit .standard suffix targets) ⟨space, some owner⟩ := by
  have hmem := mem_ownerKeys.mpr hk
  have hdifferent := not_not.mp (mt asksTwice_iff.mpr h)
  have houtcome := emitGroup_outcome .standard suffix ⟨space, some owner⟩ (targetsOf_ne_nil hmem)
  obtain ⟨-, hone⟩ := houtcome.extended owner rfl
    ((nodup_memberNames_standard owner _).mpr hdifferent)
  rw [hasExtension_emit_iff hmem, ownerPart, hone]
  exact List.cons_ne_nil _ _

/-- **An owner of which two targets ask for the same** is lost, and errors say why. -/
theorem lostToDuplicates_of_asksTwice (h : AsksTwice targets ⟨space, some owner⟩) :
    LostToDuplicates targets (emit .standard suffix targets) space owner := by
  have hasked : ∃ t ∈ targets, t.key = ⟨space, some owner⟩ := by
    obtain ⟨i, -, t, -, -, hi, -, hk, -⟩ := h
    exact ⟨t, List.mem_of_getElem? hi, hk⟩
  have hmem := mem_ownerKeys.mpr hasked
  have hrepeated := mt (nodup_memberNames_standard owner _).mp (asksTwice_iff.mp h)
  have houtcome := emitGroup_outcome .standard suffix ⟨space, some owner⟩ (targetsOf_ne_nil hmem)
  obtain ⟨hnone, -, hreports⟩ := houtcome.clashing owner rfl hrepeated
  refine ⟨hasked, fun hextension => ?_, ?_⟩
  · exact (hasExtension_emit_iff hmem).mp hextension hnone
  · have hsome : (ownerPart .standard suffix targets ⟨space, some owner⟩).diagnostics ≠ [] := by
      rcases houtcome.artifact_or_reports with ⟨a, hone, -⟩ | ⟨-, hsome⟩
      · rw [hnone] at hone
        cases hone
      · exact hsome
    obtain ⟨d, rest, hd⟩ := List.exists_cons_of_ne_nil hsome
    have hshare : d ∈ (ownerPart .standard suffix targets ⟨space, some owner⟩).diagnostics :=
      hd ▸ List.mem_cons_self
    rw [ownerPart] at hd
    rw [hd] at hreports
    obtain ⟨i, is, ⟨hcause, hseverity, howner, -⟩, -, -⟩ := List.forall₂_cons_right_iff.mp hreports
    refine ⟨d, ?_, hcause, hseverity, howner⟩
    rw [emit_diagnostics]
    exact List.mem_flatMap.mpr ⟨_, hmem, hshare⟩

end Standard

/-- **An owner is lost exactly if two of its targets ask for the same.** The methods of an owner have
    one name only if they stand for one augmentation, whatever the members are called. So of every
    list of targets a named owner is lost to members defined twice exactly if two of its targets have
    equal augmentations, and it has an extension exactly if it has targets and no two of them do. -/
theorem lost_to_duplicates_iff :
    (∀ owner a b, (Renderer.standard.snippet owner a).ident =
      (Renderer.standard.snippet owner b).ident ↔ a = b) ∧
    ∀ suffix targets space owner,
      (LostToDuplicates targets (emit .standard suffix targets) space owner ↔
        AsksTwice targets ⟨space, some owner⟩) ∧
      (HasExtension (emit .standard suffix targets) ⟨space, some owner⟩ ↔
        (∃ t ∈ targets, t.key = ⟨space, some owner⟩) ∧ ¬ AsksTwice targets ⟨space, some owner⟩) := by
  refine ⟨fun owner a b => Renderer.ident_snippet_inj owner, fun suffix targets space owner => ?_⟩
  have hlost : AsksTwice targets ⟨space, some owner⟩ →
      LostToDuplicates targets (emit .standard suffix targets) space owner :=
    lostToDuplicates_of_asksTwice suffix
  refine ⟨⟨fun h => ?_, hlost⟩, fun hextension => ⟨?_, fun htwice => ?_⟩, fun h => ?_⟩
  · by_contra hnone
    exact h.lost (hasExtension_of_not_asksTwice suffix h.asked hnone)
  · obtain ⟨a, ha, e⟩ := hextension
    rw [← e]
    exact ownerKey_of_mem_emit ha
  · exact (hlost htwice).lost hextension
  · exact hasExtension_of_not_asksTwice suffix h.1 h.2

end LogMarkers
