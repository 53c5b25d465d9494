import LogMarkers.Proofs.Emission.ArtifactNames
import LogMarkers.Proofs.Run.Prefilter

/-!
# A run that is given up

A run asks at every node, after resolution and after emission whether it is given up. A node at which
the answer is yes is passed over without a word, so what has been resolved by then is only a part.
That part never leaves the run, as long as an answer stays yes once it was yes: the questions after
the stages catch it.

* `resolveAll_eq_filter`: what giving up does inside resolution;
* `OnceGivenUp`: answers that are no up to some moment and yes from then on, the nodes being asked in
  any order;
* `runCancellable_eq_ite`: the last answer decides between a cancelled and a complete run;
* `runCancellable_eq_cancelled_or_run`: the run is cancelled or complete, and cancelled exactly if
  some answer was yes;
* `Trip.onceGivenUp_polls`, `Trip.runCancellable_polls`: the moments of giving up lead to such
  answers, and the run is cancelled exactly if the moment comes;
* `artifacts_of_runCancellable_atSnippet`: giving up at the first snippet leaves no artifact.
-/

namespace LogMarkers

/-! ## 1. Questions and answers -/

/-- The questions of a run in the order they are asked, if the nodes are asked in this order. -/
def Tree.questions (t : Tree) (order : List NodeId) : List Nat := order ++ [t.size, t.size + 1]

/-- Whether no answer is no after an answer was yes. -/
def OnceGivenUp (questions : List Nat) (given : Generator.Polls) : Prop :=
  questions.Pairwise fun i j => given i = true → given j = true

instance (questions : List Nat) (given : Generator.Polls) :
    Decidable (OnceGivenUp questions given) :=
  inferInstanceAs (Decidable (questions.Pairwise _))

/-- Where the last answer is no, every answer was. -/
theorem OnceGivenUp.eq_false_of_last {t : Tree} {order : List NodeId} {given : Generator.Polls}
    (h : OnceGivenUp (t.questions order) given) (hlast : given (t.size + 1) = false) :
    ∀ i ∈ t.questions order, given i = false := by
  unfold OnceGivenUp Tree.questions at h
  obtain ⟨-, hstages, hnodes⟩ := List.pairwise_append.mp h
  have hsize : given t.size = false := by
    have hpair := (List.pairwise_cons.mp hstages).1 (t.size + 1) (by simp)
    rw [hlast] at hpair
    exact Bool.eq_false_iff.mpr fun e => Bool.false_ne_true (hpair e)
  intro i hi
  rcases List.mem_append.mp hi with hi | hi
  · have hpair := hnodes i hi t.size (by simp)
    rw [hsize] at hpair
    exact Bool.eq_false_iff.mpr fun e => Bool.false_ne_true (hpair e)
  · simp only [List.mem_cons, List.not_mem_nil, or_false] at hi
    rcases hi with rfl | rfl
    · exact hsize
    · exact hlast

/-! ## 2. Runs that are given up -/

namespace Generator

variable (g : Generator) (t : Tree) (model : SemanticModel)

/-- **Giving up passes over nodes**: the resolutions are those of the nodes at which the answer is
    no. -/
theorem resolveAll_eq_filter (given : Polls) (ids : List NodeId) :
    g.resolveAll t model given ids =
      g.resolveAll t model (fun _ => false) (ids.filter fun i => !given i) := by
  induction ids with
  | nil => rfl
  | cons i rest ih =>
    rw [resolveAll, List.filter_cons]
    cases hi : given i with
    | true => simpa using ih
    | false =>
      simp only [Bool.not_false, Bool.false_eq_true, ↓reduceIte]
      rw [resolveAll, ih]
      simp only [Bool.false_eq_true, ↓reduceIte]

/-- Where every answer at a node is no, resolution is complete. -/
theorem resolveAll_of_all_false {given : Polls} {ids : List NodeId}
    (h : ∀ i ∈ ids, given i = false) :
    g.resolveAll t model given ids = g.resolveAll t model (fun _ => false) ids := by
  have hids : (ids.filter fun i => !given i) = ids :=
    List.filter_eq_self.mpr fun i hi => by rw [h i hi]; rfl
  rw [resolveAll_eq_filter, hids]

theorem execute_eq_none_of_last {given : Polls} (hlast : given (t.size + 1) = true) :
    g.execute t model given = none := by
  unfold execute
  rw [hlast]
  simp

theorem execute_eq_run {given : Polls} (hnodes : ∀ i ∈ t.ids, given i = false)
    (hsize : given t.size = false) (hlast : given (t.size + 1) = false) :
    g.execute t model given = some (g.run t model) := by
  unfold execute run
  rw [resolveAll_of_all_false g t model hnodes, hsize, hlast]
  rfl

/-- The last answer decides. -/
theorem runCancellable_eq_ite {order : List NodeId} (horder : order.Perm t.ids) {given : Polls}
    (h : OnceGivenUp (t.questions order) given) :
    g.runCancellable t model given =
      if given (t.size + 1) then .error .cancelled else .ok (g.run t model) := by
  unfold runCancellable
  cases hlast : given (t.size + 1) with
  | true =>
    rw [execute_eq_none_of_last g t model hlast]
    rfl
  | false =>
    have hall := h.eq_false_of_last hlast
    have hnodes : ∀ i ∈ t.ids, given i = false := fun i hi =>
      hall i (List.mem_append_left _ (horder.mem_iff.mpr hi))
    rw [execute_eq_run g t model hnodes (hall _ (by simp [Tree.questions])) hlast]
    rfl

/-- **A run that can be given up is cancelled or complete**, and it is cancelled exactly if one of
    its questions is answered yes. The nodes are asked in any order. -/
theorem runCancellable_eq_cancelled_or_run {order : List NodeId} (horder : order.Perm t.ids)
    {given : Polls} (h : OnceGivenUp (t.questions order) given) :
    (g.runCancellable t model given = .error .cancelled ∨
        g.runCancellable t model given = .ok (g.run t model)) ∧
      (g.runCancellable t model given = .error .cancelled ↔
        ∃ i ∈ t.questions order, given i = true) := by
  have hmem : t.size + 1 ∈ t.questions order := by simp [Tree.questions]
  rw [g.runCancellable_eq_ite t model horder h]
  cases hlast : given (t.size + 1) with
  | true => exact ⟨.inl rfl, iff_of_true rfl ⟨_, hmem, hlast⟩⟩
  | false =>
    refine ⟨.inr rfl, iff_of_false nofun ?_⟩
    rintro ⟨i, hi, hyes⟩
    rw [h.eq_false_of_last hlast i hi] at hyes
    cases hyes

/-- The run on `markedFile` whose nodes are asked from the last one on, and which is given up when
    the file itself is asked, is cancelled, although the struct was resolved before. -/
theorem runCancellable_markedFile :
    let given : Polls := fun i => decide (i = 0) || decide (markedFile.size ≤ i)
    (standard.resolveAll markedFile markedModel given markedFile.ids).length = 1 ∧
      standard.runCancellable markedFile markedModel given = .error .cancelled := by
  intro given
  have horder : [2, 1, 0].Perm markedFile.ids := by decide
  have honce : OnceGivenUp (markedFile.questions [2, 1, 0]) given := by decide
  have hcancelled :=
    standard.runCancellable_eq_cancelled_or_run markedFile markedModel horder honce
  exact ⟨by decide, hcancelled.2.mpr ⟨0, by decide, by decide⟩⟩

end Generator

/-! ## 3. Moments at which a run is given up -/

theorem Tree.questions_ids (t : Tree) : t.questions t.ids = List.range (t.size + 2) := by
  rw [List.range_succ, List.range_succ, List.append_assoc]
  rfl

/-- How often the model is asked for an attribute by one node. -/
def askedBy (t : Tree) (i : NodeId) : Nat :=
  match t.node? i with
  | some n => if Tree.isCandidate n then n.attributes.length else 0
  | none => 0

theorem attributesAsked_succ (t : Tree) (i : NodeId) :
    attributesAsked t (i + 1) = attributesAsked t i + askedBy t i := by
  unfold attributesAsked askedBy
  rw [List.range_succ, List.foldl_append, List.foldl_cons, List.foldl_nil]
  cases t.node? i with
  | none => rfl
  | some n =>
    dsimp only
    split <;> rfl

theorem attributesAsked_mono (t : Tree) : Monotone (attributesAsked t) := by
  refine monotone_nat_of_le_succ fun i => ?_
  rw [attributesAsked_succ]
  exact Nat.le_add_right _ _

namespace Trip

variable (g : Generator) (t : Tree) (model : SemanticModel)

/-- Whether the moment comes in a run on the tree. -/
def comes : Trip → Bool
  | .never => false
  | .beforehand => true
  | .atAttribute n => decide (0 < n) && decide (n ≤ attributesAsked t t.size)
  | .atSnippet => rendersSnippet g t model

/-- An answer that was yes stays yes. -/
theorem polls_mono (trip : Trip) {i j : Nat} (hij : i ≤ j)
    (hi : trip.polls g t model i = true) : trip.polls g t model j = true := by
  cases trip with
  | never => exact hi
  | beforehand => rfl
  | atAttribute n =>
    simp only [polls, Bool.and_eq_true, decide_eq_true_eq] at hi ⊢
    exact ⟨hi.1, hi.2.trans (attributesAsked_mono t hij)⟩
  | atSnippet =>
    simp only [polls, Bool.and_eq_true, decide_eq_true_eq] at hi ⊢
    exact ⟨Nat.lt_of_lt_of_le hi.1 hij, hi.2⟩

/-- **A run that is given up at a moment stays given up.** -/
theorem onceGivenUp_polls (trip : Trip) :
    OnceGivenUp (t.questions t.ids) (trip.polls g t model) := by
  unfold OnceGivenUp
  rw [Tree.questions_ids]
  exact List.pairwise_lt_range.imp fun hij => trip.polls_mono g t model (Nat.le_of_lt hij)

/-- The last answer says whether the moment came. -/
theorem polls_last (trip : Trip) : trip.polls g t model (t.size + 1) = trip.comes g t model := by
  cases trip with
  | never | beforehand => rfl
  | atAttribute n =>
    have hnone : askedBy t t.size = 0 := by simp [askedBy, Tree.node?, Tree.size]
    simp [polls, comes, attributesAsked_succ, hnone]
  | atSnippet => simp [polls, comes]

/-- **A run that is given up at a moment** is cancelled if the moment comes, and complete
    otherwise. -/
theorem runCancellable_polls (trip : Trip) :
    g.runCancellable t model (trip.polls g t model) =
      if trip.comes g t model then .error .cancelled else .ok (g.run t model) := by
  rw [g.runCancellable_eq_ite t model (.refl _) (trip.onceGivenUp_polls g t model), polls_last]

/-- A run that has an artifact renders a snippet. -/
theorem rendersSnippet_of_mem_artifacts {a : Artifact} (ha : a ∈ (g.run t model).artifacts) :
    rendersSnippet g t model = true := by
  change a ∈ (emit g.renderer g.settings.artifactSuffix (collect _)).artifacts at ha
  rw [emit_artifacts] at ha
  obtain ⟨k, hk, ha⟩ := List.mem_flatMap.mp ha
  obtain ⟨owner, text, howner, -⟩ := exists_owner_of_mem_emitGroup ha
  obtain ⟨target, htarget, rfl⟩ := mem_ownerKeys.mp hk
  exact List.any_eq_true.mpr ⟨target, htarget, Option.isSome_iff_exists.mpr ⟨owner, howner⟩⟩

/-- **A run that is given up at the first snippet** has no artifact, should it complete. -/
theorem artifacts_of_runCancellable_atSnippet {output : Output}
    (h : g.runCancellable t model (atSnippet.polls g t model) = .ok output) :
    output.artifacts = [] := by
  rw [runCancellable_polls] at h
  split at h
  · cases h
  · rename_i hcomes
    cases h
    exact List.eq_nil_iff_forall_not_mem.mpr fun a ha =>
      hcomes (rendersSnippet_of_mem_artifacts g t model ha)

end Trip

end LogMarkers
