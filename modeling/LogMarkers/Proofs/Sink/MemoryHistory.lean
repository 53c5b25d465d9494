import LogMarkers.Proofs.Sink.MemoryRun

/-!
# A memory sink and the calls that led to it

A memory sink holds its artifacts in a table, their names in a list, and the names of the current
run in another one. What the three hold can be read off the calls that were made since the sink was
new, in any order and of any number.

* `StoredWithin n`: a name was stored, and at most `n` runs were finished since;
* `Latest`: an artifact was stored, and none of its name since;
* `EnteredAt`: a call stored a name that was not there, and it is there ever since;
* `HasHistory`: what the calls say about the sink. `hasHistory_after` shows it by induction on the
  calls, the last one first, and `memory_after_calls` adds what storing answers.
-/

namespace LogMarkers

namespace MemorySink

/-! ## 1. Calls -/

/-- A call on a memory sink. -/
inductive Call where
  | persist (a : Artifact)
  | finish
  deriving DecidableEq

/-- The sink after a call. -/
def Call.apply (s : MemorySink) : Call → MemorySink
  | persist a => (Sink.persist s a).2
  | finish => (Sink.finish s).2

/-- The sink after calls on a new one. -/
def after (calls : List Call) : MemorySink := calls.foldl Call.apply {}

variable {calls : List Call} {id : String} {a : Artifact} {n : Nat}

theorem after_concat (calls : List Call) (c : Call) :
    after (calls ++ [c]) = c.apply (after calls) := by
  rw [after, List.foldl_append]
  rfl

/-- The name was stored, and at most so many runs were finished since. -/
def StoredWithin (n : Nat) (calls : List Call) (id : String) : Prop :=
  ∃ before a later, calls = before ++ Call.persist a :: later ∧ a.id = id ∧
    later.count Call.finish ≤ n

/-- The artifact was stored, and none of its name since. -/
def Latest (calls : List Call) (a : Artifact) : Prop :=
  ∃ before later, calls = before ++ Call.persist a :: later ∧
    ∀ b, Call.persist b ∈ later → b.id ≠ a.id

/-- The call at this position stored a name that was not there, and it is there ever since: this is
    the first time the name was stored since it was last absent. -/
structure EnteredAt (calls : List Call) (id : String) (i : Nat) : Prop where
  stored : ∃ a, calls[i]? = some (Call.persist a) ∧ a.id = id
  absent : (after (calls.take i)).get? id = none
  present : ∀ j, i < j → ((after (calls.take j)).get? id).isSome = true

/-- One name entered before another one. -/
def EnteredBefore (calls : List Call) (id id' : String) : Prop :=
  ∃ i i', EnteredAt calls id i ∧ EnteredAt calls id' i' ∧ i < i'

/-! ## 2. One more call -/

/-- A call in a list with one more call: it is the last one, or it was there before. -/
theorem concat_eq_append_cons_iff {before later : List Call} {c d : Call} :
    calls ++ [c] = before ++ d :: later ↔
      (calls = before ∧ c = d ∧ later = []) ∨
        ∃ rest, later = rest ++ [c] ∧ calls = before ++ d :: rest := by
  constructor
  · intro h
    rcases List.eq_nil_or_concat later with rfl | ⟨rest, e, rfl⟩
    · obtain ⟨rfl, hlast⟩ := List.append_inj' h rfl
      exact .inl ⟨rfl, List.singleton_inj.mp hlast, rfl⟩
    · rw [List.concat_eq_append, ← List.cons_append, ← List.append_assoc] at h
      obtain ⟨rfl, hlast⟩ := List.append_inj' h rfl
      exact .inr ⟨rest, by rw [List.singleton_inj.mp hlast, List.concat_eq_append], rfl⟩
  · rintro (⟨rfl, rfl, rfl⟩ | ⟨rest, rfl, rfl⟩) <;> simp

theorem StoredWithin.mono {m : Nat} (h : StoredWithin n calls id) (hle : n ≤ m) :
    StoredWithin m calls id := by
  obtain ⟨before, a, later, hcalls, hid, hcount⟩ := h
  exact ⟨before, a, later, hcalls, hid, Nat.le_trans hcount hle⟩

theorem storedWithin_nil : ¬ StoredWithin n [] id := by
  rintro ⟨before, a, later, h, -⟩
  simp at h

theorem storedWithin_concat_persist :
    StoredWithin n (calls ++ [Call.persist a]) id ↔ id = a.id ∨ StoredWithin n calls id := by
  constructor
  · rintro ⟨before, b, later, h, rfl, hcount⟩
    rcases concat_eq_append_cons_iff.mp h with ⟨-, hb, -⟩ | ⟨rest, rfl, hrest⟩
    · cases hb
      exact .inl rfl
    · exact .inr ⟨before, b, rest, hrest, rfl, by simpa using hcount⟩
  · rintro (rfl | ⟨before, b, later, rfl, rfl, hcount⟩)
    · exact ⟨calls, a, [], rfl, rfl, Nat.zero_le _⟩
    · exact ⟨before, b, later ++ [Call.persist a], by simp, rfl, by simpa using hcount⟩

theorem storedWithin_concat_finish :
    StoredWithin (n + 1) (calls ++ [Call.finish]) id ↔ StoredWithin n calls id := by
  constructor
  · rintro ⟨before, b, later, h, rfl, hcount⟩
    rcases concat_eq_append_cons_iff.mp h with ⟨-, hb, -⟩ | ⟨rest, rfl, hrest⟩
    · cases hb
    · exact ⟨before, b, rest, hrest, rfl, by simpa using hcount⟩
  · rintro ⟨before, b, later, rfl, rfl, hcount⟩
    exact ⟨before, b, later ++ [Call.finish], by simp, rfl, by simpa using hcount⟩

/-- When a run has just been finished, nothing was stored since. -/
theorem not_storedWithin_concat_finish : ¬ StoredWithin 0 (calls ++ [Call.finish]) id := by
  rintro ⟨before, b, later, h, rfl, hcount⟩
  rcases concat_eq_append_cons_iff.mp h with ⟨-, hb, -⟩ | ⟨rest, rfl, -⟩
  · cases hb
  · simp at hcount

theorem latest_concat_persist (calls : List Call) (a : Artifact) :
    Latest (calls ++ [Call.persist a]) a :=
  ⟨calls, [], rfl, fun _ h => by cases h⟩

/-- An artifact stays the latest of its name if the next call stores none of this name. -/
theorem Latest.concat (h : Latest calls a) {c : Call}
    (hc : ∀ b, c = Call.persist b → b.id ≠ a.id) : Latest (calls ++ [c]) a := by
  obtain ⟨before, later, rfl, hlater⟩ := h
  refine ⟨before, later ++ [c], by simp, fun b hb => ?_⟩
  rcases List.mem_append.mp hb with hb | hb
  · exact hlater b hb
  · exact hc b (List.mem_singleton.mp hb).symm

theorem EnteredAt.lt {i : Nat} (h : EnteredAt calls id i) : i < calls.length := by
  obtain ⟨a, ha, -⟩ := h.stored
  exact (List.getElem?_eq_some_iff.mp ha).1

/-- A name that is still there entered where it did. -/
theorem EnteredAt.concat {i : Nat} (h : EnteredAt calls id i) {c : Call}
    (hc : ((after (calls ++ [c])).get? id).isSome = true) : EnteredAt (calls ++ [c]) id i where
  stored := by
    obtain ⟨a, ha, hid⟩ := h.stored
    exact ⟨a, by rw [List.getElem?_append_left h.lt, ha], hid⟩
  absent := by
    rw [List.take_append_of_le_length (Nat.le_of_lt h.lt)]
    exact h.absent
  present j hj := by
    rcases Nat.lt_or_ge calls.length j with hlt | hle
    · rw [List.take_of_length_le (by rw [List.length_append]; exact hlt)]
      exact hc
    · rw [List.take_append_of_le_length hle]
      exact h.present j hj

/-- A name that was not there enters with the call that stores it. -/
theorem enteredAt_concat (h : (after calls).get? a.id = none) :
    EnteredAt (calls ++ [Call.persist a]) a.id calls.length where
  stored := ⟨a, by simp, rfl⟩
  absent := by
    rw [List.take_append_of_le_length (Nat.le_refl _), List.take_length]
    exact h
  present j hj := by
    rw [List.take_of_length_le (by rw [List.length_append]; exact hj), after_concat]
    show (((after calls).put a).get? a.id).isSome = true
    simp

/-! ## 3. The sink and its calls -/

/-- What the calls that led to a sink say about it. -/
structure HasHistory (s : MemorySink) (calls : List Call) : Prop extends Consistent s where
  /-- What is there was stored with at most one run finished since. -/
  kept : ∀ id, s.artifacts.contains id = true ↔ StoredWithin 1 calls id
  /-- The names of the current run were stored since the last one was finished. -/
  running : ∀ id, id ∈ s.current ↔ StoredWithin 0 calls id
  /-- The names are listed in the order in which they entered. -/
  entered : ∀ id ∈ s.order, ∃ i, EnteredAt calls id i
  ordered : s.order.Pairwise (EnteredBefore calls)
  /-- The artifact of a name is the one that was stored last under it. -/
  latest : ∀ id a, s.get? id = some a → a.id = id ∧ Latest calls a

theorem get?_eq_none_of_not_contains {s : MemorySink} (h : ¬ s.artifacts.contains id = true) :
    s.get? id = none := by
  simpa [get?, Table.contains] using h

@[simp] theorem get?_finished (s : MemorySink) (id : String) :
    s.finished.get? id = if s.current.contains id then s.get? id else none :=
  Table.get?_filterKeys ..

/-- Names that are still there are listed in the order in which they entered. -/
theorem pairwise_enteredBefore_concat {names : List String} {c : Call}
    (h : names.Pairwise (EnteredBefore calls))
    (hc : ∀ id ∈ names, ((after (calls ++ [c])).get? id).isSome = true) :
    names.Pairwise (EnteredBefore (calls ++ [c])) := by
  refine h.imp_of_mem fun {id id'} hid hid' hbefore => ?_
  obtain ⟨i, i', hi, hi', hlt⟩ := hbefore
  exact ⟨i, i', hi.concat (hc id hid), hi'.concat (hc id' hid'), hlt⟩

namespace HasHistory

theorem persist (h : (after calls).HasHistory calls) (a : Artifact) :
    (after (calls ++ [Call.persist a])).HasHistory (calls ++ [Call.persist a]) := by
  have hafter : after (calls ++ [Call.persist a]) = (after calls).put a := after_concat calls _
  have hstill : ∀ id ∈ (after calls).order,
      ((after (calls ++ [Call.persist a])).get? id).isSome = true := by
    intro id hid
    rw [hafter]
    exact (contains_put _ a id).mpr (.inr ((h.listed id).mp hid))
  have hordered := pairwise_enteredBefore_concat h.ordered hstill
  have hentered : ∀ id ∈ (after calls).order, ∃ i, EnteredAt (calls ++ [Call.persist a]) id i := by
    intro id hid
    obtain ⟨i, hi⟩ := h.entered id hid
    exact ⟨i, hi.concat (hstill id hid)⟩
  have horder : (after (calls ++ [Call.persist a])).order =
      if (after calls).artifacts.contains a.id then (after calls).order
      else (after calls).order ++ [a.id] := by rw [hafter]; rfl
  refine ⟨hafter ▸ h.toConsistent.put a, fun id => ?_, fun id => ?_, ?_, ?_, fun id b hb => ?_⟩
  · rw [hafter, contains_put, h.kept, storedWithin_concat_persist]
  · rw [hafter, storedWithin_concat_persist, ← h.running]
    exact List.mem_cons
  · rw [horder]
    split
    · exact hentered
    · rename_i hnew
      intro id hid
      rcases List.mem_append.mp hid with hid | hid
      · exact hentered id hid
      · rw [List.mem_singleton.mp hid]
        exact ⟨_, enteredAt_concat (get?_eq_none_of_not_contains hnew)⟩
  · rw [horder]
    split
    · exact hordered
    · rename_i hnew
      -- whatever is there entered before this call
      refine List.pairwise_append.mpr ⟨hordered, List.pairwise_singleton _ _, ?_⟩
      intro id hid id' hid'
      obtain ⟨i, hi⟩ := h.entered id hid
      rw [List.mem_singleton.mp hid']
      exact ⟨i, _, hi.concat (hstill id hid),
        enteredAt_concat (get?_eq_none_of_not_contains hnew), hi.lt⟩
  · rw [hafter, get?_put] at hb
    split at hb
    · rename_i hid
      cases hb
      exact ⟨hid.symm, latest_concat_persist calls a⟩
    · rename_i hid
      obtain ⟨rfl, hlatest⟩ := h.latest id b hb
      refine ⟨rfl, hlatest.concat fun b' hb' => ?_⟩
      cases hb'
      exact Ne.symm hid

theorem finish (h : (after calls).HasHistory calls) :
    (after (calls ++ [Call.finish])).HasHistory (calls ++ [Call.finish]) := by
  have hafter : after (calls ++ [Call.finish]) = (after calls).finished := after_concat calls _
  have hkept : ∀ id, ((after calls).finished.get? id).isSome = true ↔ StoredWithin 0 calls id := by
    intro id
    rw [get?_finished, ← h.running, ← List.contains_iff_mem]
    split
    · rename_i hrunning
      refine iff_of_true ((h.kept id).mpr ?_) hrunning
      exact ((h.running id).mp (List.contains_iff_mem.mp hrunning)).mono (Nat.zero_le 1)
    · rename_i hrunning
      exact iff_of_false (by simp) hrunning
  have horder : (after (calls ++ [Call.finish])).order =
      (after calls).order.filter ((after calls).current.contains ·) := by rw [hafter]; rfl
  have hstill : ∀ id ∈ (after calls).order.filter ((after calls).current.contains ·),
      ((after (calls ++ [Call.finish])).get? id).isSome = true := by
    intro id hid
    rw [hafter, hkept, ← h.running]
    exact List.contains_iff_mem.mp (List.mem_filter.mp hid).2
  refine ⟨hafter ▸ h.toConsistent.finished, fun id => ?_, fun id => ?_, ?_, ?_, fun id b hb => ?_⟩
  · rw [storedWithin_concat_finish, ← hkept, hafter]
    rfl
  · rw [hafter]
    exact iff_of_false List.not_mem_nil not_storedWithin_concat_finish
  · rw [horder]
    intro id hid
    obtain ⟨i, hi⟩ := h.entered id (List.mem_filter.mp hid).1
    exact ⟨i, hi.concat (hstill id hid)⟩
  · rw [horder]
    exact pairwise_enteredBefore_concat (h.ordered.filter _) hstill
  · rw [hafter, get?_finished] at hb
    split at hb
    · obtain ⟨rfl, hlatest⟩ := h.latest id b hb
      exact ⟨rfl, hlatest.concat nofun⟩
    · cases hb

end HasHistory

/-- **What the calls on a new sink say about it**, whatever they are. -/
theorem hasHistory_after (calls : List Call) : (after calls).HasHistory calls := by
  induction calls using List.reverseRecOn with
  | nil =>
    exact ⟨atRest_empty.toConsistent, fun id => iff_of_false (by simp [after, Table.contains])
      storedWithin_nil, fun id => iff_of_false List.not_mem_nil storedWithin_nil, nofun, .nil,
      fun id a ha => by cases ha⟩
  | append_singleton calls c ih =>
    cases c with
    | persist a => exact ih.persist a
    | finish => exact ih.finish

/-! ## 4. What storing answers -/

/-- Of the artifacts that are stored, those with one name and different texts have different
    fingerprints. -/
def TextsApart (calls : List Call) : Prop :=
  ∀ a b, Call.persist a ∈ calls → Call.persist b ∈ calls → a.id = b.id →
    a.fingerprint = b.fingerprint → a.text = b.text

/-- The fingerprint covers the name and the text, and nothing else. -/
theorem fingerprint_congr {a b : Artifact} (hid : a.id = b.id) (htext : a.text = b.text) :
    a.fingerprint = b.fingerprint := by
  rw [Artifact.fingerprint, hid, htext]
  rfl

/-- **An artifact counts as unchanged exactly if one with its name and its text is there.** -/
theorem outcome_after {later : List Call} (h : TextsApart (calls ++ Call.persist a :: later)) :
    (after calls).outcome a =
      if ((after calls).get? a.id).map (·.text) = some a.text then .unchanged else .written := by
  unfold outcome holds
  cases hget : (after calls).get? a.id with
  | none => simp
  | some b =>
    obtain ⟨hid, before, rest, rfl, -⟩ := (hasHistory_after calls).latest _ b hget
    have hiff : b.fingerprint = a.fingerprint ↔ b.text = a.text :=
      ⟨h b a (by simp) (by simp) hid, fingerprint_congr hid⟩
    simp [hiff]

end MemorySink

open MemorySink in
/-- **A memory sink after any calls.** The names are listed once each, those that have artifacts and
    no others, in the order in which they entered since they were last absent; the artifact of a name
    is the one that was stored last under it. When a run has been finished, the names are those that
    were stored since the one before it was. And storing an artifact succeeds, and counts as
    unchanged exactly if an artifact of this name and this text is there, provided that different
    texts of a name have different fingerprints. -/
theorem memory_after_calls (calls : List Call) :
    (after calls).HasHistory calls ∧
      (∀ id, (after (calls ++ [Call.finish])).artifacts.contains id = true ↔
        StoredWithin 0 calls id) ∧
      (TextsApart calls → ∀ before a later, calls = before ++ Call.persist a :: later →
        (Sink.persist (after before) a).1 =
          .ok (if ((after before).get? a.id).map (·.text) = some a.text then .unchanged
            else .written)) := by
  refine ⟨hasHistory_after calls, fun id => ?_, ?_⟩
  · rw [(hasHistory_after _).kept, storedWithin_concat_finish]
  · rintro hapart before a later rfl
    exact congrArg Except.ok (outcome_after hapart)

/-- A generated file with this name and this text. -/
def namedText (id text : String) : Artifact := ⟨id, .extension, "", id, text⟩

open MemorySink in
/-- What each of three runs stores. Of two artifacts one is stored again with another text in the
    second run, and the other one only in the third. -/
def threeRuns : List Call :=
  [Call.persist (namedText "Widget" "old"), Call.persist (namedText "Button" "same"), Call.finish,
    Call.persist (namedText "Gadget" "same"), Call.persist (namedText "Widget" "new"), Call.finish,
    Call.persist (namedText "Button" "same")]

open MemorySink in
/-- What stays keeps its place, and what was away comes behind it. -/
theorem memory_after_threeRuns :
    TextsApart threeRuns ∧ (after threeRuns).HasHistory threeRuns ∧
      (after threeRuns).order = ["Widget", "Gadget", "Button"] ∧
      (after threeRuns).get? "Widget" = some (namedText "Widget" "new") ∧
      (Sink.persist (after (threeRuns.take 4)) (namedText "Widget" "new")).1 = .ok .written ∧
      (Sink.persist (after (threeRuns.take 6)) (namedText "Button" "same")).1 = .ok .written := by
  let stored := [namedText "Widget" "old", namedText "Button" "same", namedText "Gadget" "same",
    namedText "Widget" "new"]
  have hmem : ∀ a, Call.persist a ∈ threeRuns → a ∈ stored := by
    intro a ha
    simp only [threeRuns, List.mem_cons, Call.persist.injEq, reduceCtorEq, false_or] at ha
    simp only [stored, List.mem_cons]
    tauto
  have hwidget : (namedText "Widget" "old").fingerprint ≠
      (namedText "Widget" "new").fingerprint := by decide +kernel
  have hpairs : ∀ a ∈ stored, ∀ b ∈ stored, a.id = b.id → a.text = b.text ∨
      (a = namedText "Widget" "old" ∧ b = namedText "Widget" "new") ∨
      (a = namedText "Widget" "new" ∧ b = namedText "Widget" "old") := by decide
  have hapart : TextsApart threeRuns := by
    intro a b ha hb hid hsame
    rcases hpairs a (hmem a ha) b (hmem b hb) hid with htext | ⟨rfl, rfl⟩ | ⟨rfl, rfl⟩
    · exact htext
    · exact absurd hsame hwidget
    · exact absurd hsame.symm hwidget
  obtain ⟨hhistory, -, houtcome⟩ := memory_after_calls threeRuns
  refine ⟨hapart, hhistory, by decide, by decide, ?_, ?_⟩
  · exact (houtcome hapart (threeRuns.take 4) _ _ rfl).trans (by decide)
  · exact (houtcome hapart (threeRuns.take 6) _ _ rfl).trans (by decide)

end LogMarkers
