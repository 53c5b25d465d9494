import LogMarkers.Proofs.Emission.Owners
import LogMarkers.Proofs.Text.PathNames

/-!
# An artifact's file name says whose it is

The file name of an extension is made of the module names and the name of the owner with dots
between them, and a suffix. It can be taken apart again if no name has a dot of its own.

* `toList_artifactId`: the file name as the names with dots between them, then the suffix;
* `namesBefore` reads the names off a file name, `namesBefore_artifactId` and
  `artifactId_of_namesBefore` say that it undoes `artifactId`;
* `distinct_owners_have_distinct_ids`: different owners have different file names, and all
  artifacts of one emission have.

A dot in a name is what breaks it: the owner `b.c` of the module `a` and the owner `c` of the module
`a::b` would share a file.
-/

namespace LogMarkers

/-! ## 1. Dots for separators -/

namespace PathText

theorem dotChars_cons {c : Char} (hc : c ≠ ':') (rest : List Char) :
    dotChars (c :: rest) = c :: dotChars rest := by
  rw [dotChars]
  intro tail hcolon
  exact absurd hcolon hc

/-- A text without a colon has no separators to replace. -/
theorem dotChars_of_notMem {cs : List Char} (h : ':' ∉ cs) : dotChars cs = cs := by
  induction cs with
  | nil => rfl
  | cons c rest ih =>
    rw [List.mem_cons, not_or] at h
    rw [dotChars_cons (Ne.symm h.1), ih h.2]

/-- The first separator becomes the first dot. -/
theorem dotChars_append {cs : List Char} (h : ':' ∉ cs) (rest : List Char) :
    dotChars (cs ++ ':' :: ':' :: rest) = cs ++ '.' :: dotChars rest := by
  induction cs with
  | nil => rfl
  | cons c tail ih =>
    rw [List.mem_cons, not_or] at h
    rw [List.cons_append, dotChars_cons (Ne.symm h.1), ih h.2, List.cons_append]

/-- **Joined names become names with dots between them.** -/
theorem toList_dotted_join {names : List String} (h : ∀ n ∈ names, IsName n) :
    (dotted (join names)).toList = ['.'].intercalate (names.map String.toList) := by
  unfold dotted
  rw [String.toList_ofList]
  induction names with
  | nil => rfl
  | cons first rest ih =>
    have hfirst : ':' ∉ first.toList := (h first List.mem_cons_self).2
    cases rest with
    | nil =>
      rw [join_singleton, dotChars_of_notMem hfirst]
      simp
    | cons second rest =>
      have hchars : (join (first :: second :: rest)).toList =
          first.toList ++ ':' :: ':' :: (join (second :: rest)).toList := by
        simp [join_cons_cons]
      rw [hchars, dotChars_append hfirst, ih fun n hn => h n (List.mem_cons_of_mem _ hn)]
      simp [List.intercalate_cons_cons]

/-- A name that can be told from its neighbours when dots separate them. -/
def IsDotless (text : String) : Prop := IsName text ∧ '.' ∉ text.toList

instance (text : String) : Decidable (IsDotless text) := inferInstanceAs (Decidable (_ ∧ _))

end PathText

open PathText

/-! ## 2. File names and the names in them -/

theorem intercalate_concat {α : Type} (sep last : List α) {lists : List (List α)} (h : lists ≠ []) :
    sep.intercalate (lists ++ [last]) = sep.intercalate lists ++ sep ++ last := by
  induction lists with
  | nil => exact absurd rfl h
  | cons first rest ih =>
    cases rest with
    | nil => simp [List.intercalate_cons_cons]
    | cons second rest =>
      have hrest := ih (List.cons_ne_nil _ _)
      rw [List.cons_append] at hrest
      rw [List.cons_append, List.cons_append, List.intercalate_cons_cons, hrest,
        List.intercalate_cons_cons]
      simp only [List.append_assoc]

/-- **The file name of an owner is its names with dots between them, then the suffix.** -/
theorem toList_artifactId {names : List String} (h : ∀ n ∈ names, IsName n)
    (owner suffix : String) :
    (artifactId (join names) owner suffix).toList =
      ['.'].intercalate ((names ++ [owner]).map String.toList) ++ suffix.toList := by
  unfold artifactId
  by_cases hne : names = []
  · subst hne
    simp
  · have hmap : names.map String.toList ≠ [] := by simpa using hne
    rw [if_neg (join_ne_empty hne h), List.map_append, List.map_singleton,
      intercalate_concat _ _ hmap]
    simp [toList_dotted_join h]

/-- The names in a file name, up to where the suffix starts. -/
def namesBefore (suffix id : String) : List String :=
  ((id.toList.take (id.toList.length - suffix.toList.length)).splitOn '.').map String.ofList

/-- **The names that a file name was made of can be read off it.** -/
theorem namesBefore_artifactId {names : List String} (h : ∀ n ∈ names, IsDotless n) {owner : String}
    (howner : IsDotless owner) (suffix : String) :
    namesBefore suffix (artifactId (join names) owner suffix) = names ++ [owner] := by
  have hdotless : ∀ n ∈ names ++ [owner], IsDotless n := by
    intro n hn
    rcases List.mem_append.mp hn with hn | hn
    · exact h n hn
    · exact List.mem_singleton.mp hn ▸ howner
  have hsplit : (['.'].intercalate ((names ++ [owner]).map String.toList)).splitOn '.' =
      (names ++ [owner]).map String.toList := by
    refine List.splitOn_intercalate '.' (fun cs hcs => ?_) (by simp)
    obtain ⟨n, hn, rfl⟩ := List.mem_map.mp hcs
    exact (hdotless n hn).2
  unfold namesBefore
  rw [toList_artifactId fun n hn => (h n hn).1, List.length_append, Nat.add_sub_cancel,
    List.take_left, hsplit, List.map_map]
  simp [Function.comp_def]

/-- **A file name with the suffix is the one made of the names in it.** -/
theorem artifactId_of_namesBefore {suffix id : String} (hsuffix : suffix.toList <:+ id.toList)
    {names : List String} (h : ∀ n ∈ names, IsName n) {owner : String}
    (hnames : namesBefore suffix id = names ++ [owner]) :
    artifactId (join names) owner suffix = id := by
  obtain ⟨before, hid⟩ := hsuffix
  have hbefore : ['.'].intercalate ((names ++ [owner]).map String.toList) = before := by
    rw [← hnames, namesBefore, ← hid, List.length_append, Nat.add_sub_cancel, List.take_left,
      List.map_map]
    simp [Function.comp_def, List.intercalate_splitOn]
  apply String.toList_injective
  rw [toList_artifactId h, hbefore, hid]

/-! ## 3. Different owners -/

/-- An owner whose file name can be taken apart: its module path is joined from names without dots
    and its own name has none. -/
def IsDotlessOwner (space owner : String) : Prop :=
  (∃ names : List String, (∀ n ∈ names, IsDotless n) ∧ space = join names) ∧ IsDotless owner

/-- With one suffix, different owners have different file names. -/
theorem artifactId_injective {space owner space' owner' : String} (h : IsDotlessOwner space owner)
    (h' : IsDotlessOwner space' owner') {suffix : String}
    (e : artifactId space owner suffix = artifactId space' owner' suffix) :
    space = space' ∧ owner = owner' := by
  obtain ⟨⟨names, hnames, rfl⟩, howner⟩ := h
  obtain ⟨⟨names', hnames', rfl⟩, howner'⟩ := h'
  have hread := namesBefore_artifactId hnames howner suffix
  rw [e, namesBefore_artifactId hnames' howner'] at hread
  obtain ⟨rfl, rfl⟩ := List.append_singleton_inj.mp hread
  exact ⟨rfl, rfl⟩

/-- A character of texts with dots between them is a dot or one of a text. -/
theorem mem_of_mem_intercalate {c : Char} {lists : List (List Char)}
    (h : c ∈ ['.'].intercalate lists) : c = '.' ∨ ∃ cs ∈ lists, c ∈ cs := by
  induction lists with
  | nil => cases h
  | cons first rest ih =>
    cases rest with
    | nil => exact .inr ⟨first, List.mem_singleton_self _, by simpa using h⟩
    | cons second rest =>
      rw [List.intercalate_cons_cons, List.append_assoc, List.mem_append, List.mem_append] at h
      rcases h with h | h | h
      · exact .inr ⟨first, List.mem_cons_self, h⟩
      · exact .inl (List.mem_singleton.mp h)
      · exact (ih h).imp_right fun ⟨cs, hcs, hc⟩ => ⟨cs, List.mem_cons_of_mem _ hcs, hc⟩

/-- A group becomes the extension of its owner, or nothing. -/
theorem exists_owner_of_mem_emitGroup {renderer : Renderer} {suffix : String} {g : Group}
    {a : Artifact} (h : a ∈ (emitGroup renderer suffix g).artifacts) :
    ∃ owner text, g.key.owner = some owner ∧ a = .ofOwner g.key.space owner suffix text := by
  unfold emitGroup at h
  split at h
  · cases h
  · rename_i owner howner
    dsimp only at h
    split at h
    · exact ⟨owner, _, howner, List.mem_singleton.mp h⟩
    · cases h

/-- What is emitted is named after its owner. -/
theorem id_of_mem_emit {renderer : Renderer} {suffix : String} {targets : List Target}
    {a : Artifact} (h : a ∈ (emit renderer suffix targets).artifacts) :
    a.id = artifactId a.ownerNamespace a.ownerName suffix := by
  rw [emit_artifacts] at h
  obtain ⟨k, -, ha⟩ := List.mem_flatMap.mp h
  obtain ⟨owner, text, -, rfl⟩ := exists_owner_of_mem_emitGroup ha
  rfl

/-- **Different owners never share a file name**: for every suffix, if names have neither dots nor
    colons, owners with one file name are one owner; hence the file names of all artifacts that a
    list of targets with such owners becomes are different. -/
theorem distinct_owners_have_distinct_ids (suffix : String) :
    (∀ space owner space' owner' : String, IsDotlessOwner space owner →
      IsDotlessOwner space' owner' →
      artifactId space owner suffix = artifactId space' owner' suffix →
      space = space' ∧ owner = owner') ∧
    ∀ (renderer : Renderer) (targets : List Target),
      (∀ t ∈ targets, ∀ owner, t.ownerName = some owner →
        IsDotlessOwner t.ownerNamespace owner) →
      ((emit renderer suffix targets).artifacts.map (·.id)).Nodup := by
  refine ⟨fun _ _ _ _ h h' e => artifactId_injective h h' e, fun renderer targets htargets => ?_⟩
  have hkeys : ∀ k ∈ ownerKeys targets, ∀ owner, k.owner = some owner →
      IsDotlessOwner k.space owner := by
    intro k hk owner howner
    obtain ⟨t, ht, rfl⟩ := mem_ownerKeys.mp hk
    exact htargets t ht owner howner
  rw [emit_artifacts, List.map_flatMap, List.nodup_flatMap]
  refine ⟨fun k _ => ?_, ?_⟩
  · -- one owner has one artifact at most
    have hle := length_artifacts_emitGroup_le renderer suffix ⟨k, targetsOf targets k⟩
    match (emitGroup renderer suffix ⟨k, targetsOf targets k⟩).artifacts, hle with
    | [], _ => exact List.nodup_nil
    | [_], _ => exact List.nodup_singleton _
  · refine (nodup_ownerKeys targets).imp_of_mem fun {k k'} hk hk' hne id hid hid' => hne ?_
    obtain ⟨a, ha, rfl⟩ := List.mem_map.mp hid
    obtain ⟨a', ha', e⟩ := List.mem_map.mp hid'
    obtain ⟨owner, text, howner, rfl⟩ := exists_owner_of_mem_emitGroup ha
    obtain ⟨owner', text', howner', rfl⟩ := exists_owner_of_mem_emitGroup ha'
    obtain ⟨hspace, hname⟩ := artifactId_injective (hkeys k' hk' owner' howner')
      (hkeys k hk owner howner) e
    cases k
    cases k'
    simp_all

/-- Three owners of one name, in a module, in the module around it and at the root. -/
def widgetTargets : List Target :=
  ["ui::widgets", "ui", ""].map fun space => ⟨some "Widget", space, .declaration, ⟨"m"⟩, none⟩

/-- Each of them has a file of its own. -/
theorem distinct_ids_widgetTargets :
    (emit .standard ".autolog.g.rs" widgetTargets).artifacts.map (·.id) =
        ["Widget.autolog.g.rs", "ui.Widget.autolog.g.rs", "ui.widgets.Widget.autolog.g.rs"] ∧
      ((emit .standard ".autolog.g.rs" widgetTargets).artifacts.map (·.id)).Nodup ∧
      artifactId "ui" "Widget" ".autolog.g.rs" ≠ artifactId "" "Widget" ".autolog.g.rs" := by
  have hroot : IsDotlessOwner "" "Widget" := ⟨⟨[], by simp, rfl⟩, by decide⟩
  have hmodule : IsDotlessOwner "ui" "Widget" := ⟨⟨["ui"], by decide, rfl⟩, by decide⟩
  have hinner : IsDotlessOwner "ui::widgets" "Widget" :=
    ⟨⟨["ui", "widgets"], by decide, by decide⟩, by decide⟩
  refine ⟨by decide, (distinct_owners_have_distinct_ids ".autolog.g.rs").2 .standard widgetTargets
    ?_, fun e => ?_⟩
  · intro t ht owner howner
    simp only [widgetTargets, List.map_cons, List.map_nil, List.mem_cons, List.not_mem_nil,
      or_false] at ht
    rcases ht with rfl | rfl | rfl <;> cases howner
    · exact hinner
    · exact hmodule
    · exact hroot
  · exact absurd ((distinct_owners_have_distinct_ids ".autolog.g.rs").1 _ _ _ _ hmodule hroot e).1
      (by decide)

/-- A dot in a name is enough for two owners to share a file. -/
example : artifactId "a" "b.c" ".rs" = artifactId "a::b" "c" ".rs" := by decide

end LogMarkers
