import LogMarkers.Emission
import LogMarkers.Proofs.Text.ByteOrder
import Mathlib.Algebra.Order.BigOperators.Group.List
import Mathlib.Algebra.Order.Group.Nat
import Mathlib.Data.Finset.Card
import Mathlib.Data.List.Forall2

/-!
# Every owner gets its artifact or its reports

What a list of targets becomes, owner by owner.

* `OwnerKey.Below` is the order of owners by bytes; `ownerKeys` lists the owners of the targets
  along it, each once (`ownerKeys_below`, `mem_ownerKeys`).
* The groups of the owners put together are the targets again, none lost and none twice
  (`flatMap_group_perm`).
* `Outcome` says what one owner gets: a warning, an extension or errors. `emitGroup_outcome` shows
  that each group has this outcome, and `emit_outcome_of_each_owner` puts the groups together.
-/

namespace LogMarkers

/-! ## 1. The order of owners -/

namespace OwnerKey

/-- Namespace and name of an owner in bytes. -/
def bytes (k : OwnerKey) : List UInt8 × Option (List UInt8) :=
  (utf8Bytes k.space, k.owner.map utf8Bytes)

/-- The order of owners by bytes: by namespace, then by name, an absent name before all others. -/
def Below (a b : OwnerKey) : Prop := Prod.Lex (· < ·) (· < ·) a.bytes b.bytes

theorem nameBefore_irrefl (a : Option String) : nameBefore a a = false := by
  cases a with
  | none => rfl
  | some a => simp [nameBefore]

theorem nameBefore_trans {a b c : Option String} (hab : nameBefore a b = true)
    (hbc : nameBefore b c = true) : nameBefore a c = true := by
  cases c with
  | none => cases b <;> cases hbc
  | some c =>
    cases a with
    | none => rfl
    | some a =>
      cases b with
      | none => cases hab
      | some b =>
        exact decide_eq_true (KeyOrder.trans (of_decide_eq_true hab) (of_decide_eq_true hbc))

theorem nameBefore_of_not {a b : Option String} (h : nameBefore a b = false) (hne : a ≠ b) :
    nameBefore b a = true := by
  cases a with
  | none =>
    cases b with
    | none => exact absurd rfl hne
    | some b => cases h
  | some a =>
    cases b with
    | none => rfl
    | some b =>
      have hlt : ¬ a < b := of_decide_eq_false h
      have hne' : a ≠ b := fun e => hne (e ▸ rfl)
      exact decide_eq_true (KeyOrder.gt_of_not_lt hlt hne')

theorem before_iff {a b : OwnerKey} :
    a.before b = true ↔
      a.space < b.space ∨ a.space = b.space ∧ nameBefore a.owner b.owner = true := by
  simp only [before, Bool.or_eq_true, decide_eq_true_eq, Bool.and_eq_true, beq_iff_eq]

instance : LT OwnerKey := ⟨fun a b => a.before b = true⟩

/-- Owners can be listed by their order. -/
instance : KeyOrder OwnerKey where
  irrefl a h := by
    rcases before_iff.mp h with hs | ⟨_, ho⟩
    · exact KeyOrder.irrefl _ hs
    · rw [nameBefore_irrefl] at ho
      cases ho
  trans {a b c} hab hbc := by
    refine before_iff.mpr ?_
    rcases before_iff.mp hab with h₁ | ⟨e₁, o₁⟩
    · rcases before_iff.mp hbc with h₂ | ⟨e₂, _⟩
      · exact .inl (KeyOrder.trans h₁ h₂)
      · exact .inl (e₂ ▸ h₁)
    · rcases before_iff.mp hbc with h₂ | ⟨e₂, o₂⟩
      · exact .inl (e₁ ▸ h₂)
      · exact .inr ⟨e₁.trans e₂, nameBefore_trans o₁ o₂⟩
  gt_of_not_lt {a b} h hne := by
    have hn : ¬ a.before b = true := h
    rw [before_iff, not_or, not_and] at hn
    obtain ⟨hs, ho⟩ := hn
    refine before_iff.mpr ?_
    by_cases e : a.space = b.space
    · have hne' : a.owner ≠ b.owner := fun eo => hne (by cases a; cases b; simp_all)
      exact .inr ⟨e.symm, nameBefore_of_not (Bool.eq_false_of_not_eq_true (ho e)) hne'⟩
    · exact .inl (KeyOrder.gt_of_not_lt hs e)

/-- The order of owners is their order by bytes. -/
theorem below_of_lt {a b : OwnerKey} (h : a < b) : a.Below b := by
  unfold Below bytes
  rcases before_iff.mp h with hs | ⟨hs, ho⟩
  · exact .left _ _ (utf8Bytes_lt hs)
  · rw [hs]
    refine .right _ ?_
    cases ha : a.owner with
    | none =>
      cases hb : b.owner with
      | none => rw [ha, hb] at ho; cases ho
      | some name => exact trivial
    | some name =>
      cases hb : b.owner with
      | none => rw [ha, hb] at ho; cases ho
      | some name' =>
        rw [ha, hb] at ho
        exact utf8Bytes_lt (of_decide_eq_true ho)

theorem mem_insert {k a : OwnerKey} {keys : List OwnerKey} :
    a ∈ insert k keys ↔ a = k ∨ a ∈ keys := by
  induction keys with
  | nil => simp [insert]
  | cons k' rest ih =>
    unfold insert
    split
    · simp only [List.mem_cons]
    · split
      · rename_i e
        subst e
        simp only [List.mem_cons, or_self_left]
      · simp only [List.mem_cons, ih]
        exact or_left_comm

theorem pairwise_insert (k : OwnerKey) {keys : List OwnerKey} (h : keys.Pairwise (· < ·)) :
    (insert k keys).Pairwise (· < ·) := by
  induction keys with
  | nil => exact List.pairwise_singleton _ _
  | cons k' rest ih =>
    obtain ⟨hk', hrest⟩ := List.pairwise_cons.mp h
    unfold insert
    split
    · rename_i hlt
      refine List.pairwise_cons.mpr ⟨fun a ha => ?_, h⟩
      rcases List.mem_cons.mp ha with rfl | ha
      · exact hlt
      · exact KeyOrder.trans hlt (hk' a ha)
    · split
      · exact h
      · rename_i hlt hne
        refine List.pairwise_cons.mpr ⟨fun a ha => ?_, ih hrest⟩
        rcases mem_insert.mp ha with rfl | ha
        · exact KeyOrder.gt_of_not_lt hlt hne
        · exact hk' a ha

end OwnerKey

/-! ## 2. The owners of a list of targets -/

/-- The targets of one owner, in input order. -/
def targetsOf (targets : List Target) (k : OwnerKey) : List Target := targets.filter (·.key = k)

theorem ownerKeys_lt (targets : List Target) : (ownerKeys targets).Pairwise (· < ·) := by
  induction targets with
  | nil => exact .nil
  | cons t rest ih => exact OwnerKey.pairwise_insert _ ih

/-- **The owners are listed in increasing byte order.** -/
theorem ownerKeys_below (targets : List Target) : (ownerKeys targets).Pairwise OwnerKey.Below :=
  (ownerKeys_lt targets).imp OwnerKey.below_of_lt

theorem nodup_ownerKeys (targets : List Target) : (ownerKeys targets).Nodup :=
  (ownerKeys_lt targets).imp (fun {a b} (h : a < b) (e : a = b) => KeyOrder.irrefl b (e ▸ h))

/-- **The owners are those of the targets.** -/
theorem mem_ownerKeys {targets : List Target} {k : OwnerKey} :
    k ∈ ownerKeys targets ↔ ∃ t ∈ targets, t.key = k := by
  induction targets with
  | nil => simp [ownerKeys]
  | cons t rest ih =>
    show k ∈ OwnerKey.insert t.key (ownerKeys rest) ↔ _
    rw [OwnerKey.mem_insert, ih]
    rw [List.exists_mem_cons_iff, eq_comm]

/-- Groups of different owners put together are the targets of these owners. -/
theorem flatMap_targetsOf_perm (targets : List Target) {keys : List OwnerKey} (h : keys.Nodup) :
    (keys.flatMap (targetsOf targets)).Perm (targets.filter (·.key ∈ keys)) := by
  induction keys with
  | nil => simp
  | cons k rest ih =>
    obtain ⟨hk, hrest⟩ := List.nodup_cons.mp h
    have hsplit := List.filter_append_perm (fun t : Target => decide (t.key = k))
      (targets.filter (·.key ∈ k :: rest))
    have h₁ : (targets.filter (·.key ∈ k :: rest)).filter (fun t => decide (t.key = k)) =
        targetsOf targets k := by
      rw [List.filter_filter]
      refine List.filter_congr fun t _ => ?_
      by_cases e : t.key = k <;> simp [e]
    have h₂ : (targets.filter (·.key ∈ k :: rest)).filter (fun t => !decide (t.key = k)) =
        targets.filter (·.key ∈ rest) := by
      rw [List.filter_filter]
      refine List.filter_congr fun t _ => ?_
      by_cases e : t.key = k <;> simp [e, hk]
    rw [h₁, h₂] at hsplit
    rw [List.flatMap_cons]
    exact ((ih hrest).append_left _).trans hsplit

/-- **The groups of all owners put together are the targets**, each as often as it occurs. -/
theorem flatMap_group_perm (targets : List Target) :
    ((ownerKeys targets).flatMap (targetsOf targets)).Perm targets := by
  refine (flatMap_targetsOf_perm targets (nodup_ownerKeys targets)).trans ?_
  rw [List.filter_eq_self.mpr]
  intro t ht
  exact decide_eq_true (mem_ownerKeys.mpr ⟨t, ht, rfl⟩)

/-! ## 3. Names that are defined twice -/

/-- Whether the name at a position stands at an earlier position too. -/
def IsRepeat (names : List String) (i : Nat) : Prop := ∃ j < i, names[j]? = names[i]?

instance (names : List String) (i : Nat) : Decidable (IsRepeat names i) :=
  inferInstanceAs (Decidable (∃ j, j < i ∧ names[j]? = names[i]?))

/-- The positions of the names that stand earlier too. -/
def repeatPositions (names : List String) : List Nat :=
  (List.range names.length).filter (IsRepeat names ·)

theorem isRepeat_append_cons {before : List String} {name : String} {after : List String} :
    IsRepeat (before ++ name :: after) before.length ↔ name ∈ before := by
  have hname : (before ++ name :: after)[before.length]? = some name := by simp
  unfold IsRepeat
  rw [hname, List.mem_iff_getElem?]
  constructor
  · rintro ⟨j, hj, e⟩
    rw [List.getElem?_append_left hj] at e
    exact ⟨j, e⟩
  · rintro ⟨j, e⟩
    have hj : j < before.length := (List.getElem?_eq_some_iff.mp e).1
    exact ⟨j, hj, by rw [List.getElem?_append_left hj, e]⟩

/-- The names of a list of snippets. -/
def identsOf (pairs : List (Target × Snippet)) : List String := pairs.map (·.2.ident)

/-- The report on the snippet at a position: it names the place the name was first defined for. -/
def ReportAt (qualified : String) (pairs : List (Target × Snippet)) (i : Nat) (d : Diagnostic) :
    Prop :=
  ∃ t s, pairs[i]? = some (t, s) ∧
    d = duplicateMember qualified s.ident
      ((pairs.find? (·.2.ident == s.ident)).bind (·.1.location)) t

theorem find?_ident_append (before : List (Target × Snippet)) (t : Target) (s : Snippet)
    (name : String) :
    (before ++ [(t, s)]).find? (·.2.ident == name) =
      (before.find? (·.2.ident == name)).or (if s.ident = name then some (t, s) else none) := by
  rw [List.find?_append]
  by_cases e : s.ident = name <;> simp [e]

/-- What the scan reports on the rest of a list, where `seen` holds the names of what came before
    with the places they were first defined for. -/
theorem collisions_reportAt (qualified : String) (rest : List (Target × Snippet)) :
    ∀ (before : List (Target × Snippet)) (seen : List (String × Option Location)),
      (∀ name, seen.lookup name = (before.find? (·.2.ident == name)).map (·.1.location)) →
      List.Forall₂ (ReportAt qualified (before ++ rest))
        ((List.range' before.length rest.length).filter (IsRepeat (identsOf (before ++ rest)) ·))
        (collisions qualified seen rest) := by
  induction rest with
  | nil => exact fun _ _ _ => .nil
  | cons p rest ih =>
    intro before seen hseen
    obtain ⟨t, s⟩ := p
    have hidents : identsOf (before ++ (t, s) :: rest) =
        identsOf before ++ s.ident :: identsOf rest := by
      simp [identsOf]
    have hlen : before.length = (identsOf before).length := by simp [identsOf]
    have hrepeat : IsRepeat (identsOf (before ++ (t, s) :: rest)) before.length ↔
        s.ident ∈ identsOf before := by
      rw [hidents, hlen]
      exact isRepeat_append_cons
    have hnext : before ++ (t, s) :: rest = (before ++ [(t, s)]) ++ rest := by simp
    have hnextLen : (before ++ [(t, s)]).length = before.length + 1 := by simp
    rw [List.length_cons, List.range'_succ, List.filter_cons]
    unfold collisions
    cases hfind : before.find? (·.2.ident == s.ident) with
    | some p =>
      -- the name was seen: one report here, and the first place of every name stays
      have hlook : seen.lookup s.ident = some p.1.location := by rw [hseen, hfind]; rfl
      have hmem : s.ident ∈ identsOf before :=
        List.mem_map.mpr ⟨p, List.mem_of_find?_eq_some hfind, by
          simpa using List.find?_some hfind⟩
      rw [if_pos (decide_eq_true (hrepeat.mpr hmem)), hlook]
      refine .cons ⟨t, s, by simp, ?_⟩ ?_
      · rw [List.find?_append, hfind]
        rfl
      · rw [hnext, ← hnextLen]
        refine ih _ seen fun name => ?_
        rw [hseen, find?_ident_append]
        by_cases e : s.ident = name
        · rw [← e, hfind]
          rfl
        · rw [if_neg e, Option.or_none]
    | none =>
      have hlook : seen.lookup s.ident = none := by rw [hseen, hfind]; rfl
      have hmem : s.ident ∉ identsOf before := by
        intro hm
        obtain ⟨p, hp, e⟩ := List.mem_map.mp hm
        exact List.find?_eq_none.mp hfind p hp (by simpa using e)
      rw [if_neg (by simpa using fun h => hmem (hrepeat.mp h)), hlook]
      rw [hnext, ← hnextLen]
      refine ih _ _ fun name => ?_
      rw [Table.lookup_cons_eq_ite, find?_ident_append]
      by_cases e : name = s.ident
      · rw [if_pos e, e, hfind, if_pos rfl]
        rfl
      · rw [if_neg e, if_neg (Ne.symm e), Option.or_none, hseen]

/-- **One report at every position whose name stands earlier too.** -/
theorem collisions_repeatPositions (qualified : String) (pairs : List (Target × Snippet)) :
    List.Forall₂ (ReportAt qualified pairs) (repeatPositions (identsOf pairs))
      (collisions qualified [] pairs) := by
  have h := collisions_reportAt qualified pairs [] [] fun _ => rfl
  have hlen : (identsOf pairs).length = pairs.length := by simp [identsOf]
  rw [List.nil_append, List.length_nil, ← List.range_eq_range', ← hlen] at h
  exact h

/-- The reports are as many as the snippets less the names that are new. -/
theorem length_collisions (qualified : String) (pairs : List (Target × Snippet)) :
    ∀ seen : List (String × Option Location),
      (collisions qualified seen pairs).length +
        ((identsOf pairs).toFinset.filter (fun name => seen.lookup name = none)).card =
      pairs.length := by
  induction pairs with
  | nil => exact fun _ => rfl
  | cons p rest ih =>
    intro seen
    obtain ⟨t, s⟩ := p
    have hidents : (identsOf ((t, s) :: rest)).toFinset =
        insert s.ident (identsOf rest).toFinset := by
      simp [identsOf]
    unfold collisions
    rw [hidents, Finset.filter_insert]
    cases hlook : seen.lookup s.ident with
    | some first =>
      have hrest := ih seen
      simp only [List.length_cons, reduceCtorEq, ↓reduceIte]
      omega
    | none =>
      have hrest := ih ((s.ident, t.location) :: seen)
      -- the new name is no longer new for the rest
      have herase : (identsOf rest).toFinset.filter
          (fun name => ((s.ident, t.location) :: seen).lookup name = none) =
          ((identsOf rest).toFinset.filter (fun name => seen.lookup name = none)).erase
            s.ident := by
        ext name
        rw [Finset.mem_erase, Finset.mem_filter, Finset.mem_filter, Table.lookup_cons_eq_ite]
        by_cases e : name = s.ident <;> simp [e]
      rw [herase] at hrest
      have hcard := Finset.card_erase_add_one (Finset.mem_insert_self s.ident
        ((identsOf rest).toFinset.filter (fun name => seen.lookup name = none)))
      rw [Finset.erase_insert_eq_erase] at hcard
      simp only [List.length_cons, ↓reduceIte]
      omega

theorem length_collisions_nil (qualified : String) (pairs : List (Target × Snippet)) :
    (collisions qualified [] pairs).length + (identsOf pairs).toFinset.card = pairs.length := by
  have h := length_collisions qualified pairs []
  have hnew : (identsOf pairs).toFinset.filter
      (fun name => ([] : List (String × Option Location)).lookup name = none) =
      (identsOf pairs).toFinset := Finset.filter_true_of_mem fun _ _ => rfl
  rwa [hnew] at h

theorem card_toFinset_eq_length_iff {names : List String} :
    names.toFinset.card = names.length ↔ names.Nodup := by
  rw [← Multiset.coe_nodup, ← Multiset.toFinset_card_eq_card_iff_nodup, List.toFinset_coe,
    Multiset.coe_card]

theorem collisions_eq_nil_iff (qualified : String) (pairs : List (Target × Snippet)) :
    collisions qualified [] pairs = [] ↔ (identsOf pairs).Nodup := by
  have h := length_collisions_nil qualified pairs
  have hlen : (identsOf pairs).length = pairs.length := by simp [identsOf]
  rw [← card_toFinset_eq_length_iff, ← List.length_eq_zero_iff]
  omega

/-! ## 4. What one owner gets -/

/-- The names of the members that the targets of an owner ask for. -/
def memberNames (renderer : Renderer) (owner : String) (ts : List Target) : List String :=
  ts.map fun t => (renderer.snippet owner t.augmentation).ident

/-- What the targets `ts` of the owner `k` have to become. -/
structure Outcome (renderer : Renderer) (suffix : String) (k : OwnerKey) (ts : List Target)
    (part : Emission) : Prop where
  /-- Without a name: one warning with the number of targets, at the first of them. -/
  unnamed : k.owner = none →
    part.artifacts = [] ∧ ∃ d, part.diagnostics = [d] ∧ d.cause = .unnamedOwner ∧
      d.severity = .warning ∧
      d.message = toString ts.length ++
        " finding(s) belong to an owner whose name could not be determined" ∧
      ∃ t, ts.head? = some t ∧ d.location = t.location
  /-- With a name and different members: the extension with the snippets in order. -/
  extended : ∀ owner, k.owner = some owner → (memberNames renderer owner ts).Nodup →
    part.diagnostics = [] ∧
      part.artifacts = [.ofOwner k.space owner suffix
        (renderer.extension k.space owner (ts.map fun t => renderer.snippet owner t.augmentation))]
  /-- With a name and a repeated member: one error at every target that repeats one. -/
  clashing : ∀ owner, k.owner = some owner → ¬ (memberNames renderer owner ts).Nodup →
    part.artifacts = [] ∧
      part.diagnostics.length = ts.length - (memberNames renderer owner ts).toFinset.card ∧
      List.Forall₂ (fun i d => d.cause = .duplicateGeneratedMember ∧ d.severity = .error ∧
          d.owner = some (qualifiedOwner k.space owner) ∧
          ∃ t, ts[i]? = some t ∧ d.location = t.location)
        (repeatPositions (memberNames renderer owner ts)) part.diagnostics

/-- The group of an owner has the outcome of its targets. -/
theorem emitGroup_outcome (renderer : Renderer) (suffix : String) (k : OwnerKey)
    {ts : List Target} (hne : ts ≠ []) :
    Outcome renderer suffix k ts (emitGroup renderer suffix ⟨k, ts⟩) := by
  have hpairs : ∀ owner, ts.zip (ts.map fun t => renderer.snippet owner t.augmentation) =
      ts.map fun t => (t, renderer.snippet owner t.augmentation) :=
    fun owner => List.map_prod_left_eq_zip.symm
  have hidents : ∀ owner, identsOf (ts.map fun t => (t, renderer.snippet owner t.augmentation)) =
      memberNames renderer owner ts := fun owner => by
    simp [identsOf, memberNames]
  refine ⟨fun hk => ?_, fun owner hk hnd => ?_, fun owner hk hnd => ?_⟩
  · obtain ⟨t, rest, rfl⟩ := List.exists_cons_of_ne_nil hne
    unfold emitGroup
    simp only [hk]
    exact ⟨trivial, _, rfl, rfl, rfl, rfl, t, rfl, rfl⟩
  · have hnone := (collisions_eq_nil_iff (qualifiedOwner k.space owner) _).mpr
      ((hidents owner).symm ▸ hnd)
    unfold emitGroup
    simp only [hk, hpairs, hnone, and_self]
  · have hreports := collisions_repeatPositions (qualifiedOwner k.space owner)
      (ts.map fun t => (t, renderer.snippet owner t.augmentation))
    have hlen := length_collisions_nil (qualifiedOwner k.space owner)
      (ts.map fun t => (t, renderer.snippet owner t.augmentation))
    have hsome := mt (collisions_eq_nil_iff (qualifiedOwner k.space owner) _).mp
      ((hidents owner).symm ▸ hnd)
    rw [hidents] at hreports hlen
    rw [List.length_map] at hlen
    obtain ⟨d, ds, hds⟩ := List.exists_cons_of_ne_nil hsome
    unfold emitGroup
    simp only [hk, hpairs, hds]
    rw [hds] at hreports hlen
    refine ⟨trivial, by omega, hreports.imp fun i d hd => ?_⟩
    obtain ⟨t, s, hi, rfl⟩ := hd
    rw [List.getElem?_map] at hi
    obtain ⟨_, ht, e⟩ := Option.map_eq_some_iff.mp hi
    cases e
    exact ⟨rfl, rfl, rfl, t, ht, rfl⟩

/-- What an owner gets is one artifact or some reports, and never both. -/
theorem Outcome.artifact_or_reports {renderer : Renderer} {suffix : String} {k : OwnerKey}
    {ts : List Target} {part : Emission} (h : Outcome renderer suffix k ts part) :
    (∃ artifact, part.artifacts = [artifact] ∧ part.diagnostics = []) ∨
      (part.artifacts = [] ∧ part.diagnostics ≠ []) := by
  cases hk : k.owner with
  | none =>
    obtain ⟨hnone, d, hd, -⟩ := h.unnamed hk
    exact .inr ⟨hnone, hd ▸ List.cons_ne_nil _ _⟩
  | some owner =>
    by_cases hnd : (memberNames renderer owner ts).Nodup
    · obtain ⟨hnone, hone⟩ := h.extended owner hk hnd
      exact .inl ⟨_, hone, hnone⟩
    · obtain ⟨hnone, hlen, -⟩ := h.clashing owner hk hnd
      refine .inr ⟨hnone, fun e => hnd (card_toFinset_eq_length_iff.mp ?_)⟩
      have hle := List.toFinset_card_le (memberNames renderer owner ts)
      have hts : (memberNames renderer owner ts).length = ts.length := List.length_map ..
      rw [e, List.length_nil] at hlen
      omega

theorem length_artifacts_emitGroup_le (renderer : Renderer) (suffix : String) (g : Group) :
    (emitGroup renderer suffix g).artifacts.length ≤ 1 := by
  unfold emitGroup
  split
  · exact Nat.zero_le _
  · dsimp only
    split
    · exact Nat.le_refl _
    · exact Nat.zero_le _

/-! ## 5. What all owners get -/

theorem emit_artifacts (renderer : Renderer) (suffix : String) (targets : List Target) :
    (emit renderer suffix targets).artifacts = (ownerKeys targets).flatMap
      fun k => (emitGroup renderer suffix ⟨k, targetsOf targets k⟩).artifacts := by
  simp only [emit, groups, List.map_map, List.flatMap_map, Function.comp_apply, targetsOf]

theorem emit_diagnostics (renderer : Renderer) (suffix : String) (targets : List Target) :
    (emit renderer suffix targets).diagnostics = (ownerKeys targets).flatMap
      fun k => (emitGroup renderer suffix ⟨k, targetsOf targets k⟩).diagnostics := by
  simp only [emit, groups, List.map_map, List.flatMap_map, Function.comp_apply, targetsOf]

theorem targetsOf_ne_nil {targets : List Target} {k : OwnerKey} (h : k ∈ ownerKeys targets) :
    targetsOf targets k ≠ [] := by
  obtain ⟨t, ht, hkey⟩ := mem_ownerKeys.mp h
  exact List.ne_nil_of_mem (List.mem_filter.mpr ⟨ht, decide_eq_true hkey⟩)

/-- **There are no more artifacts than targets.** -/
theorem length_artifacts_le (renderer : Renderer) (suffix : String) (targets : List Target) :
    (emit renderer suffix targets).artifacts.length ≤ targets.length := by
  rw [emit_artifacts, ← (flatMap_group_perm targets).length_eq, List.length_flatMap,
    List.length_flatMap]
  refine List.sum_le_sum fun k hk => ?_
  have hpos := List.length_pos_of_ne_nil (targetsOf_ne_nil hk)
  have hle := length_artifacts_emitGroup_le renderer suffix ⟨k, targetsOf targets k⟩
  omega

/-- **Every owner gets its artifact or its reports, and nothing else is emitted**: the owners of the
    targets, in increasing byte order, each have the outcome of their targets; the emission is these
    outcomes one after the other, the targets of all owners are the targets given, and every target
    counts in the one artifact of its owner or in the reports on it. -/
theorem emit_outcome_of_each_owner (renderer : Renderer) (suffix : String)
    (targets : List Target) :
    ∃ (keys : List OwnerKey) (part : OwnerKey → Emission),
      keys.Pairwise OwnerKey.Below ∧
      (∀ k, k ∈ keys ↔ ∃ t ∈ targets, t.key = k) ∧
      (∀ k ∈ keys, Outcome renderer suffix k (targetsOf targets k) (part k)) ∧
      (emit renderer suffix targets).artifacts = keys.flatMap (fun k => (part k).artifacts) ∧
      (emit renderer suffix targets).diagnostics = keys.flatMap (fun k => (part k).diagnostics) ∧
      (keys.flatMap (targetsOf targets)).Perm targets ∧
      ∀ t ∈ targets, t ∈ targetsOf targets t.key ∧
        ((∃ artifact, (part t.key).artifacts = [artifact] ∧ (part t.key).diagnostics = []) ∨
          ((part t.key).artifacts = [] ∧ (part t.key).diagnostics ≠ [])) := by
  have houtcome : ∀ k ∈ ownerKeys targets, Outcome renderer suffix k (targetsOf targets k)
      (emitGroup renderer suffix ⟨k, targetsOf targets k⟩) :=
    fun k hk => emitGroup_outcome renderer suffix k (targetsOf_ne_nil hk)
  refine ⟨ownerKeys targets, fun k => emitGroup renderer suffix ⟨k, targetsOf targets k⟩,
    ownerKeys_below targets, fun k => mem_ownerKeys, houtcome,
    emit_artifacts renderer suffix targets, emit_diagnostics renderer suffix targets,
    flatMap_group_perm targets, fun t ht => ⟨?_, ?_⟩⟩
  · exact List.mem_filter.mpr ⟨ht, decide_eq_true rfl⟩
  · exact (houtcome t.key (mem_ownerKeys.mpr ⟨t, ht, rfl⟩)).artifact_or_reports

end LogMarkers
