import LogMarkers.Proofs.Crate.Loading
import LogMarkers.Proofs.Disk.Places
import Mathlib.Data.Fintype.Pigeonhole

/-!
# Loading that does not end

A module that is loaded is not loaded again, but a file can stand for ever more modules: path
attributes may name a file that was visited before, and every visit has a longer module path. So
loading need not end on a finite disk.

* `exists_endless_visit`: if visits one after the other do not end, one of them does not end alone;
* `EndlessChain`: visits of loading, each declared in the file of the one before it, without end;
* `load_ends_iff`: loading ends unless there is an endless chain, and such a chain comes to a file
  for the second time;
* `not_ends_selfNaming`: a file that names itself is loaded without end.
-/

namespace LogMarkers

open DiskPath PathText

theorem Table.mem_keys_of_contains {κ β : Type} [DecidableEq κ] [LT κ] {t : Table κ β} {k : κ}
    (h : t.contains k = true) : k ∈ t.keys := by
  obtain ⟨value, hvalue⟩ := Option.isSome_iff_exists.mp h
  exact List.mem_map_of_mem (Table.mem_of_lookup hvalue)

/-- A path that leads to a file leads to a place with an entry. -/
theorem Disk.exists_place_of_isFile {disk : Disk} {path : String} (h : disk.isFile path = true) :
    ∃ place, disk.locate path = .ok place ∧ place ∈ disk.entries.keys := by
  have hfile : ∃ place content, disk.locate path = .ok place ∧
      disk.get? place = some (.file content) := by
    unfold Disk.isFile at h
    split at h
    · rename_i content hfind
      unfold Disk.find? at hfind
      split at hfind
      · cases hfind
      · rename_i place hlocate
        split at hfind
        · exact ⟨place, _, hlocate, ‹_›⟩
        · exact ⟨place, content, hlocate, hfind⟩
    · cases h
  obtain ⟨place, content, hlocate, hget⟩ := hfile
  refine ⟨place, hlocate, ?_⟩
  unfold Disk.get? at hget
  split at hget
  · cases hget
  · exact Table.mem_keys_of_contains (Option.isSome_iff_exists.mpr ⟨_, hget⟩)

namespace Loading

variable {disk : Disk} {l l' : Loading} {s : SourceSet} {v : Visit}

/-! ## 1. Visits before others -/

/-- The same with more visits behind. -/
def before (l : Loading) (rest : List Visit) : Loading := ⟨l.sources, l.pending ++ rest⟩

theorem Moves.before (h : Moves disk l l') (rest : List Visit) :
    Moves disk (l.before rest) (l'.before rest) := by
  cases h with
  | passed h => exact .passed h
  | made h hreads =>
    unfold Loading.before
    rw [List.append_assoc]
    exact .made h hreads

theorem Reaches.before (h : Reaches disk l l') (rest : List Visit) :
    Reaches disk (l.before rest) (l'.before rest) :=
  h.lift (Loading.before · rest) fun _ _ hmoves => hmoves.before rest

theorem Stuck.before (h : Stuck disk l) (rest : List Visit) : Stuck disk (l.before rest) := by
  obtain ⟨v, tail, hpending, hloaded, hreads⟩ := h
  refine ⟨v, tail ++ rest, ?_, hloaded, hreads⟩
  rw [Loading.before, hpending, List.cons_append]

/-- **Visits that do not end**: those before one of them do, and this one does not end alone. -/
theorem exists_endless_visit {pending : List Visit} (h : ¬ Ends disk ⟨s, pending⟩) :
    ∃ w ∈ pending, ∃ s' rest, Reaches disk ⟨s, pending⟩ ⟨s', w :: rest⟩ ∧
      ¬ Ends disk ⟨s', [w]⟩ := by
  induction pending generalizing s with
  | nil => exact absurd ⟨0, _, run?_of_empty rfl 0⟩ h
  | cons w pending ih =>
    by_cases hw : Ends disk ⟨s, [w]⟩
    · rcases ends_iff.mp hw with ⟨s', hreaches⟩ | ⟨l', hreaches, hstuck⟩
      · have hfirst : Reaches disk ⟨s, w :: pending⟩ ⟨s', pending⟩ := Reaches.before hreaches pending
        obtain ⟨u, hu, s'', rest, hrest, hendless⟩ := ih fun hends => h (.of_reaches hfirst hends)
        exact ⟨u, List.mem_cons_of_mem _ hu, s'', rest, hfirst.trans hrest, hendless⟩
      · have hfirst : Reaches disk ⟨s, w :: pending⟩ (l'.before pending) :=
          Reaches.before hreaches pending
        exact absurd (.of_reaches hfirst (.of_stuck (hstuck.before pending))) h
    · exact ⟨w, List.mem_cons_self, s, pending, .refl, hw⟩

/-- A visit that does not end is made, and leads to one that does not end. -/
theorem exists_leads_of_endless (h : ¬ Ends disk ⟨s, [v]⟩) (rest : List Visit) :
    s.contains v.module = false ∧ ∃ w, v.Leads disk w ∧ ∃ s' rest',
      Reaches disk ⟨s, v :: rest⟩ ⟨s', w :: rest'⟩ ∧ ¬ Ends disk ⟨s', [w]⟩ := by
  rcases step_cases disk (l := ⟨s, [v]⟩) rfl with ⟨l', -, hmoves⟩ | ⟨-, hstuck⟩
  · have hend : ¬ Ends disk l' := fun hends => h (.of_reaches (.single hmoves) hends)
    cases hmoves with
    | passed hloaded => exact absurd ⟨0, _, run?_of_empty rfl 0⟩ hend
    | @made _ _ _ f items hloaded hreads =>
      rw [List.append_nil] at hend
      obtain ⟨w, hw, s', rest', hreaches, hendless⟩ := exists_endless_visit hend
      refine ⟨hloaded, w, ⟨f, items, hreads, List.mem_reverse.mp hw⟩, s', rest' ++ rest, ?_,
        hendless⟩
      exact .head (.made hloaded hreads) (Reaches.before hreaches rest)
  · exact absurd (.of_stuck hstuck) h

/-! ## 2. What was loaded stays loaded -/

theorem contains_insert (s : SourceSet) (module : String) (f : SourceFile) (other : String) :
    (s.insert module f).contains other = (decide (other = module) || s.contains other) := by
  by_cases h : other = module <;> simp [Table.contains, h]

theorem Reaches.contains {module : String} (h : Reaches disk l l')
    (hloaded : l.sources.contains module = true) : l'.sources.contains module = true := by
  induction h with
  | refl => exact hloaded
  | tail _ hmoves ih =>
    cases hmoves with
    | passed => exact ih
    | made =>
      rw [contains_insert, ih, Bool.or_true]

/-- A visit that was made is loaded when loading ends, if its file could be read. -/
theorem contains_of_made {start : Loading} {rest : List Visit} {f : SourceFile} {items : List Item}
    (hmade : Reaches disk start ⟨s, v :: rest⟩) (hnew : s.contains v.module = false)
    (hreads : v.Reads disk f items) (hend : Reaches disk start l)
    (hlast : ∀ l', ¬ Moves disk l l') : l.sources.contains v.module = true := by
  have hmoves : Moves disk ⟨s, v :: rest⟩ _ := .made hnew hreads
  have hafter : Reaches disk ⟨s, v :: rest⟩ l := by
    rcases Relation.ReflTransGen.total_of_right_unique (fun _ _ _ h h' => h.unique h') hmade hend
      with h | h
    · exact h
    · rcases h.cases_head with h | ⟨l', h, -⟩
      · rw [h]
      · exact absurd h (hlast l')
  rcases hafter.cases_head with h | ⟨l', h, hrest⟩
  · rw [← h] at hlast
    exact absurd hmoves (hlast _)
  · obtain rfl := h.unique hmoves
    refine Reaches.contains hrest ?_
    rw [contains_insert, decide_eq_true rfl, Bool.true_or]

end Loading

/-! ## 3. Chains of visits -/

/-- Loading comes to a visit whose module is not loaded. -/
def Made (disk : Disk) (root : String) (v : Visit) : Prop :=
  ∃ first s rest, firstVisit? disk root = some first ∧
    Loading.Reaches disk { pending := [first] } ⟨s, v :: rest⟩ ∧ s.contains v.module = false

/-- **An endless chain**: visits of loading from the first one on, each of a module that is declared
    in the file of the visit before it. -/
structure EndlessChain (disk : Disk) (root : String) (chain : ℕ → Visit) : Prop where
  first : firstVisit? disk root = some (chain 0)
  made : ∀ i, Made disk root (chain i)
  leads : ∀ i, (chain i).Leads disk (chain (i + 1))

namespace EndlessChain

variable {disk : Disk} {root : String} {chain : ℕ → Visit}

theorem injective_module (h : EndlessChain disk root chain) :
    Function.Injective fun i => (chain i).module := by
  have hgrows : StrictMono fun i => (chain i).module.length :=
    strictMono_nat_of_lt_succ fun i => (h.leads i).length_lt
  exact fun i j hij => hgrows.injective (congrArg String.length hij)

theorem isFile (h : EndlessChain disk root chain) (i : ℕ) : disk.isFile (chain i).file = true := by
  cases i with
  | zero => exact Visit.isFile_of_firstVisit? h.first
  | succ i => exact (h.leads i).isFile

/-- With an endless chain loading does not end. -/
theorem not_ends (h : EndlessChain disk root chain) :
    ¬ Loading.Ends disk { pending := [chain 0] } := by
  intro hends
  -- the state in which it ends has loaded every module of the chain
  have hlast : ∃ l, Loading.Reaches disk { pending := [chain 0] } l ∧
      ∀ l', ¬ Loading.Moves disk l l' := by
    rcases Loading.ends_iff.mp hends with ⟨s, hreaches⟩ | ⟨l, hreaches, hstuck⟩
    · exact ⟨_, hreaches, nofun⟩
    · exact ⟨l, hreaches, fun l' hmoves => Loading.not_moves_of_stuck hstuck hmoves⟩
  obtain ⟨l, hend, hlast⟩ := hlast
  have hloaded : ∀ i, (chain i).module ∈ l.sources.keys.toFinset := by
    intro i
    obtain ⟨first, s, rest, hfirst, hmade, hnew⟩ := h.made i
    rw [h.first] at hfirst
    cases hfirst
    obtain ⟨f, items, hreads, -⟩ := h.leads i
    have hcontains := Loading.contains_of_made hmade hnew hreads hend hlast
    exact List.mem_toFinset.mpr (Table.mem_keys_of_contains hcontains)
  obtain ⟨i, j, hne, hsame⟩ := Finite.exists_ne_map_eq_of_infinite
    fun i => (⟨(chain i).module, hloaded i⟩ : l.sources.keys.toFinset)
  exact hne (h.injective_module (Subtype.mk.inj hsame))

/-- An endless chain comes to a file for the second time. -/
theorem exists_same_file (h : EndlessChain disk root chain) :
    ∃ i j place, i < j ∧ disk.locate (chain i).file = .ok place ∧
      disk.locate (chain j).file = .ok place := by
  have hplace : ∀ i, ∃ place : disk.entries.keys.toFinset,
      disk.locate (chain i).file = .ok place.1 := by
    intro i
    obtain ⟨place, hlocate, hmem⟩ := Disk.exists_place_of_isFile (h.isFile i)
    exact ⟨⟨place, List.mem_toFinset.mpr hmem⟩, hlocate⟩
  choose place hlocate using hplace
  obtain ⟨i, j, hne, hsame⟩ := Finite.exists_ne_map_eq_of_infinite place
  rcases Nat.lt_or_gt_of_ne hne with hlt | hlt
  · exact ⟨i, j, place i, hlt, hlocate i, by rw [hsame]; exact hlocate j⟩
  · exact ⟨j, i, place j, hlt, hlocate j, by rw [← hsame]; exact hlocate i⟩

end EndlessChain

/-- A visit that is made and does not end, with the sources that were loaded before it. -/
def EndlessVisit (disk : Disk) (first : Visit) (p : SourceSet × Visit) : Prop :=
  (∃ rest, Loading.Reaches disk { pending := [first] } ⟨p.1, p.2 :: rest⟩) ∧
    ¬ Loading.Ends disk ⟨p.1, [p.2]⟩

/-- **Loading that does not end has an endless chain**: of the visits a file leads to, take the first
    that does not end. -/
theorem exists_endlessChain {disk : Disk} {root : String} {first : Visit}
    (hfirst : firstVisit? disk root = some first)
    (h : ¬ Loading.Ends disk { pending := [first] }) :
    ∃ chain, EndlessChain disk root chain := by
  have hnext : ∀ p : { p // EndlessVisit disk first p }, ∃ q : { q // EndlessVisit disk first q },
      p.1.2.Leads disk q.1.2 := by
    rintro ⟨⟨s, v⟩, ⟨rest, hreaches⟩, hendless⟩
    obtain ⟨-, w, hleads, s', rest', hrest, hendless'⟩ :=
      Loading.exists_leads_of_endless hendless rest
    exact ⟨⟨(s', w), ⟨rest', hreaches.trans hrest⟩, hendless'⟩, hleads⟩
  choose next hleads using hnext
  let start : { p // EndlessVisit disk first p } := ⟨(.empty, first), ⟨[], .refl⟩, h⟩
  let visits : ℕ → { p // EndlessVisit disk first p } := fun i => next^[i] start
  refine ⟨fun i => (visits i).1.2, hfirst, fun i => ?_, fun i => ?_⟩
  · obtain ⟨⟨s, v⟩, ⟨rest, hreaches⟩, hendless⟩ := visits i
    exact ⟨first, s, rest, hfirst, hreaches, (Loading.exists_leads_of_endless hendless rest).1⟩
  · have hsucc : visits (i + 1) = next (visits i) := Function.iterate_succ_apply' next i start
    show (visits i).1.2.Leads disk (visits (i + 1)).1.2
    rw [hsucc]
    exact hleads (visits i)

/-- **Loading ends** exactly if there is no endless chain of visits, each of a module declared in the
    file before it, and an endless chain comes to some file for the second time. -/
theorem load_ends_iff (disk : Disk) (root : String) :
    ((∃ steps result, SourceSet.load? disk root steps = some result) ↔
        ¬ ∃ chain, EndlessChain disk root chain) ∧
      ∀ chain, EndlessChain disk root chain → ∃ i j place, i < j ∧
        disk.locate (chain i).file = .ok place ∧ disk.locate (chain j).file = .ok place := by
  refine ⟨?_, fun chain h => h.exists_same_file⟩
  unfold SourceSet.load?
  cases hfirst : firstVisit? disk root with
  | none =>
    refine iff_of_true ⟨0, _, rfl⟩ ?_
    rintro ⟨chain, h⟩
    rw [h.first] at hfirst
    cases hfirst
  | some first =>
    change Loading.Ends disk { pending := [first] } ↔ _
    constructor
    · rintro hends ⟨chain, h⟩
      rw [h.first] at hfirst
      cases hfirst
      exact h.not_ends hends
    · intro hnone
      by_contra hends
      exact hnone (exists_endlessChain hfirst hends)

/-! ## 4. A file that names itself -/

/-- The text of a file that declares itself as a module. -/
def selfNamingText : String := "#[path = \"lib.rs\"]\nmod a;\n"

/-- A disk with this file. -/
def selfNamingDisk : Disk :=
  (({} : Disk).put ["src"] .directory).put ["src", "lib.rs"] (.file selfNamingText.toUTF8)

/-- The visit of the file for a module. -/
def selfNamingVisit (module : String) : Visit := ⟨module, "src/lib.rs", "src"⟩

/-- The file leads to itself, for a longer module. -/
theorem exists_reads_selfNaming (module : String) :
    ∃ f items, (selfNamingVisit module).Reads selfNamingDisk f items ∧
      (selfNamingVisit module).next selfNamingDisk items =
        [selfNamingVisit (within module "a")] := by
  have hread : (selfNamingDisk.readText "src/lib.rs").toOption = some selfNamingText := by
    decide +kernel
  have hfile : selfNamingDisk.isFile "src/lib.rs" = true := by decide +kernel
  have hdeclared : (Source.itemsOf selfNamingText).toOption.map
      (declarations (selfNamingVisit "").surroundings) = some [.named "src/lib.rs" "a"] := by
    decide +kernel
  obtain ⟨items, hitems, hnext⟩ := Option.map_eq_some_iff.mp hdeclared
  refine ⟨⟨"src/lib.rs", selfNamingText⟩, items, ⟨?_, eq_ok_of_toOption hitems⟩, ?_⟩
  · have htext : selfNamingDisk.readText (selfNamingVisit module).file = .ok selfNamingText :=
      eq_ok_of_toOption hread
    rw [Visit.source, htext]
    rfl
  · show (declarations (selfNamingVisit "").surroundings items).filterMap
      (·.visit? selfNamingDisk module) = _
    rw [hnext]
    simp only [List.filterMap_cons, ModuleDeclaration.visit?, ModuleDeclaration.named,
      List.find?_cons, hfile, Option.map_some, List.filterMap_nil]
    have hdir : submoduleDir "src/lib.rs" true = "src" := by decide
    rw [hdir]
    rfl

theorem run?_selfNaming (steps : Nat) {s : SourceSet} {module : String}
    (hshort : ∀ other, s.contains other = true → other.length < module.length) :
    Loading.run? selfNamingDisk steps ⟨s, [selfNamingVisit module]⟩ = none := by
  induction steps generalizing s module with
  | zero => rfl
  | succ n ih =>
    obtain ⟨f, items, hreads, hnext⟩ := exists_reads_selfNaming module
    have hnew : s.contains module = false := by
      rw [← Bool.not_eq_true]
      exact fun hloaded => Nat.lt_irrefl _ (hshort module hloaded)
    have hmoves : Loading.Moves selfNamingDisk ⟨s, [selfNamingVisit module]⟩ _ :=
      .made hnew hreads
    obtain ⟨hp, hstep⟩ := Loading.step_of_moves hmoves
    rw [Loading.run?, if_neg hp, hstep, hnext]
    refine ih fun other hloaded => ?_
    have hlonger : module.length < (within module "a").length :=
      length_lt_length_within module (by decide)
    change (s.insert module f).contains other = true at hloaded
    rw [Loading.contains_insert, Bool.or_eq_true, decide_eq_true_eq] at hloaded
    rcases hloaded with rfl | hloaded
    · exact hlonger
    · exact Nat.lt_trans (hshort other hloaded) hlonger

theorem load?_selfNaming (steps : Nat) : SourceSet.load? selfNamingDisk "src" steps = none := by
  have hfirst : firstVisit? selfNamingDisk "src" = some (selfNamingVisit "") := by decide +kernel
  rw [SourceSet.load?, hfirst]
  exact run?_selfNaming steps nofun

/-- There is an endless chain through a file that names itself. -/
theorem exists_endlessChain_selfNaming :
    ∃ chain, EndlessChain selfNamingDisk "src" chain ∧ ∃ i j place, i < j ∧
      selfNamingDisk.locate (chain i).file = .ok place ∧
      selfNamingDisk.locate (chain j).file = .ok place := by
  obtain ⟨hiff, hfiles⟩ := load_ends_iff selfNamingDisk "src"
  have hchain : ∃ chain, EndlessChain selfNamingDisk "src" chain := by
    by_contra hnone
    obtain ⟨steps, result, hload⟩ := hiff.mpr hnone
    rw [load?_selfNaming] at hload
    cases hload
  obtain ⟨chain, hchain⟩ := hchain
  exact ⟨chain, hchain, hfiles chain hchain⟩

/-- **A file that names itself is loaded without end.** -/
theorem not_ends_selfNaming :
    ¬ ∃ steps result, SourceSet.load? selfNamingDisk "src" steps = some result := by
  rintro ⟨steps, result, hload⟩
  rw [load?_selfNaming] at hload
  cases hload

end LogMarkers
