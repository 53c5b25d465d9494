import LogMarkers.Crate.Load
import LogMarkers.Proofs.Text.PathNames
import Mathlib.Logic.Relation

/-!
# How the sources of a crate are loaded

Loading goes from file to file: a visited file declares modules, and each of them whose file is there
is visited later. This file says what a file declares without going through its items in order, and
what one visit does; what every visit keeps then holds of every state of loading.

* `DeclaredIn`, `candidateFiles`: the modules that items declare elsewhere, and where they can stand;
* `mem_next_iff`: a file leads to the visits of exactly these modules;
* `Loading.Moves`: one visit, made or passed over;
* `Loading.ends_iff`: loading ends where nothing is left to visit, or at a file that cannot be read.
-/

namespace LogMarkers

open DiskPath PathText

/-! ## 1. Modules that are declared elsewhere -/

/-- Items declare a module with this name and these attributes whose items are in another file; the
    declaration stands in inline modules with these names, the outermost first. -/
inductive DeclaredIn : List Item → List String → String → List Attribute → Prop where
  | here {items : List Item} {name : Name} {attributes : List Attribute}
      (h : Item.fileModule name attributes ∈ items) : DeclaredIn items [] name.text attributes
  | inside {items contained : List Item} {inline : Name} {ignored : List Attribute}
      {names : List String} {name : String} {attributes : List Attribute}
      (h : Item.inlineModule inline ignored contained ∈ items)
      (hin : DeclaredIn contained names name attributes) :
      DeclaredIn items (inline.text :: names) name attributes

/-- Whether the file of a declared module is named: path attributes count outside of inline modules
    only. -/
def isNamedFile (names : List String) (attributes : List Attribute) : Bool :=
  names.isEmpty && (attributes.findSome? (·.filePath?)).isSome

/-- The files that can hold a module that is declared in `file`, where `dir` is the directory of the
    submodules of that file. -/
def candidateFiles (file dir : String) (names : List String) (name : String)
    (attributes : List Attribute) : List String :=
  match names, attributes.findSome? (·.filePath?) with
  | [], some path => [join ((parent? file).getD "") path]
  | _, _ => [join (names.foldl join dir) (name ++ ".rs"),
      join (join (names.foldl join dir) name) "mod.rs"]

namespace DeclaredIn

variable {items items' : List Item} {names : List String} {name : String}
  {attributes : List Attribute}

theorem mono (h : DeclaredIn items names name attributes) (hsub : items ⊆ items') :
    DeclaredIn items' names name attributes := by
  cases h with
  | here h => exact .here (hsub h)
  | inside h hin => exact .inside (hsub h) hin

theorem isName (h : DeclaredIn items names name attributes) : ∀ n ∈ names ++ [name], IsName n := by
  induction h with
  | here h =>
    intro n hn
    rw [List.mem_singleton.mp hn]
    exact Identifier.isName_text _
  | inside h hin ih =>
    intro n hn
    rcases List.mem_cons.mp hn with rfl | hn
    · exact Identifier.isName_text _
    · exact ih n hn

theorem ne_empty (h : DeclaredIn items names name attributes) : ∀ n ∈ names ++ [name], n ≠ "" :=
  fun n hn => (h.isName n hn).1

end DeclaredIn

/-- What surroundings make of a declaration in inline modules. -/
def Surroundings.declarationIn (s : Surroundings) : List String → String → List Attribute →
    ModuleDeclaration
  | [], name, attributes => s.declaration name attributes
  | inline :: names, name, attributes =>
    ((s.inside inline).declarationIn names name attributes).under inline

theorem declarations_eq_flatMap (s : Surroundings) (items : List Item) :
    declarations s items = items.flatMap (·.declarations s) := by
  induction items with
  | nil => rfl
  | cons i rest ih => rw [declarations, ih, List.flatMap_cons]

mutual

theorem Item.exists_declaredIn {d : ModuleDeclaration} : ∀ (i : Item) {s : Surroundings},
    d ∈ i.declarations s → ∃ names name attributes,
      DeclaredIn [i] names name attributes ∧ d = s.declarationIn names name attributes
  | .inlineModule inline ignored contained, s, h => by
    rw [Item.declarations] at h
    obtain ⟨d', hd', rfl⟩ := List.mem_map.mp h
    obtain ⟨names, name, attributes, hin, rfl⟩ := exists_declaredIn contained hd'
    exact ⟨_, name, attributes, .inside (List.mem_singleton_self _) hin, rfl⟩
  | .fileModule name attributes, s, h => by
    rw [Item.declarations, List.mem_singleton] at h
    exact ⟨[], _, attributes, .here (List.mem_singleton_self _), h⟩
  | .struct .., _, h | .union .., _, h | .enum .., _, h | .trait .., _, h | .impl .., _, h
  | .function .., _, h | .const .., _, h | .static .., _, h | .typeAlias .., _, h
  | .imports .., _, h | .externCrate .., _, h | .other, _, h => by
    simp [Item.declarations] at h

theorem exists_declaredIn {d : ModuleDeclaration} : ∀ (items : List Item) {s : Surroundings},
    d ∈ declarations s items → ∃ names name attributes,
      DeclaredIn items names name attributes ∧ d = s.declarationIn names name attributes
  | [], _, h => by simp [declarations] at h
  | i :: rest, s, h => by
    rw [declarations] at h
    rcases List.mem_append.mp h with h | h
    · obtain ⟨names, name, attributes, hin, hd⟩ := Item.exists_declaredIn i h
      exact ⟨names, name, attributes, hin.mono (by simp), hd⟩
    · obtain ⟨names, name, attributes, hin, hd⟩ := exists_declaredIn rest h
      exact ⟨names, name, attributes, hin.mono (by simp), hd⟩

end

/-- **The declarations of items** are those that stand in them, at any depth. -/
theorem mem_declarations_iff {s : Surroundings} {items : List Item} {d : ModuleDeclaration} :
    d ∈ declarations s items ↔ ∃ names name attributes,
      DeclaredIn items names name attributes ∧ d = s.declarationIn names name attributes := by
  refine ⟨exists_declaredIn items, ?_⟩
  rintro ⟨names, name, attributes, hin, rfl⟩
  induction hin generalizing s with
  | here h =>
    rw [declarations_eq_flatMap, List.mem_flatMap]
    exact ⟨_, h, by simp [Item.declarations, Surroundings.declarationIn]⟩
  | inside h hin ih =>
    rw [declarations_eq_flatMap, List.mem_flatMap]
    exact ⟨_, h, by rw [Item.declarations]; exact List.mem_map_of_mem ih⟩

/-! ## 2. Where a file leads -/

theorem within_within (a : String) {b : String} (hb : b ≠ "") (c : String) :
    within a (within b c) = within (within a b) c := by
  by_cases ha : a = ""
  · subst ha
    rw [within_empty, within_empty]
  · simp [within, ha, hb, String.append_assoc]

/-- The path of a module seen from outside the inline modules. -/
theorem within_foldr (module : String) {names : List String} (h : ∀ n ∈ names, n ≠ "")
    (name : String) :
    within module (names.foldr within name) = (names ++ [name]).foldl within module := by
  induction names generalizing module with
  | nil => rfl
  | cons n rest ih =>
    rw [List.foldr_cons, within_within module (h n List.mem_cons_self), List.cons_append,
      List.foldl_cons]
    exact ih _ fun m hm => h m (List.mem_cons_of_mem _ hm)

namespace Surroundings

variable {s : Surroundings}

theorem module_declarationIn (s : Surroundings) (names : List String) (name : String)
    (attributes : List Attribute) :
    (s.declarationIn names name attributes).module = names.foldr within name := by
  induction names generalizing s with
  | nil =>
    rw [declarationIn, declaration]
    split <;> rfl
  | cons inline rest ih => exact congrArg (within inline) (ih (s.inside inline))

/-- Within inline modules a module is looked for in the directory that their names lead to. -/
theorem declarationIn_inside (hs : s.fileDir = none) (names : List String) (name : String)
    (attributes : List Attribute) :
    (s.declarationIn names name attributes).candidates =
        [join (names.foldl join s.dir) (name ++ ".rs"),
          join (join (names.foldl join s.dir) name) "mod.rs"] ∧
      (s.declarationIn names name attributes).explicit = false := by
  induction names generalizing s with
  | nil =>
    rw [declarationIn, declaration, hs]
    exact ⟨rfl, rfl⟩
  | cons inline rest ih => exact ih (s := s.inside inline) rfl

end Surroundings

/-- What a visited file makes of a declaration in it. -/
theorem Visit.declarationIn_eq (v : Visit) (names : List String) (name : String)
    (attributes : List Attribute) :
    (v.surroundings.declarationIn names name attributes).candidates =
        candidateFiles v.file v.dir names name attributes ∧
      (v.surroundings.declarationIn names name attributes).explicit =
        isNamedFile names attributes := by
  cases names with
  | nil =>
    unfold Surroundings.declarationIn Surroundings.declaration candidateFiles isNamedFile
    unfold Visit.surroundings
    cases attributes.findSome? (·.filePath?) with
    | none => exact ⟨rfl, rfl⟩
    | some path => exact ⟨rfl, rfl⟩
  | cons inline rest =>
    exact Surroundings.declarationIn_inside (s := v.surroundings.inside inline) rfl rest name
      attributes

/-- **Where a file leads**: to the first file that is there for each module it declares. -/
theorem Visit.mem_next_iff {v w : Visit} {disk : Disk} {items : List Item} :
    w ∈ v.next disk items ↔ ∃ names name attributes, DeclaredIn items names name attributes ∧
      ∃ file, (candidateFiles v.file v.dir names name attributes).find? disk.isFile = some file ∧
        w = ⟨(names ++ [name]).foldl within v.module, file,
          submoduleDir file (isNamedFile names attributes)⟩ := by
  have hvisit : ∀ names name attributes, DeclaredIn items names name attributes →
      (v.surroundings.declarationIn names name attributes).visit? disk v.module =
        ((candidateFiles v.file v.dir names name attributes).find? disk.isFile).map fun file =>
          ⟨(names ++ [name]).foldl within v.module, file,
            submoduleDir file (isNamedFile names attributes)⟩ := by
    intro names name attributes hin
    obtain ⟨hcandidates, hexplicit⟩ := v.declarationIn_eq names name attributes
    rw [ModuleDeclaration.visit?, hcandidates, hexplicit, Surroundings.module_declarationIn,
      within_foldr _ fun n hn => hin.ne_empty n (List.mem_append_left _ hn)]
  rw [Visit.next, List.mem_filterMap]
  constructor
  · rintro ⟨d, hd, hw⟩
    obtain ⟨names, name, attributes, hin, rfl⟩ := mem_declarations_iff.mp hd
    rw [hvisit names name attributes hin] at hw
    obtain ⟨file, hfile, rfl⟩ := Option.map_eq_some_iff.mp hw
    exact ⟨names, name, attributes, hin, file, hfile, rfl⟩
  · rintro ⟨names, name, attributes, hin, file, hfile, rfl⟩
    refine ⟨_, mem_declarations_iff.mpr ⟨names, name, attributes, hin, rfl⟩, ?_⟩
    rw [hvisit names name attributes hin, hfile]
    rfl

/-- A declared module has a longer path than the one it is declared in. -/
theorem length_lt_of_declaredIn {items : List Item} {names : List String} {name : String}
    {attributes : List Attribute} (h : DeclaredIn items names name attributes) (module : String) :
    module.length < ((names ++ [name]).foldl within module).length := by
  have hname : name ≠ "" := h.ne_empty name (List.mem_append_right _ (List.mem_singleton_self _))
  have hnames : ∀ n ∈ names, n ≠ "" := fun n hn => h.ne_empty n (List.mem_append_left _ hn)
  clear h
  rw [List.foldl_append, List.foldl_cons, List.foldl_nil]
  induction names generalizing module with
  | nil => exact length_lt_length_within module hname
  | cons n rest ih =>
    have hfirst := length_lt_length_within module (hnames n List.mem_cons_self)
    have hrest := ih (within module n) fun m hm => hnames m (List.mem_cons_of_mem _ hm)
    exact Nat.lt_trans hfirst hrest

/-- The file of a visit can be read and has these items. -/
structure Visit.Reads (v : Visit) (disk : Disk) (f : SourceFile) (items : List Item) : Prop where
  source : v.source disk = .ok f
  items : Source.itemsOf f.text = .ok items

/-- A visit leads to another: its file can be read and declares the module of the other. -/
def Visit.Leads (disk : Disk) (v w : Visit) : Prop :=
  ∃ f items, v.Reads disk f items ∧ w ∈ v.next disk items

namespace Visit

variable {v w : Visit} {disk : Disk} {f f' : SourceFile} {items items' : List Item}

theorem Reads.unique (h : v.Reads disk f items) (h' : v.Reads disk f' items') :
    f' = f ∧ items' = items := by
  have hf : f' = f := by
    have := h'.source
    rw [h.source] at this
    cases this
    rfl
  subst hf
  have := h'.items
  rw [h.items] at this
  cases this
  exact ⟨rfl, rfl⟩

theorem Leads.length_lt (h : v.Leads disk w) : v.module.length < w.module.length := by
  obtain ⟨f, items, -, hw⟩ := h
  obtain ⟨names, name, attributes, hin, file, -, rfl⟩ := mem_next_iff.mp hw
  exact length_lt_of_declaredIn hin v.module

theorem Leads.isFile (h : v.Leads disk w) : disk.isFile w.file = true := by
  obtain ⟨f, items, -, hw⟩ := h
  obtain ⟨names, name, attributes, -, file, hfile, rfl⟩ := mem_next_iff.mp hw
  exact List.find?_some hfile

theorem isFile_of_firstVisit? {root : String} (h : firstVisit? disk root = some v) :
    disk.isFile v.file = true := by
  obtain ⟨file, hfile, rfl⟩ := Option.map_eq_some_iff.mp h
  exact List.find?_some hfile

end Visit

/-! ## 3. One visit -/

namespace Loading

/-- One visit: a module that is loaded is passed over, another one is read. -/
inductive Moves (disk : Disk) : Loading → Loading → Prop where
  | passed {s : SourceSet} {v : Visit} {rest : List Visit} (h : s.contains v.module = true) :
      Moves disk ⟨s, v :: rest⟩ ⟨s, rest⟩
  | made {s : SourceSet} {v : Visit} {rest : List Visit} {f : SourceFile} {items : List Item}
      (h : s.contains v.module = false) (hreads : v.Reads disk f items) :
      Moves disk ⟨s, v :: rest⟩ ⟨s.insert v.module f, (v.next disk items).reverse ++ rest⟩

/-- Any number of visits. -/
abbrev Reaches (disk : Disk) : Loading → Loading → Prop := Relation.ReflTransGen (Moves disk)

/-- Loading ends, with the sources or a failure. -/
def Ends (disk : Disk) (l : Loading) : Prop := ∃ steps result, l.run? disk steps = some result

/-- The next visit cannot be made: its file cannot be read. -/
def Stuck (disk : Disk) (l : Loading) : Prop :=
  ∃ v rest, l.pending = v :: rest ∧ l.sources.contains v.module = false ∧
    ∀ f items, ¬ v.Reads disk f items

variable {disk : Disk} {l l' l'' : Loading}

/-- **A step** is a visit, or the next file cannot be read. -/
theorem step_cases (disk : Disk) {v : Visit} {rest : List Visit} (h : l.pending = v :: rest) :
    (∃ l', l.step disk = .ok l' ∧ Moves disk l l') ∨
      (∃ e, l.step disk = .error e) ∧ Stuck disk l := by
  obtain ⟨s, pending⟩ := l
  subst h
  unfold step
  dsimp only
  by_cases hloaded : s.contains v.module = true
  · rw [if_pos hloaded]
    exact .inl ⟨_, rfl, .passed hloaded⟩
  · rw [if_neg hloaded]
    rw [Bool.not_eq_true] at hloaded
    have hstuck : (∀ f items, ¬ v.Reads disk f items) → Stuck disk ⟨s, v :: rest⟩ :=
      fun h => ⟨v, rest, rfl, hloaded, h⟩
    cases hsource : v.source disk with
    | error e =>
      refine .inr ⟨⟨e, rfl⟩, hstuck fun f items hreads => ?_⟩
      rw [hreads.source] at hsource
      cases hsource
    | ok f =>
      simp only [bind, Except.bind, SourceFile.parse]
      cases hitems : Source.itemsOf f.text with
      | error line =>
        refine .inr ⟨⟨_, rfl⟩, hstuck fun f' items hreads => ?_⟩
        have hf := hreads.source
        rw [hsource] at hf
        cases hf
        rw [hreads.items] at hitems
        cases hitems
      | ok items => exact .inl ⟨_, rfl, .made hloaded ⟨hsource, hitems⟩⟩

theorem step_of_moves (h : Moves disk l l') : l.pending ≠ [] ∧ l.step disk = .ok l' := by
  cases h with
  | passed h =>
    refine ⟨List.cons_ne_nil _ _, ?_⟩
    unfold step
    exact if_pos h
  | made h hreads =>
    refine ⟨List.cons_ne_nil _ _, ?_⟩
    unfold step
    dsimp only
    rw [h, if_neg Bool.false_ne_true, hreads.source]
    simp only [bind, Except.bind, SourceFile.parse, hreads.items]
    rfl

theorem Moves.unique (h : Moves disk l l') (h' : Moves disk l l'') : l' = l'' := by
  have := (step_of_moves h).2
  rw [(step_of_moves h').2] at this
  cases this
  rfl

theorem not_moves_of_stuck (h : Stuck disk l) (h' : Moves disk l l') : False := by
  obtain ⟨v, rest, hpending, hloaded, hreads⟩ := h
  cases h' with
  | passed h =>
    cases hpending
    rw [hloaded] at h
    cases h
  | made _ hread =>
    cases hpending
    exact hreads _ _ hread

/-! ## 4. Where loading ends -/

theorem run?_of_empty (h : l.pending = []) (steps : Nat) :
    l.run? disk steps = some (.ok l.sources) := by
  cases steps with
  | zero => rw [run?, if_pos h]
  | succ n => rw [run?, if_pos h]

/-- A run that ends has nothing left to visit, or is stuck. -/
theorem reaches_of_run? {steps : Nat} {result : Except Failure SourceSet}
    (h : l.run? disk steps = some result) :
    (∃ s, result = .ok s ∧ Reaches disk l ⟨s, []⟩) ∨
      (∃ e, result = .error e) ∧ ∃ l', Reaches disk l l' ∧ Stuck disk l' := by
  induction steps generalizing l with
  | zero =>
    by_cases hp : l.pending = []
    · rw [run?_of_empty hp] at h
      cases h
      refine .inl ⟨_, rfl, ?_⟩
      rw [← hp]
    · rw [run?, if_neg hp] at h
      cases h
  | succ n ih =>
    by_cases hp : l.pending = []
    · rw [run?_of_empty hp] at h
      cases h
      refine .inl ⟨_, rfl, ?_⟩
      rw [← hp]
    · obtain ⟨v, rest, hpending⟩ := List.exists_cons_of_ne_nil hp
      rw [run?, if_neg hp] at h
      rcases step_cases disk hpending with ⟨l', hstep, hmoves⟩ | ⟨⟨e, hstep⟩, hstuck⟩
      · rw [hstep] at h
        rcases ih h with ⟨s, hs, hreaches⟩ | ⟨he, l'', hreaches, hstuck⟩
        · exact .inl ⟨s, hs, .head hmoves hreaches⟩
        · exact .inr ⟨he, l'', .head hmoves hreaches, hstuck⟩
      · rw [hstep] at h
        cases h
        exact .inr ⟨⟨e, rfl⟩, l, .refl, hstuck⟩

theorem Ends.of_reaches (h : Reaches disk l l') (hends : Ends disk l') : Ends disk l := by
  induction h using Relation.ReflTransGen.head_induction_on with
  | refl => exact hends
  | head hmoves _ ih =>
    obtain ⟨steps, result, hrun⟩ := ih
    obtain ⟨hp, hstep⟩ := step_of_moves hmoves
    exact ⟨steps + 1, result, by rw [run?, if_neg hp, hstep]; exact hrun⟩

theorem Ends.of_stuck (h : Stuck disk l) : Ends disk l := by
  obtain ⟨v, rest, hpending, -⟩ := id h
  have hp : l.pending ≠ [] := by
    rw [hpending]
    exact List.cons_ne_nil _ _
  rcases step_cases disk hpending with ⟨l', -, hmoves⟩ | ⟨⟨e, hstep⟩, -⟩
  · exact (not_moves_of_stuck h hmoves).elim
  · exact ⟨1, .error e, by rw [run?, if_neg hp, hstep]⟩

/-- **Loading ends** where nothing is left to visit, or at a file that cannot be read. -/
theorem ends_iff :
    Ends disk l ↔ (∃ s, Reaches disk l ⟨s, []⟩) ∨ ∃ l', Reaches disk l l' ∧ Stuck disk l' := by
  constructor
  · rintro ⟨steps, result, hrun⟩
    rcases reaches_of_run? hrun with ⟨s, -, hreaches⟩ | ⟨-, hstuck⟩
    · exact .inl ⟨s, hreaches⟩
    · exact .inr hstuck
  · rintro (⟨s, hreaches⟩ | ⟨l', hreaches, hstuck⟩)
    · exact .of_reaches hreaches ⟨0, _, run?_of_empty rfl 0⟩
    · exact .of_reaches hreaches (.of_stuck hstuck)

end Loading

end LogMarkers
