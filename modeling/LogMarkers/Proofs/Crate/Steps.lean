import LogMarkers.Crate.Lowering
import LogMarkers.Proofs.Scope.WellFormed
import Mathlib.Logic.Relation

/-!
# The steps of lowering

Going through the items of a crate is a sequence of small steps: a node is added, a name is
declared, a path is imported, a module is entered. `Lowering.Step` lists them with all they are
given, and `steps_lower` says that a lowered crate is reached by them from nothing. What every step
keeps therefore holds of every lowered crate, and no proof of it has to look at the items again.

* What the sources give to the steps is collected in `Given`: the modules of files, and the paths
  that aliases and imports lead to (`links`).
* Names that are noted come from identifiers, and a node has a word for its name (`IsWord`) unless
  it stands for a file.
* Whatever is noted about a module is noted after the module has its scope, and a type is declared
  before it becomes a node (`Lowering.Ready`), an inline module before it is entered.
* What one item or one file brings about and steps keep holds at the end (`items_of_mem`,
  `files_of_mem`).
-/

namespace LogMarkers

open Text

/-! ## 1. Words -/

/-- A text in characters of identifiers. -/
def IsWord (text : String) : Prop := ∀ c ∈ text.toList, isContinue c = true

instance (text : String) : Decidable (IsWord text) :=
  List.decidableBAll (isContinue · = true) text.toList

theorem IsWord.append {a b : String} (ha : IsWord a) (hb : IsWord b) : IsWord (a ++ b) := by
  intro c hc
  rw [String.toList_append, List.mem_append] at hc
  exact hc.elim (ha c) (hb c)

theorem Identifier.isWord_text (i : Identifier) : IsWord i.text := by
  intro c hc
  exact i.continues c (by simpa [Identifier.text] using hc)

theorem isContinue_of_isDigit {c : Char} (h : c.isDigit = true) : isContinue c = true := by
  have hdigit : isDigit c = true := by
    simp only [Char.isDigit, Bool.and_eq_true, decide_eq_true_eq] at h
    simp only [isDigit, Bool.and_eq_true, decide_eq_true_eq]
    exact h
  simp [isContinue, hdigit]

/-- The position of a field is a word. -/
theorem isWord_toString (n : Nat) : IsWord (toString n) := by
  intro c hc
  refine isContinue_of_isDigit ?_
  have hmem : c ∈ Nat.toDigits 10 n := by simpa [Nat.repr] using hc
  exact Nat.isDigit_of_mem_toDigits (by decide) (by decide) hmem

/-- A name that is absent or a word. -/
def NodeContent.IsNamed (content : NodeContent) : Prop :=
  ∀ name ∈ content.name, IsWord name

namespace ScopeIndex

theorem mem_keys_iff_scope? {x : ScopeIndex} {module : String} :
    module ∈ x.modules.keys ↔ ∃ s, x.scope? module = some s :=
  ⟨fun h => Option.isSome_iff_exists.mp (contains_of_mem_keys h),
    fun ⟨_, hs⟩ => mem_keys_of_scope? hs⟩

@[simp] theorem scope?_alterScope (x : ScopeIndex) (module : String) (f : ModuleScope → ModuleScope)
    (other : String) :
    (x.alterScope module f).scope? other =
      if other = module then some (f ((x.scope? module).getD {})) else x.scope? other :=
  Table.get?_insert ..

@[simp] theorem moduleOf_recordNode (x : ScopeIndex) (i : NodeId) (module : String) (j : NodeId) :
    (x.recordNode i module).moduleOf j = if j = i then module else x.moduleOf j := by
  by_cases h : j = i <;> simp [moduleOf, recordNode, h]

theorem mem_keys_alterScope (x : ScopeIndex) (module : String) (f : ModuleScope → ModuleScope)
    {other : String} :
    other ∈ (x.alterScope module f).modules.keys ↔ other = module ∨ other ∈ x.modules.keys := by
  rw [mem_keys_iff_scope?, mem_keys_iff_scope?, scope?_alterScope]
  by_cases h : other = module <;> simp [h]

theorem alterScope_alterScope (x : ScopeIndex) (module : String)
    (f g : ModuleScope → ModuleScope) :
    (x.alterScope module f).alterScope module g = x.alterScope module fun s => g (f s) := by
  have hmodules : (x.modules.alter module {} f).alter module {} g =
      x.modules.alter module {} fun s => g (f s) := by
    apply Table.ext_get?
    intro other
    by_cases h : other = module <;> simp [Table.alter, h]
  unfold alterScope
  rw [hmodules]

/-- **Imports change the scope of their module at once**, unless there are none. -/
theorem addImports_eq (x : ScopeIndex) (module : String) (leadingColon : Bool)
    (imports : List Import) :
    x.addImports module leadingColon imports =
      if imports = [] then x else x.alterScope module (·.addImports leadingColon imports) := by
  induction imports generalizing x with
  | nil => rfl
  | cons i rest ih =>
    rw [if_neg (List.cons_ne_nil _ _)]
    show (x.alterScope module (i.addTo · leadingColon)).addImports module leadingColon rest = _
    rw [ih]
    split
    · rename_i hrest
      rw [hrest]
      rfl
    · rw [alterScope_alterScope]
      rfl

/-- Imports change nothing but scopes. -/
theorem addImports_eq_modules (x : ScopeIndex) (module : String) (leadingColon : Bool)
    (imports : List Import) :
    x.addImports module leadingColon imports =
      { x with modules := (x.addImports module leadingColon imports).modules } := by
  rw [addImports_eq]
  split <;> rfl

end ScopeIndex

/-! ## 2. What sources give -/

/-- The path that an import leads to. -/
def Import.path : Import → List String
  | .binding _ target => target
  | .everything source => source

mutual

/-- The paths that an item leads to: that of an alias, and those of imports, at any depth. -/
def Item.links : Item → List WrittenPath
  | .typeAlias _ (some target) => [target.written]
  | .imports leadingColon tree => (tree.imports []).map fun i => ⟨i.path, leadingColon⟩
  | .inlineModule _ _ contained => links contained
  | _ => []

/-- The paths that items lead to, in order. -/
def links : List Item → List WrittenPath
  | [] => []
  | i :: rest => i.links ++ links rest

end

/-- Some file of a source set leads to this path. -/
def SourceSet.Links (s : SourceSet) (path : WrittenPath) : Prop :=
  ∃ files, s.parse = .ok files ∧ ∃ f ∈ files, path ∈ links f.items

/-- The modules that files stand for, and the paths that aliases and imports lead to. -/
structure Given where
  file : String → Prop
  link : WrittenPath → Prop

/-- Any modules and any paths. -/
def Given.any : Given := ⟨fun _ => True, fun _ => True⟩

/-- What a source set gives. -/
def SourceSet.given (s : SourceSet) : Given := ⟨(· ∈ s.keys), s.Links⟩

namespace Lowering

/-! ## 3. Steps -/

/-- The modules that have a scope. -/
def known (l : Lowering) : List String := l.scopes.modules.keys

/-- What is the case when a node is added: its module has a scope, its name is a word, and a type is
    declared there. -/
structure Ready (l : Lowering) (module : String) (content : NodeContent) : Prop where
  known : module ∈ l.known
  named : content.IsNamed
  declared : content.kind.isTypeDeclaration = true → ∀ name ∈ content.name,
    (l.scopes.item? module name).isSome = true

/-- The node of a file. -/
def fileContent (module : String) : NodeContent :=
  { kind := .sourceFile, name := if module = "" then none else some module }

/-- One step of lowering, in which the sources give `G`. -/
inductive Step (G : Given) : Lowering → Lowering → Prop where
  /-- Start a file. -/
  | file (l : Lowering) {module : String} (hm : G.file module) :
      Step G l ((l.addModule module).openNode module (fileContent module))
  | leaf (l : Lowering) {module : String} {content : NodeContent} (h : l.Ready module content) :
      Step G l (l.leaf module content)
  | openNode (l : Lowering) {module : String} {content : NodeContent}
      (h : l.Ready module content) : Step G l (l.openNode module content)
  | close (l : Lowering) : Step G l l.close
  /-- Declare a name that is no alias. -/
  | declare (l : Lowering) {module : String} (hm : module ∈ l.known) (name : Identifier)
      (kind : ItemKind) (hk : ∀ target, kind ≠ .typeAlias target) :
      Step G l (l.declare module name.text kind)
  | aliased (l : Lowering) {module : String} (hm : module ∈ l.known) (name : Identifier)
      (target : SourcePath) (ht : G.link target.written) :
      Step G l (l.declare module name.text (.typeAlias target.written))
  | generic (l : Lowering) {module : String} (hm : module ∈ l.known) (name : Identifier) :
      Step G l { l with scopes := l.scopes.recordGeneric module name.text }
  /-- Enter an inline module, which is declared where it stands. -/
  | enter (l : Lowering) {module : String} (hm : module ∈ l.known) (name : Identifier)
      (hd : (l.scopes.item? module name.text).isSome = true) :
      Step G l (l.addModule (PathText.within module name.text))
  | selfType (l : Lowering) (i : NodeId) (target : SourcePath) :
      Step G l { l with scopes := l.scopes.recordImplTarget i target.written }
  | imports (l : Lowering) {module : String} (hm : module ∈ l.known) (leadingColon : Bool)
      (tree : UseTree) (ht : ∀ i ∈ tree.imports [], G.link ⟨i.path, leadingColon⟩) :
      Step G l { l with scopes :=
        l.scopes.alterScope module (·.addImports leadingColon (tree.imports [])) }
  /-- Another name for another crate. -/
  | renamed (l : Lowering) {module : String} (hm : module ∈ l.known) (name newName : Identifier) :
      Step G l { l with scopes := l.scopes.addImport module newName.text ⟨[name.text], true⟩ }

/-- Any number of steps. -/
abbrev Steps (G : Given) : Lowering → Lowering → Prop := Relation.ReflTransGen (Step G)

variable {G : Given} {l l' : Lowering}

/-- A step takes no scope away. -/
theorem Step.known_subset (h : Step G l l') : l.known ⊆ l'.known := by
  intro module hm
  cases h <;> first
    | exact hm
    | exact (ScopeIndex.mem_keys_alterScope _ _ _).mpr (.inr hm)

theorem Steps.known_subset (h : Steps G l l') : l.known ⊆ l'.known := by
  induction h with
  | refl => exact List.Subset.refl _
  | tail _ hs ih => exact List.Subset.trans ih hs.known_subset

/-! ## 4. Items take steps -/

theorem mem_known_addModule (l : Lowering) (module : String) :
    module ∈ (l.addModule module).known :=
  (ScopeIndex.mem_keys_alterScope _ _ _).mpr (.inl rfl)

theorem steps_declareType {module : String} (hm : module ∈ l.known) (name : Name)
    (generic : Bool) : Steps G l (l.declareType module name.text generic) := by
  have hdeclared : Steps G l (l.declare module name.text .nominal) :=
    .single (.declare l hm name.ident .nominal (by simp))
  unfold declareType
  cases generic with
  | false => exact hdeclared
  | true => exact hdeclared.tail (.generic _ (hdeclared.known_subset hm) name.ident)

/-- The declared name is found in its module. -/
theorem isSome_item?_declare (l : Lowering) (module name : String) (kind : ItemKind) :
    ((l.declare module name kind).scopes.item? module name).isSome = true := by
  show (((l.scopes.alterScope module _).scope? module).bind _).isSome = true
  simp

theorem isSome_item?_declareType (l : Lowering) (module name : String) (generic : Bool) :
    ((l.declareType module name generic).scopes.item? module name).isSome = true := by
  have hdeclared := isSome_item?_declare l module name .nominal
  cases generic with
  | false => exact hdeclared
  | true => exact hdeclared

/-- A node with a word for its name is ready, if it is no type or the type is declared. -/
theorem ready_content {p : Place} (hm : p.module ∈ l.known) (kind : NodeKind) {name : String}
    (h : IsWord name)
    (hd : kind.isTypeDeclaration = false ∨ (l.scopes.item? p.module name).isSome = true)
    (attributes : List Attribute) (line : Nat) :
    l.Ready p.module (p.content kind (some name) attributes line) where
  known := hm
  named other ho := by
    cases ho
    exact h
  declared hk other ho := by
    cases ho
    exact hd.resolve_left fun hno => by
      have hkind : kind.isTypeDeclaration = true := hk
      rw [hno] at hkind
      cases hkind

theorem steps_fields (p : Place) (hm : p.module ∈ l.known) (i : Nat) (fs : List Field) :
    Steps G l (fields p i fs l) := by
  induction fs generalizing i l with
  | nil => exact .refl
  | cons f rest ih =>
    have hname : IsWord ((f.name.map (·.text)).getD (toString i)) := by
      cases f.name with
      | none => exact isWord_toString i
      | some name => exact name.isWord_text
    have hstep : Step G l _ := .leaf l
      (ready_content hm .field hname (.inl rfl) f.attributes f.line)
    exact .head hstep (ih (hstep.known_subset hm) (i + 1))

theorem steps_members (p : Place) (hm : p.module ∈ l.known) (ms : List Member) :
    Steps G l (members p ms l) := by
  induction ms generalizing l with
  | nil => exact .refl
  | cons m rest ih =>
    have hkind : (memberNode m.kind).isTypeDeclaration = false := by cases m.kind <;> rfl
    have hstep : Step G l _ := .leaf l
      (ready_content hm _ m.name.ident.isWord_text (.inl hkind) m.attributes m.name.line)
    exact .head hstep (ih (hstep.known_subset hm))

/-- The block of an `impl`, with its self type noted where it is a plain path. -/
theorem steps_impl (p : Place) (hm : p.module ∈ l.known) (selfType : Option SourcePath)
    (line : Nat) (attributes : List Attribute) (ms : List Member) :
    Steps G l (item p (.impl selfType line attributes ms) l) := by
  have hnamed : (p.content .impl ((selfType.map (·.written)).bind (·.segments.getLast?))
      attributes line).IsNamed := by
    intro name hname
    obtain ⟨written, hw, hlast⟩ := Option.bind_eq_some_iff.mp hname
    obtain ⟨path, -, rfl⟩ := Option.map_eq_some_iff.mp hw
    obtain ⟨ident, -, rfl⟩ := List.mem_map.mp (List.mem_of_getLast? hlast)
    exact ident.isWord_text
  have hopened : Step G l _ := .openNode l ⟨hm, hnamed, fun hk => by cases hk⟩
  have hm' := hopened.known_subset hm
  refine .head hopened ?_
  unfold item
  cases selfType with
  | none => exact (steps_members p hm' ms).tail (.close _)
  | some path =>
    refine .head (.selfType _ l.builder.nextId path) ((steps_members p ?_ ms).tail (.close _))
    exact hm'

theorem steps_imports {p : Place} (hm : p.module ∈ l.known) (leadingColon : Bool) (tree : UseTree)
    (ht : ∀ i ∈ tree.imports [], G.link ⟨i.path, leadingColon⟩) :
    Steps G l (item p (.imports leadingColon tree) l) := by
  unfold item
  rw [ScopeIndex.addImports_eq]
  split
  · exact .refl
  · exact .single (.imports l hm leadingColon tree ht)

/-- A node is opened, what stands in it takes steps, and it is closed. -/
theorem steps_inside {module inner : String} (hinner : inner ∈ l.known)
    {content : NodeContent} (hready : l.Ready module content) {inside : Lowering → Lowering}
    (h : ∀ l' : Lowering, inner ∈ l'.known → Steps G l' (inside l')) :
    Steps G l (inside (l.openNode module content)).close :=
  .head (.openNode l hready) ((h (l.openNode module content) hinner).tail (.close _))

mutual

/-- **One item takes steps**, whatever it is. -/
theorem steps_item (p : Place) : ∀ (i : Item) {l : Lowering},
    (∀ path ∈ i.links, G.link path) → p.module ∈ l.known → Steps G l (item p i l)
  | .struct name generic attributes fs, l, _, hm | .union name generic attributes fs, l, _, hm => by
    have hdeclared : Steps G l _ := steps_declareType hm name generic
    have hm' := hdeclared.known_subset hm
    exact hdeclared.trans (steps_inside hm' (ready_content hm' _ name.ident.isWord_text
      (.inr (isSome_item?_declareType l p.module name.text generic)) _ _)
      fun _ hm => steps_fields p hm 0 fs)
  | .enum name generic attributes, l, _, hm => by
    have hdeclared : Steps G l _ := steps_declareType hm name generic
    exact hdeclared.tail (.leaf _ (ready_content (hdeclared.known_subset hm) _
      name.ident.isWord_text (.inr (isSome_item?_declareType l p.module name.text generic)) _ _))
  | .trait name attributes ms, l, _, hm => by
    have hdeclared : Step G l _ := .declare l hm name.ident .nominal (by simp)
    have hm' := hdeclared.known_subset hm
    exact .head hdeclared (steps_inside hm' (ready_content hm' _ name.ident.isWord_text
      (.inl rfl) _ _) fun _ hm => steps_members p hm ms)
  | .impl selfType line attributes ms, _, _, hm => steps_impl p hm selfType line attributes ms
  | .function name attributes, l, _, hm | .const name attributes, l, _, hm
  | .static name attributes, l, _, hm => by
    have hdeclared : Step G l _ := .declare l hm name.ident .value (by simp)
    exact .head hdeclared (.single (.leaf _ (ready_content (hdeclared.known_subset hm) _
      name.ident.isWord_text (.inl rfl) _ _)))
  | .typeAlias name (some target), l, hlinks, hm =>
    .single (.aliased l hm name.ident target (hlinks _ (List.mem_singleton_self _)))
  | .typeAlias name none, l, _, hm => .single (.declare l hm name.ident .nominal (by simp))
  | .inlineModule name attributes contained, l, hlinks, hm => by
    have hdeclared : Step G l _ := .declare l hm name.ident .submodule (by simp)
    have hm' := hdeclared.known_subset hm
    have hentered : Step G _ _ := .enter _ hm' name.ident (isSome_item?_declare ..)
    refine .head hdeclared (.head hentered ?_)
    exact steps_inside (mem_known_addModule _ _)
      (ready_content (hentered.known_subset hm') _ name.ident.isWord_text (.inl rfl) _ _)
      fun _ hm => steps_items (p.inside name.text) contained hlinks hm
  | .fileModule name _, l, _, hm => .single (.declare l hm name.ident .submodule (by simp))
  | .imports leadingColon tree, l, hlinks, hm =>
    steps_imports hm leadingColon tree fun i hi => hlinks _ (List.mem_map_of_mem hi)
  | .externCrate name none, _, _, _ => .refl
  | .externCrate name (some newName), l, _, hm => by
    unfold item
    dsimp only
    split
    · exact .refl
    · exact .single (.renamed l hm name newName)
  | .other, _, _, _ => .refl

/-- **Items take steps** one after the other. -/
theorem steps_items (p : Place) : ∀ (is : List Item) {l : Lowering},
    (∀ path ∈ links is, G.link path) → p.module ∈ l.known → Steps G l (items p is l)
  | [], _, _, _ => .refl
  | i :: rest, l, hlinks, hm => by
    have hfirst : ∀ path ∈ i.links, G.link path :=
      fun _ h => hlinks _ (List.mem_append_left _ h)
    have hrest : ∀ path ∈ links rest, G.link path :=
      fun _ h => hlinks _ (List.mem_append_right _ h)
    have hitem : Steps G l (item p i l) := steps_item p i hfirst hm
    exact hitem.trans (steps_items p rest hrest (hitem.known_subset hm))

end

/-- The sources give the module of this file and the paths that it leads to. -/
structure Gives (G : Given) (f : ParsedFile) : Prop where
  file : G.file f.module
  link : ∀ path ∈ links f.items, G.link path

theorem gives_any (f : ParsedFile) : Gives .any f := ⟨trivial, fun _ _ => trivial⟩

/-- A file takes steps, the first of which starts it. -/
theorem steps_file (l : Lowering) {f : ParsedFile} (hf : Gives G f) : Steps G l (l.file f) := by
  have hstart : Step G l _ := .file l hf.file
  have hm : f.module ∈ ((l.addModule f.module).openNode f.module (fileContent f.module)).known :=
    mem_known_addModule l f.module
  exact .head hstart ((steps_items ⟨f.module, f.fileName⟩ f.items hf.link hm).tail (.close _))

theorem steps_files (l : Lowering) {files : List ParsedFile} (hf : ∀ f ∈ files, Gives G f) :
    Steps G l (files.foldl file l) := by
  induction files generalizing l with
  | nil => exact .refl
  | cons f rest ih =>
    exact (steps_file l (hf f List.mem_cons_self)).trans
      (ih _ fun f' hf' => hf f' (List.mem_cons_of_mem _ hf'))

/-! ## 5. What one item or one file brings about -/

section OfMem

variable {P : Lowering → Prop}
  (hkeep : ∀ {l l' : Lowering}, Steps .any l l' → P l → P l')

include hkeep

/-- What steps keep and one of several items brings about holds after all of them. -/
theorem items_of_mem {p : Place} {i : Item}
    (h : ∀ l : Lowering, p.module ∈ l.known → P (item p i l)) {is : List Item} (hi : i ∈ is)
    (hm : p.module ∈ l.known) : P (items p is l) := by
  induction is generalizing l with
  | nil => cases hi
  | cons first rest ih =>
    have hfirst : Steps .any l (item p first l) := steps_item p first (fun _ _ => trivial) hm
    have hm' := hfirst.known_subset hm
    unfold items
    rcases List.mem_cons.mp hi with rfl | hi
    · exact hkeep (steps_items p rest (fun _ _ => trivial) hm') (h l hm)
    · exact ih hi hm'

/-- What steps keep and one of several files brings about holds after all of them. -/
theorem files_of_mem {f : ParsedFile} (h : ∀ l : Lowering, P (l.file f)) {files : List ParsedFile}
    (hf : f ∈ files) (l : Lowering) : P (files.foldl file l) := by
  induction files generalizing l with
  | nil => cases hf
  | cons first rest ih =>
    rw [List.foldl_cons]
    rcases List.mem_cons.mp hf with rfl | hf
    · exact hkeep (steps_files _ fun f _ => gives_any f) (h l)
    · exact ih hf _

end OfMem

/-! ## 6. The files of a source set -/

theorem parse_eq_ok_iff {f : SourceFile} {module : String} {parsed : ParsedFile} :
    f.parse module = .ok parsed ↔ parsed.module = module ∧ parsed.fileName = f.fileName ∧
      Source.itemsOf f.text = .ok parsed.items := by
  obtain ⟨module', fileName, items⟩ := parsed
  unfold SourceFile.parse
  cases Source.itemsOf f.text with
  | error line => simp
  | ok items' => simp [eq_comm]

/-- Results that are all there: those of the elements, and each element has one. -/
theorem mem_iff_of_mapM_ok {ε α β : Type} {f : α → Except ε β} {l : List α} {ys : List β}
    (h : l.mapM f = .ok ys) :
    (∀ y, y ∈ ys ↔ ∃ x ∈ l, f x = .ok y) ∧ ∀ x ∈ l, ∃ y, f x = .ok y := by
  induction l generalizing ys with
  | nil =>
    cases h
    simp
  | cons x rest ih =>
    rw [List.mapM_cons] at h
    cases hfirst : f x with
    | error e =>
      rw [hfirst] at h
      cases h
    | ok first =>
      cases hrest : rest.mapM f with
      | error e =>
        rw [hfirst, hrest] at h
        cases h
      | ok others =>
        rw [hfirst, hrest] at h
        cases h
        obtain ⟨hmem, hall⟩ := ih hrest
        refine ⟨fun y => by simp [hmem, hfirst, eq_comm], fun z hz => ?_⟩
        rcases List.mem_cons.mp hz with rfl | hz
        · exact ⟨first, hfirst⟩
        · exact hall z hz

/-- **The files that have been read** are those of the source set, each for its module. -/
theorem mem_parse_iff {s : SourceSet} {files : List ParsedFile} (h : s.parse = .ok files)
    {parsed : ParsedFile} : parsed ∈ files ↔ ∃ f, s.get? parsed.module = some f ∧
      parsed.fileName = f.fileName ∧ Source.itemsOf f.text = .ok parsed.items := by
  rw [(mem_iff_of_mapM_ok h).1]
  constructor
  · rintro ⟨⟨module, f⟩, hmem, hparse⟩
    obtain ⟨rfl, hrest⟩ := parse_eq_ok_iff.mp hparse
    exact ⟨f, Table.lookup_of_mem s.sorted hmem, hrest⟩
  · rintro ⟨f, hget, hrest⟩
    exact ⟨(parsed.module, f), Table.mem_of_lookup hget, parse_eq_ok_iff.mpr ⟨rfl, hrest⟩⟩

/-- A lowered crate is that of the files of its source set. -/
theorem exists_parse_of_lower {s : SourceSet} {c : LoweredCrate} (h : s.lower = .ok c) :
    ∃ files, s.parse = .ok files ∧ c = lowerFiles files := by
  unfold SourceSet.lower at h
  cases hparse : s.parse with
  | error failure =>
    rw [hparse] at h
    cases h
  | ok files =>
    rw [hparse] at h
    cases h
    exact ⟨files, rfl, rfl⟩

theorem mem_keys_iff_of_parse {s : SourceSet} {files : List ParsedFile} (h : s.parse = .ok files)
    {module : String} : module ∈ s.keys ↔ ∃ f ∈ files, f.module = module := by
  constructor
  · intro hm
    obtain ⟨⟨_, source⟩, hentry, rfl⟩ := List.mem_map.mp hm
    obtain ⟨parsed, hparsed⟩ := (mem_iff_of_mapM_ok h).2 _ hentry
    exact ⟨parsed, ((mem_iff_of_mapM_ok h).1 parsed).mpr ⟨_, hentry, hparsed⟩,
      (parse_eq_ok_iff.mp hparsed).1⟩
  · rintro ⟨f, hf, rfl⟩
    obtain ⟨source, hget, -⟩ := (mem_parse_iff h).mp hf
    exact List.mem_map.mpr ⟨_, Table.mem_of_lookup hget, rfl⟩

/-- **A lowered crate is reached from nothing by steps**, with what its sources give. -/
theorem steps_lower {s : SourceSet} {c : LoweredCrate} (h : s.lower = .ok c) :
    ∃ l, Steps s.given {} l ∧ c = l.finish := by
  obtain ⟨files, hparse, rfl⟩ := exists_parse_of_lower h
  have hgives : ∀ f ∈ files, Gives s.given f := fun f hf =>
    ⟨(mem_keys_iff_of_parse hparse).mpr ⟨f, hf, rfl⟩, fun _ hlink => ⟨files, hparse, f, hf, hlink⟩⟩
  exact ⟨_, steps_files {} hgives, rfl⟩

end Lowering

end LogMarkers
