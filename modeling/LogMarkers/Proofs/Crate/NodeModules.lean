import LogMarkers.Proofs.Crate.Steps
import LogMarkers.Proofs.Tree.Nesting
import Mathlib.Data.List.Basic

/-!
# The tree and the scopes of a crate agree

Lowering notes about every node the module it stands in, and puts the node under those that are
open. The two accounts are kept apart: the module is handed down from item to item, the open nodes
are a stack. This file shows that they say the same.

* `Tree.moduleNames`, `Tree.EndsInFile`: what the nodes around a node say about its module;
* `StandsIn`: a node stands where they say;
* `Lowering.At`: the open nodes lead to the place that items are handed;
* `Lowering.Adds`: from there, lowering adds nodes that stand where they should, under the open
  nodes, and closes what it opens. `adds_item` shows this of every item;
* `nodes_stand_in_their_modules`: what holds of every node of a lowered crate.
-/

namespace LogMarkers

open PathText

/-! ## 1. What the nodes around a node say -/

/-- The name that a node adds to the module path of the nodes inside it. -/
def NodeContent.moduleName? (c : NodeContent) : Option String :=
  if c.kind = .inlineModule then c.name else none

/-- If the content is said to be anywhere, then in this file. -/
def NodeContent.LocatedIn (c : NodeContent) (file : String) : Prop :=
  ∀ location ∈ c.location, location.file = file

/-- The name that a node adds to the module path of the nodes inside it. -/
def Node.moduleName? (n : Node) : Option String :=
  if n.kind = .inlineModule then n.name else none

namespace Tree

/-- The names of the inline modules among nodes that are given from the innermost one on; the
    outermost name comes first. -/
def moduleNames (t : Tree) (chain : List NodeId) : List String :=
  chain.reverse.filterMap fun i => (t.node? i).bind (·.moduleName?)

/-- The last of these nodes stands for the file of a module. -/
def EndsInFile (t : Tree) (chain : List NodeId) (module : String) : Prop :=
  ∃ top root, chain.getLast? = some top ∧ t.node? top = some root ∧ root.kind = .sourceFile ∧
    root.name.getD "" = module

namespace Extends

variable {t t' : Tree}

theorem moduleNames (h : t.Extends t') {chain : List NodeId} (hchain : ∀ i ∈ chain, i < t.size) :
    t'.moduleNames chain = t.moduleNames chain := by
  unfold Tree.moduleNames
  refine List.filterMap_congr fun i hi => ?_
  rw [h.node? (hchain i (List.mem_reverse.mp hi))]

theorem endsInFile (h : t.Extends t') {chain : List NodeId} {module : String}
    (he : t.EndsInFile chain module) : t'.EndsInFile chain module := by
  obtain ⟨top, root, hlast, hroot, hfile⟩ := he
  exact ⟨top, root, hlast, h top root hroot, hfile⟩

end Extends

end Tree

theorem TreeBuilder.moduleNames_grow (b : TreeBuilder) (c : NodeContent) :
    (b.grow c).moduleNames (b.nextId :: b.opened) =
      b.tree.moduleNames b.opened ++ c.moduleName?.toList := by
  have hold := (b.extends_grow c).moduleNames b.opened_lt
  unfold Tree.moduleNames at hold ⊢
  have hnew : ((b.grow c).node? b.nextId).bind (·.moduleName?) = c.moduleName? := by
    rw [node?_grow, if_pos rfl]
    rfl
  rw [List.reverse_cons, List.filterMap_append, hold, List.filterMap_cons, hnew]
  cases c.moduleName? <;> rfl

/-- A node stands in the module that the file and the inline modules around it lead to, and is said
    to be in that file. `R` relates the modules of files to the names of these. -/
def StandsIn (R : String → String → Prop) (x : ScopeIndex) (t : Tree) (i : NodeId) (n : Node) :
    Prop :=
  ∃ module file, t.EndsInFile (i :: t.ancestors i) module ∧ R module file ∧
    x.moduleOf i = (t.moduleNames (t.ancestors i)).foldl within module ∧
    ∀ location ∈ n.location, location.file = file

theorem StandsIn.mono {R : String → String → Prop} {x x' : ScopeIndex} {t t' : Tree} {i : NodeId}
    {n : Node} (h : StandsIn R x t i n) (ht : t.Extends t') (hi : i < t.size)
    (hmodule : x'.moduleOf i = x.moduleOf i) : StandsIn R x' t' i n := by
  obtain ⟨module, file, hends, hfile, hstands, hlocation⟩ := h
  have hancestors := ht.ancestors hi
  refine ⟨module, file, ?_, hfile, ?_, hlocation⟩
  · rw [hancestors]
    exact ht.endsInFile hends
  · have hbelow : ∀ j ∈ t.ancestors i, j < t.size :=
      fun j hj => Nat.lt_trans (Tree.lt_of_mem_ancestors hj) hi
    rw [hmodule, hancestors, ht.moduleNames hbelow, hstands]

namespace ScopeIndex

theorem moduleOf_congr {x x' : ScopeIndex} (h : x'.nodeModules = x.nodeModules) (i : NodeId) :
    x'.moduleOf i = x.moduleOf i := by
  rw [moduleOf, h]
  rfl

end ScopeIndex

namespace Lowering

/-! ## 2. Nodes that are added -/

section

variable (R : String → String → Prop)

/-- All nodes stand where they should, and the open ones are nested. -/
structure Sound (l : Lowering) : Prop where
  nested : l.builder.Nested
  stands : ∀ i n, l.builder.tree.node? i = some n → StandsIn R l.scopes l.builder.tree i n

/-- The open nodes lead to this place. -/
def At (l : Lowering) (p : Place) : Prop :=
  ∃ module, l.builder.tree.EndsInFile l.builder.opened module ∧ R module p.file ∧
    p.module = (l.builder.tree.moduleNames l.builder.opened).foldl within module

/-- Nodes were added under the open ones, which are the same as before. -/
structure Continues (l l' : Lowering) : Prop where
  opened : l'.builder.opened = l.builder.opened
  extends_ : l.builder.tree.Extends l'.builder.tree

/-- What is done at a place adds nodes that stand where they should, and leaves open what was. -/
def Adds (p : Place) (l l' : Lowering) : Prop :=
  l.Sound R → l.At R p → l'.Sound R ∧ Continues l l'

end

variable {R : String → String → Prop} {l l' l'' : Lowering} {p : Place}

theorem At.mono (h : l.At R p) (hl : Continues l l') : l'.At R p := by
  obtain ⟨module, hends, hfile, hmodule⟩ := h
  refine ⟨module, ?_, hfile, ?_⟩
  · rw [hl.opened]
    exact hl.extends_.endsInFile hends
  · rw [hl.opened, hl.extends_.moduleNames l.builder.opened_lt, hmodule]

namespace Adds

theorem refl (p : Place) (l : Lowering) : Adds R p l l :=
  fun hl _ => ⟨hl, rfl, .refl _⟩

theorem trans (h : Adds R p l l') (h' : Adds R p l' l'') : Adds R p l l'' := by
  intro hl hat
  obtain ⟨hl', hcontinues⟩ := h hl hat
  obtain ⟨hl'', hcontinues'⟩ := h' hl' (hat.mono hcontinues)
  exact ⟨hl'', hcontinues'.opened.trans hcontinues.opened,
    hcontinues.extends_.trans hcontinues'.extends_⟩

/-- Notes about names add no node. -/
theorem of_same (hbuilder : l'.builder = l.builder)
    (hnodes : l'.scopes.nodeModules = l.scopes.nodeModules) : Adds R p l l' := by
  intro hl _
  have hcontinues : Continues l l' := ⟨by rw [hbuilder], hbuilder ▸ .refl _⟩
  refine ⟨⟨hbuilder ▸ hl.nested, fun i n hn => ?_⟩, hcontinues⟩
  rw [hbuilder] at hn ⊢
  exact (hl.stands i n hn).mono (.refl _) (Tree.lt_size_of_node? hn)
    (ScopeIndex.moduleOf_congr hnodes i)

end Adds

/-- **A node that is added stands where the open nodes lead to.** `hnew` says this of the new node,
    all others stay where they are. -/
theorem Sound.stands_grow (hl : l.Sound R) {module : String} {content : NodeContent}
    (hnew : StandsIn R (l.scopes.recordNode l.builder.nextId module) (l.builder.grow content)
      l.builder.nextId (content.toNode l.builder.opened.head?)) (i : NodeId) (n : Node)
    (hn : (l.builder.grow content).node? i = some n) :
    StandsIn R (l.scopes.recordNode l.builder.nextId module) (l.builder.grow content) i n := by
  rw [TreeBuilder.node?_grow] at hn
  split at hn
  · rename_i hi
    cases hn
    exact hi ▸ hnew
  · rename_i hi
    refine (hl.stands i n hn).mono (l.builder.extends_grow content) (Tree.lt_size_of_node? hn) ?_
    rw [ScopeIndex.moduleOf_recordNode, if_neg hi]

theorem getLast?_cons_of_some {α : Type} {l : List α} {a : α} (h : l.getLast? = some a) (b : α) :
    (b :: l).getLast? = some a := by
  cases l with
  | nil => cases h
  | cons c rest => exact h

/-- The new node of a place. -/
theorem At.standsIn (hat : l.At R p) (hl : l.Sound R) {content : NodeContent}
    (hlocation : content.LocatedIn p.file) :
    StandsIn R (l.scopes.recordNode l.builder.nextId p.module) (l.builder.grow content)
      l.builder.nextId (content.toNode l.builder.opened.head?) := by
  have hextends := l.builder.extends_grow content
  obtain ⟨module, ⟨top, root, hlast, hroot, hkind⟩, hfile, hmodule⟩ := hat
  refine ⟨module, p.file, ?_, hfile, ?_, hlocation⟩
  · rw [hl.nested.ancestors_grow]
    exact ⟨top, root, getLast?_cons_of_some hlast _, hextends top root hroot, hkind⟩
  · rw [hl.nested.ancestors_grow, hextends.moduleNames l.builder.opened_lt, ← hmodule,
      ScopeIndex.moduleOf_recordNode, if_pos rfl]

theorem adds_leaf (p : Place) (l : Lowering) {content : NodeContent}
    (hlocation : content.LocatedIn p.file) :
    Adds R p l (l.leaf p.module content) := by
  intro hl hat
  exact ⟨⟨hl.nested.leaf content, hl.stands_grow (hat.standsIn hl hlocation)⟩, rfl,
    l.builder.extends_grow content⟩

/-- The place inside a node that was opened: one name further in an inline module. -/
theorem At.openNode (hat : l.At R p) {module : String} {content : NodeContent} {inner : Place}
    (hfile : inner.file = p.file)
    (hmodule : inner.module = content.moduleName?.toList.foldl within p.module) :
    (l.openNode module content).At R inner := by
  obtain ⟨root, ⟨top, node, hlast, hnode, hkind⟩, hregistered, hplace⟩ := hat
  refine ⟨root, ⟨top, node, getLast?_cons_of_some hlast _, l.builder.extends_grow content top node
    hnode, hkind⟩, hfile ▸ hregistered, ?_⟩
  show _ = ((l.builder.grow content).moduleNames (l.builder.nextId :: l.builder.opened)).foldl _ _
  rw [TreeBuilder.moduleNames_grow, List.foldl_append, ← hplace, hmodule]

/-- **A node with what stands in it.** The node is opened, things are done inside, it is closed. -/
theorem adds_inside (p inner : Place) (l : Lowering) {content : NodeContent}
    (hlocation : content.LocatedIn p.file) (hfile : inner.file = p.file)
    (hmodule : inner.module = content.moduleName?.toList.foldl within p.module)
    {inside : Lowering → Lowering} (h : ∀ l' : Lowering, Adds R inner l' (inside l')) :
    Adds R p l (inside (l.openNode p.module content)).close := by
  intro hl hat
  have hopened : (l.openNode p.module content).Sound R :=
    ⟨hl.nested.openNode content, hl.stands_grow (hat.standsIn hl hlocation)⟩
  obtain ⟨hinside, hcontinues⟩ := h _ hopened (hat.openNode hfile hmodule)
  refine ⟨⟨hinside.nested.close, hinside.stands⟩, ?_, ?_⟩
  · show (inside (l.openNode p.module content)).builder.opened.tail = _
    rw [hcontinues.opened]
    rfl
  · exact (l.builder.extends_grow content).trans hcontinues.extends_

/-! ## 3. Items -/

theorem locatedIn_content {p : Place} {kind : NodeKind} {name : Option String}
    {attributes : List Attribute} {line : Nat} :
    (p.content kind name attributes line).LocatedIn p.file := by
  intro location hl
  cases hl
  rfl

theorem adds_declareType (p : Place) (l : Lowering) (name : String) (generic : Bool) :
    Adds R p l (l.declareType p.module name generic) := by
  cases generic with
  | false => exact .of_same rfl rfl
  | true => exact .of_same rfl rfl

theorem adds_declare (p : Place) (l : Lowering) (name : String) (kind : ItemKind) :
    Adds R p l (l.declare p.module name kind) := .of_same rfl rfl

theorem adds_fields (p : Place) (i : Nat) (fs : List Field) (l : Lowering) :
    Adds R p l (fields p i fs l) := by
  induction fs generalizing i l with
  | nil => exact .refl p l
  | cons f rest ih =>
    unfold fields
    exact (adds_leaf p l locatedIn_content).trans (ih (i + 1) _)

theorem adds_members (p : Place) (ms : List Member) (l : Lowering) :
    Adds R p l (members p ms l) := by
  induction ms generalizing l with
  | nil => exact .refl p l
  | cons m rest ih =>
    unfold members
    exact (adds_leaf p l locatedIn_content).trans (ih _)

/-- The block of an `impl`, with its self type noted where it is a plain path. -/
theorem adds_impl (p : Place) (selfType : Option SourcePath) (line : Nat)
    (attributes : List Attribute) (ms : List Member) (l : Lowering) :
    Adds R p l (item p (.impl selfType line attributes ms) l) := by
  unfold item
  cases selfType with
  | none => exact adds_inside p p l locatedIn_content rfl rfl (adds_members p ms)
  | some path =>
    let noted (l' : Lowering) : Lowering :=
      { l' with scopes := l'.scopes.recordImplTarget l.builder.nextId path.written }
    have hinside : ∀ l' : Lowering, Adds R p l' (members p ms (noted l')) := by
      intro l'
      have hnoted : Adds R p l' (noted l') := .of_same rfl rfl
      exact hnoted.trans (adds_members p ms (noted l'))
    exact adds_inside p p l locatedIn_content rfl rfl hinside

mutual

/-- **One item adds nodes that stand where they should**, whatever it is. -/
theorem adds_item (p : Place) : ∀ (i : Item) (l : Lowering), Adds R p l (item p i l)
  | .struct name generic attributes fs, l | .union name generic attributes fs, l => by
    unfold item
    exact (adds_declareType p l name.text generic).trans
      (adds_inside p p _ locatedIn_content rfl rfl (adds_fields p 0 fs))
  | .enum name generic attributes, l => by
    unfold item
    exact (adds_declareType p l name.text generic).trans (adds_leaf p _ locatedIn_content)
  | .trait name attributes ms, l => by
    unfold item
    exact (adds_declare p l name.text .nominal).trans
      (adds_inside p p _ locatedIn_content rfl rfl (adds_members p ms))
  | .impl selfType line attributes ms, l => adds_impl p selfType line attributes ms l
  | .function name attributes, l | .const name attributes, l | .static name attributes, l => by
    unfold item
    exact (adds_declare p l name.text .value).trans (adds_leaf p _ locatedIn_content)
  | .typeAlias name target, l => adds_declare p l name.text _
  | .inlineModule name attributes contained, l => by
    unfold item
    have hentered : Adds R p l ((l.declare p.module name.text .submodule).addModule
        (p.inside name.text).module) := .of_same rfl rfl
    exact hentered.trans (adds_inside p (p.inside name.text) _ locatedIn_content rfl rfl
      (adds_items (p.inside name.text) contained))
  | .fileModule name _, l => adds_declare p l name.text .submodule
  | .imports _ _, _ =>
    .of_same rfl (congrArg (·.nodeModules) (ScopeIndex.addImports_eq_modules ..))
  | .externCrate name rename, l => by
    unfold item
    cases rename with
    | none => exact .refl p l
    | some newName =>
      dsimp only
      split
      · exact .refl p l
      · exact .of_same rfl rfl
  | .other, l => .refl p l

/-- **Items add nodes that stand where they should.** -/
theorem adds_items (p : Place) : ∀ (is : List Item) (l : Lowering), Adds R p l (items p is l)
  | [], l => .refl p l
  | i :: rest, l => by
    unfold items
    exact (adds_item p i l).trans (adds_items p rest _)

end

/-! ## 4. Files -/

/-- **A file adds its node and what stands in it**, if no node is open. -/
theorem sound_file (hl : l.Sound R) (hopened : l.builder.opened = []) {f : ParsedFile}
    (hf : R f.module f.fileName) :
    (l.file f).Sound R ∧ (l.file f).builder.opened = [] := by
  let entered := l.addModule f.module
  let started := entered.openNode f.module (fileContent f.module)
  let p : Place := ⟨f.module, f.fileName⟩
  have hentered : entered.Sound R := ⟨hl.nested, fun i n hn => (hl.stands i n hn).mono (.refl _)
    (Tree.lt_size_of_node? hn) (ScopeIndex.moduleOf_congr rfl i)⟩
  have hnode : started.builder.tree.node? l.builder.nextId =
      some ((fileContent f.module).toNode l.builder.opened.head?) := by
    show (l.builder.grow (fileContent f.module)).node? l.builder.nextId = _
    rw [TreeBuilder.node?_grow, if_pos rfl]
  have hends : started.builder.tree.EndsInFile [l.builder.nextId] f.module := by
    refine ⟨_, _, rfl, hnode, rfl, ?_⟩
    show (if f.module = "" then none else some f.module).getD "" = f.module
    split
    · rename_i hroot
      exact hroot.symm
    · rfl
  have hancestors : started.builder.tree.ancestors l.builder.nextId = [] :=
    hopened ▸ hl.nested.ancestors_grow (fileContent f.module)
  -- the node of the file is the only one on the way to itself
  have hstands : StandsIn R started.scopes started.builder.tree l.builder.nextId
      ((fileContent f.module).toNode l.builder.opened.head?) := by
    refine ⟨f.module, f.fileName, hancestors ▸ hends, hf, ?_, fun _ h => by cases h⟩
    rw [hancestors]
    exact (ScopeIndex.moduleOf_recordNode ..).trans (if_pos rfl)
  have hstarted : started.Sound R :=
    ⟨hl.nested.openNode _, hentered.stands_grow hstands⟩
  have hat : started.At R p := by
    refine ⟨f.module, ?_, hf, ?_⟩
    · show started.builder.tree.EndsInFile (l.builder.nextId :: l.builder.opened) f.module
      rw [hopened]
      exact hends
    · show f.module = ((l.builder.grow (fileContent f.module)).moduleNames
        (l.builder.nextId :: l.builder.opened)).foldl within f.module
      rw [TreeBuilder.moduleNames_grow, hopened]
      rfl
  obtain ⟨hsound, hcontinues⟩ := adds_items p f.items started hstarted hat
  refine ⟨⟨hsound.nested.close, hsound.stands⟩, ?_⟩
  show (items p f.items started).builder.opened.tail = []
  rw [hcontinues.opened]
  exact hopened

theorem sound_files {files : List ParsedFile} (hf : ∀ f ∈ files, R f.module f.fileName)
    (hl : l.Sound R) (hopened : l.builder.opened = []) : (files.foldl file l).Sound R := by
  induction files generalizing l with
  | nil => exact hl
  | cons f rest ih =>
    obtain ⟨hfile, hclosed⟩ := sound_file hl hopened (hf f List.mem_cons_self)
    exact ih (fun f' hf' => hf f' (List.mem_cons_of_mem _ hf')) hfile hclosed

theorem sound_empty : Sound R {} where
  nested := TreeBuilder.nested_empty
  stands _ _ h := by cases h

end Lowering

/-- **The tree and the scopes of a lowered crate agree.** The topmost of a node and its ancestors is
    the node of a file; the module noted for the node is that of this file, and inside it the inline
    modules among the ancestors, the outermost first; and a location names the file of the source
    set that stands for the module of this file. -/
theorem nodes_stand_in_their_modules {s : SourceSet} {c : LoweredCrate} (h : s.lower = .ok c)
    {i : NodeId} {n : Node} (hn : c.tree.node? i = some n) :
    ∃ module source, c.tree.EndsInFile (i :: c.tree.ancestors i) module ∧
      s.get? module = some source ∧
      c.scopes.moduleOf i = (c.tree.moduleNames (c.tree.ancestors i)).foldl within module ∧
      ∀ location ∈ n.location, location.file = source.fileName := by
  obtain ⟨files, hparse, rfl⟩ := Lowering.exists_parse_of_lower h
  let named (module file : String) : Prop :=
    ∃ source, s.get? module = some source ∧ file = source.fileName
  have hnamed : ∀ f ∈ files, named f.module f.fileName := by
    intro f hf
    obtain ⟨source, hget, hname, -⟩ := (Lowering.mem_parse_iff hparse).mp hf
    exact ⟨source, hget, hname⟩
  have hsound := Lowering.sound_files hnamed Lowering.sound_empty rfl
  obtain ⟨module, file, hends, ⟨source, hget, rfl⟩, hmodule, hlocation⟩ := hsound.stands i n hn
  exact ⟨module, source, hends, hget, hmodule, hlocation⟩

/-- A crate whose second file holds a struct with a field in two inline modules. -/
def nestedSources : SourceSet := Table.ofList
  [ ("", ⟨"src/lib.rs", "mod ui;\n"⟩),
    ("ui", ⟨"src/ui.rs",
      "mod list \x7b mod row \x7b\nstruct Row \x7b height: u8 \x7d\n\x7d \x7d\n"⟩) ]

/-- The field, node 5, stands where the nodes around it say. -/
theorem nodes_stand_in_their_modules_nestedSources :
    ∃ c module source, nestedSources.lower = .ok c ∧
      c.tree.EndsInFile (5 :: c.tree.ancestors 5) module ∧
      nestedSources.get? module = some source ∧ source.fileName = "src/ui.rs" ∧
      (c.tree.moduleNames (c.tree.ancestors 5)).foldl within module = "ui::list::row" := by
  have hread : (nestedSources.lower.toOption.map fun c =>
      (c.tree.node? 5, c.scopes.moduleOf 5)) =
      some (some ⟨.field, some "height", some 4, [], some ⟨"src/ui.rs", 2⟩⟩, "ui::list::row") := by
    decide +kernel
  obtain ⟨c, hc, hnode⟩ := Option.map_eq_some_iff.mp hread
  obtain ⟨hn, hplace⟩ := Prod.mk.inj hnode
  have hlower := eq_ok_of_toOption hc
  obtain ⟨module, source, hends, hsource, hmodule, hlocation⟩ :=
    nodes_stand_in_their_modules hlower hn
  exact ⟨c, module, source, hlower, hends, hsource, (hlocation _ rfl).symm, hmodule ▸ hplace⟩

end LogMarkers
