import LogMarkers.Finding
import LogMarkers.Proofs.Crate.NodeModules

/-!
# Whom the members of a crate belong to

The search for an owner goes outwards from node to node, until it meets a type or an `impl` block, or
a node beyond which nothing is searched. In the tree of a crate it never goes further than to the
parent: what a node can stand right in follows from its kind, and all that holds other nodes either
owns them or ends the search.

* `NodeKind.holds`: what can stand right in a node;
* `Tree.Fits`: a node stands in one that can hold it, and `Lowering.Fills`: what lowering adds inside
  a node fits there. `fills_item` shows this of every item, and `fits_of_lower` is what holds of
  every node of a crate;
* `Tree.owner?_of_holds`: the search ends at the parent;
* `Tree.OwnedByKind`, `Tree.Fits.ownedByKind`: so the kind of a node says who owns it.
-/

namespace LogMarkers

/-! ## 1. What stands in what -/

namespace NodeKind

/-- Whether items stand right in a node of this kind. -/
def holdsItems (k : NodeKind) : Bool := k == sourceFile || k == inlineModule

/-- Whether fields stand right in a node of this kind. -/
def holdsFields (k : NodeKind) : Bool := k == struct || k == union

/-- Whether members stand right in a node of this kind. -/
def holdsMembers (k : NodeKind) : Bool := k == impl || k == trait

/-- Whether a node of the second kind can stand right in one of the first. -/
def holds (outer : NodeKind) : NodeKind → Bool
  | field => outer.holdsFields
  | method | associatedConst => outer.holdsMembers
  | sourceFile | other => false
  | _ => outer.holdsItems

theorem holdsFields_iff {k : NodeKind} : k.holdsFields = true ↔ k = struct ∨ k = union := by
  simp [holdsFields]

theorem holdsMembers_iff {k : NodeKind} : k.holdsMembers = true ↔ k = impl ∨ k = trait := by
  simp [holdsMembers]

theorem holdsItems_iff {k : NodeKind} :
    k.holdsItems = true ↔ k = sourceFile ∨ k = inlineModule := by
  simp [holdsItems]

/-- **What holds a node owns it or ends the search.** -/
theorem isScopeBoundary_of_holds {outer inner : NodeKind} (h : outer.holds inner = true)
    (howner : outer.isOwnerScope = false) : outer.isScopeBoundary = true := by
  cases outer with
  | sourceFile | inlineModule | trait | function => rfl
  | struct | enum | union | impl => cases howner
  | field | method | associatedConst | const | static | other => cases inner <;> cases h

end NodeKind

/-- A node stands right in one that can hold it, or it is the node of a file and stands in nothing.
    A method has a name. -/
structure Tree.Fits (t : Tree) (n : Node) : Prop where
  stands : (n.kind = .sourceFile ∧ n.parent = none) ∨
    ∃ p outer, n.parent = some p ∧ t.node? p = some outer ∧ outer.kind.holds n.kind = true
  named : n.kind = .method → ∃ name, n.name = some name

theorem Tree.Fits.mono {t t' : Tree} {n : Node} (h : t.Fits n) (ht : t.Extends t') : t'.Fits n where
  stands := h.stands.imp_right fun ⟨p, outer, hp, houter, hholds⟩ =>
    ⟨p, outer, hp, ht p outer houter, hholds⟩
  named := h.named

/-! ## 2. Lowering adds nodes where they fit -/

namespace Lowering

/-- Every node fits where it stands. -/
def Fitted (l : Lowering) : Prop :=
  ∀ i n, l.builder.tree.node? i = some n → l.builder.tree.Fits n

/-- The innermost open node is of this kind. -/
def Inside (l : Lowering) (k : NodeKind) : Prop :=
  ∃ i n, l.builder.opened.head? = some i ∧ l.builder.tree.node? i = some n ∧ n.kind = k

/-- What is done inside a node of this kind adds nodes that fit there, and leaves open what was. -/
def Fills (k : NodeKind) (l l' : Lowering) : Prop :=
  l.Fitted → l.Inside k → l'.Fitted ∧ Continues l l'

variable {l l' l'' : Lowering} {p : Place} {k : NodeKind}

theorem Inside.mono (h : l.Inside k) (hl : Continues l l') : l'.Inside k := by
  obtain ⟨i, n, hi, hn, hk⟩ := h
  exact ⟨i, n, hl.opened ▸ hi, hl.extends_ i n hn, hk⟩

namespace Fills

theorem refl (k : NodeKind) (l : Lowering) : Fills k l l := fun hl _ => ⟨hl, rfl, .refl _⟩

theorem trans (h : Fills k l l') (h' : Fills k l' l'') : Fills k l l'' := by
  intro hl hinside
  obtain ⟨hl', hcontinues⟩ := h hl hinside
  obtain ⟨hl'', hcontinues'⟩ := h' hl' (hinside.mono hcontinues)
  exact ⟨hl'', hcontinues'.opened.trans hcontinues.opened,
    hcontinues.extends_.trans hcontinues'.extends_⟩

/-- Notes about names add no node. -/
theorem of_same (h : l'.builder = l.builder) : Fills k l l' := by
  intro hl _
  rw [Fitted, h]
  exact ⟨hl, by rw [h], h ▸ .refl _⟩

end Fills

/-- A new node that fits leaves every node where it fits. -/
theorem Fitted.grow (hl : l.Fitted) {content : NodeContent}
    (hnew : (l.builder.grow content).Fits (content.toNode l.builder.opened.head?)) (i : NodeId)
    (n : Node) (hn : (l.builder.grow content).node? i = some n) :
    (l.builder.grow content).Fits n := by
  rw [TreeBuilder.node?_grow] at hn
  split at hn
  · cases hn
    exact hnew
  · exact (hl i n hn).mono (l.builder.extends_grow content)

/-- A new node fits if the innermost open one can hold it. -/
theorem Inside.fits (h : l.Inside k) {content : NodeContent} (hholds : k.holds content.kind = true)
    (hnamed : content.kind = .method → ∃ name, content.name = some name) :
    (l.builder.grow content).Fits (content.toNode l.builder.opened.head?) := by
  obtain ⟨i, n, hi, hn, rfl⟩ := h
  exact ⟨.inr ⟨i, n, hi, l.builder.extends_grow content i n hn, hholds⟩, hnamed⟩

theorem fills_leaf (p : Place) (l : Lowering) (kind : NodeKind) (hholds : k.holds kind = true)
    {name : Option String} (hnamed : kind = .method → ∃ text, name = some text)
    {attributes : List Attribute} {line : Nat} :
    Fills k l (l.leaf p.module (p.content kind name attributes line)) := by
  intro hl hinside
  exact ⟨hl.grow (hinside.fits hholds hnamed), rfl, l.builder.extends_grow _⟩

/-- The new node is the innermost open one. -/
theorem inside_openNode (l : Lowering) (module : String) (content : NodeContent) :
    (l.openNode module content).Inside content.kind :=
  ⟨l.builder.nextId, content.toNode l.builder.opened.head?, rfl,
    (l.builder.node?_grow content _).trans (if_pos rfl), rfl⟩

/-- **A node with what stands in it.** The node is opened, filled and closed. -/
theorem fills_inside (p : Place) (l : Lowering) (kind : NodeKind) (hholds : k.holds kind = true)
    (hmethod : kind ≠ .method) {name : Option String} {attributes : List Attribute} {line : Nat}
    {inside : Lowering → Lowering} (h : ∀ l' : Lowering, Fills kind l' (inside l')) :
    Fills k l (inside (l.openNode p.module (p.content kind name attributes line))).close := by
  intro hl hinside
  let content := p.content kind name attributes line
  obtain ⟨hfitted, hcontinues⟩ := h (l.openNode p.module content)
    (hl.grow (hinside.fits hholds (absurd · hmethod))) (l.inside_openNode p.module content)
  refine ⟨hfitted, ?_, (l.builder.extends_grow content).trans hcontinues.extends_⟩
  show (inside (l.openNode p.module content)).builder.opened.tail = _
  rw [hcontinues.opened]
  rfl

theorem fills_fields (hk : k.holdsFields = true) (p : Place) (i : Nat) (fs : List Field)
    (l : Lowering) : Fills k l (fields p i fs l) := by
  induction fs generalizing i l with
  | nil => exact .refl k l
  | cons f rest ih =>
    unfold fields
    exact (fills_leaf p l .field hk (by simp)).trans (ih (i + 1) _)

theorem fills_members (hk : k.holdsMembers = true) (p : Place) (ms : List Member)
    (l : Lowering) : Fills k l (members p ms l) := by
  induction ms generalizing l with
  | nil => exact .refl k l
  | cons m rest ih =>
    have hholds : k.holds (memberNode m.kind) = true := by cases m.kind <;> exact hk
    unfold members
    exact (fills_leaf p l _ hholds fun _ => ⟨m.name.text, rfl⟩).trans (ih _)

theorem fills_declareType (p : Place) (l : Lowering) (name : String) (generic : Bool) :
    Fills k l (l.declareType p.module name generic) := by
  cases generic <;> exact .of_same rfl

/-- A function, a constant or a static. -/
theorem fills_value (p : Place) (l : Lowering) (name : Name) (kind : NodeKind)
    (attributes : List Attribute) (hholds : k.holds kind = true) (hmethod : kind ≠ .method) :
    Fills k l ((l.declare p.module name.text .value).leaf p.module
      (p.content kind name.text attributes name.line)) := by
  have hdeclared : Fills k l (l.declare p.module name.text .value) := .of_same rfl
  exact hdeclared.trans (fills_leaf p _ kind hholds (absurd · hmethod))

/-- The block of an `impl`, with its self type noted where it is a plain path. -/
theorem fills_impl (hk : k.holdsItems = true) (p : Place) (selfType : Option SourcePath)
    (line : Nat) (attributes : List Attribute) (ms : List Member) (l : Lowering) :
    Fills k l (item p (.impl selfType line attributes ms) l) := by
  unfold item
  cases selfType with
  | none => exact fills_inside p l .impl hk (by simp) (fills_members rfl p ms)
  | some path =>
    let noted (l' : Lowering) : Lowering :=
      { l' with scopes := l'.scopes.recordImplTarget l.builder.nextId path.written }
    have hinside : ∀ l' : Lowering, Fills .impl l' (members p ms (noted l')) := by
      intro l'
      have hnoted : Fills .impl l' (noted l') := .of_same rfl
      exact hnoted.trans (fills_members rfl p ms (noted l'))
    exact fills_inside p l .impl hk (by simp) hinside

mutual

/-- **One item fits where items stand**, with all that stands in it, whatever it is. -/
theorem fills_item {k : NodeKind} (hk : k.holdsItems = true) (p : Place) :
    ∀ (i : Item) (l : Lowering), Fills k l (item p i l)
  | .struct name generic attributes fs, l => by
    unfold item
    exact (fills_declareType p l name.text generic).trans
      (fills_inside p _ .struct hk (by simp) (fills_fields rfl p 0 fs))
  | .union name generic attributes fs, l => by
    unfold item
    exact (fills_declareType p l name.text generic).trans
      (fills_inside p _ .union hk (by simp) (fills_fields rfl p 0 fs))
  | .enum name generic attributes, l => by
    unfold item
    exact (fills_declareType p l name.text generic).trans (fills_leaf p _ .enum hk (by simp))
  | .trait name attributes ms, l => by
    unfold item
    have hdeclared : Fills k l (l.declare p.module name.text .nominal) := .of_same rfl
    exact hdeclared.trans (fills_inside p _ .trait hk (by simp) (fills_members rfl p ms))
  | .impl selfType line attributes ms, l => fills_impl hk p selfType line attributes ms l
  | .function name attributes, l => fills_value p l name .function attributes hk (by simp)
  | .const name attributes, l => fills_value p l name .const attributes hk (by simp)
  | .static name attributes, l => fills_value p l name .static attributes hk (by simp)
  | .typeAlias name target, l => .of_same rfl
  | .inlineModule name attributes contained, l => by
    unfold item
    have hentered : Fills k l ((l.declare p.module name.text .submodule).addModule
        (p.inside name.text).module) := .of_same rfl
    exact hentered.trans
      (fills_inside p _ .inlineModule hk (by simp) (fills_items rfl (p.inside name.text) contained))
  | .fileModule name _, l => .of_same rfl
  | .imports _ _, _ => .of_same rfl
  | .externCrate name rename, l => by
    unfold item
    cases rename with
    | none => exact .refl k l
    | some newName =>
      dsimp only
      split
      · exact .refl k l
      · exact .of_same rfl
  | .other, l => .refl k l

/-- **Items fit where items stand.** -/
theorem fills_items {k : NodeKind} (hk : k.holdsItems = true) (p : Place) :
    ∀ (is : List Item) (l : Lowering), Fills k l (items p is l)
  | [], l => .refl k l
  | i :: rest, l => by
    unfold items
    exact (fills_item hk p i l).trans (fills_items hk p rest _)

end

/-- A file is not inside of anything, and all that stands in it fits. -/
theorem fitted_file (hl : l.Fitted) (hopened : l.builder.opened = []) (f : ParsedFile) :
    (l.file f).Fitted ∧ (l.file f).builder.opened = [] := by
  let entered := l.addModule f.module
  have hentered : entered.Fitted := hl
  have hroot : (entered.builder.grow (fileContent f.module)).Fits
      ((fileContent f.module).toNode entered.builder.opened.head?) :=
    ⟨.inl ⟨rfl, congrArg List.head? hopened⟩, fun hmethod => by cases hmethod⟩
  obtain ⟨hfitted, hcontinues⟩ := fills_items (k := .sourceFile) rfl ⟨f.module, f.fileName⟩ f.items
    (entered.openNode f.module (fileContent f.module)) (hentered.grow hroot)
    (entered.inside_openNode f.module (fileContent f.module))
  refine ⟨hfitted, ?_⟩
  show (items _ f.items (entered.openNode f.module (fileContent f.module))).builder.opened.tail = []
  rw [hcontinues.opened]
  exact hopened

theorem fitted_files (hl : l.Fitted) (hopened : l.builder.opened = []) (files : List ParsedFile) :
    (files.foldl file l).Fitted := by
  induction files generalizing l with
  | nil => exact hl
  | cons f rest ih =>
    obtain ⟨hfile, hclosed⟩ := fitted_file hl hopened f
    exact ih hfile hclosed

end Lowering

/-- **Every node of a lowered crate fits where it stands.** -/
theorem SourceSet.fits_of_lower {s : SourceSet} {c : LoweredCrate} (h : s.lower = .ok c) {i : NodeId}
    {n : Node} (hn : c.tree.node? i = some n) : c.tree.Fits n := by
  obtain ⟨files, -, rfl⟩ := Lowering.exists_parse_of_lower h
  have hempty : Lowering.Fitted {} := fun _ _ h => by cases h
  exact Lowering.fitted_files hempty rfl files i n hn

/-! ## 3. Where the search for an owner ends -/

namespace Tree

variable {t : Tree} {i : NodeId} {n : Node}

/-- **The search for an owner ends at the parent**, if this can hold the node. -/
theorem owner?_of_holds (hn : t.node? i = some n) (hscope : n.kind.isOwnerScope = false)
    {p : NodeId} {outer : Node} (hp : n.parent = some p) (houter : t.node? p = some outer)
    (hholds : outer.kind.holds n.kind = true) :
    t.owner? i = if outer.kind.isOwnerScope then some (p, outer) else none := by
  have hparent : t.parent? i = some p := by rw [parent?, hn, Option.bind_some, hp]
  have hsearch : t.owner? i = t.ownerAmong (p :: t.ancestors p) := by
    rw [← ancestors_of_parent? hparent]
    simp [owner?, hn, hscope]
  rw [hsearch]
  cases howner : outer.kind.isOwnerScope with
  | true => simp [ownerAmong, houter, howner]
  | false => simp [ownerAmong, houter, howner, NodeKind.isScopeBoundary_of_holds hholds howner]

/-- Who owns a node of a crate, by its kind: types and `impl` blocks own themselves, fields and the
    members of `impl` blocks are owned by what they stand right in, everything else by nothing. -/
def OwnedByKind (t : Tree) (i : NodeId) (n : Node) : Prop :=
  match n.kind with
  | .struct | .enum | .union | .impl => t.owner? i = some (i, n)
  | .field => ∃ p outer, n.parent = some p ∧ t.node? p = some outer ∧
      (outer.kind = .struct ∨ outer.kind = .union) ∧ t.owner? i = some (p, outer)
  | .method | .associatedConst => ∃ p outer, n.parent = some p ∧ t.node? p = some outer ∧
      (outer.kind = .impl ∧ t.owner? i = some (p, outer) ∨
        outer.kind = .trait ∧ t.owner? i = none)
  | .sourceFile | .inlineModule | .trait | .function | .const | .static => t.owner? i = none
  | .other => False

/-- A type or an `impl` block owns itself. -/
theorem owner?_of_isOwnerScope (hn : t.node? i = some n) (h : n.kind.isOwnerScope = true) :
    t.owner? i = some (i, n) := by
  simp [owner?, hn, h]

/-- Nothing is searched beyond a node without parent. -/
theorem owner?_of_root (hn : t.node? i = some n) (hscope : n.kind.isOwnerScope = false)
    (hp : n.parent = none) : t.owner? i = none := by
  have hparent : t.parent? i = none := by rw [parent?, hn, Option.bind_some, hp]
  simp [owner?, hn, hscope, ancestors_of_root hparent, ownerAmong]

/-- **The kind of a node that fits says who owns it.** -/
theorem Fits.ownedByKind (h : t.Fits n) (hn : t.node? i = some n) : t.OwnedByKind i n := by
  unfold OwnedByKind
  rcases h.stands with ⟨hfile, hroot⟩ | ⟨p, outer, hp, houter, hholds⟩
  · rw [hfile]
    exact owner?_of_root hn (by rw [hfile]; rfl) hroot
  · have hends := fun hscope => owner?_of_holds hn hscope hp houter hholds
    cases hkind : n.kind with
    | struct | enum | union | impl => exact owner?_of_isOwnerScope hn (by rw [hkind]; rfl)
    | field =>
      rw [hkind] at hholds hends
      have hscopes := NodeKind.holdsFields_iff.mp hholds
      refine ⟨p, outer, hp, houter, hscopes, (hends rfl).trans (if_pos ?_)⟩
      rcases hscopes with hk | hk <;> rw [hk] <;> rfl
    | method | associatedConst =>
      rw [hkind] at hholds hends
      refine ⟨p, outer, hp, houter, (NodeKind.holdsMembers_iff.mp hholds).imp ?_ ?_⟩
      · exact fun hk => ⟨hk, (hends rfl).trans (if_pos (by rw [hk]; rfl))⟩
      · exact fun hk => ⟨hk, (hends rfl).trans (if_neg (by rw [hk]; decide))⟩
    | inlineModule | trait | function | const | static =>
      rw [hkind] at hholds hends
      refine (hends rfl).trans (if_neg ?_)
      rcases NodeKind.holdsItems_iff.mp hholds with hk | hk <;> rw [hk] <;> decide
    | sourceFile | other =>
      rw [hkind] at hholds
      cases hholds

end Tree

end LogMarkers
