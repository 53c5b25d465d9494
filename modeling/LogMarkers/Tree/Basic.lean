import LogMarkers.Tree.Kind
import LogMarkers.Tree.WrittenPath

/-!
# Trees of declarations

The declarations of a crate form a forest that is stored flat, a node after its parent and before
the next sibling. A node is named by its index.

* `Tree` holds the nodes; that a parent's index is smaller than its child's is a field of the type,
  so the walk to the root ends (`Tree.ancestors`).
* `TreeBuilder` adds nodes under the innermost open node; `open`, `leaf` and `close` are the only
  ways to make a tree, and surplus closes and unclosed nodes are fine.
-/

namespace LogMarkers

/-- The file and the line a node was read from. -/
structure Location where
  file : String
  line : Nat
  deriving DecidableEq, Repr, Inhabited

/-- A location as `file:line`. -/
def Location.text (l : Location) : String := l.file ++ ":" ++ toString l.line

/-- The index of a node in its tree. Indices have no upper bound here; a store that keeps them in 32
    bits agrees as long as a tree has fewer than `2 ^ 32` nodes, and wraps around beyond that. -/
abbrev NodeId := Nat

/-- One declaration. -/
structure Node where
  kind : NodeKind
  /-- The declared name, where the construct has one. -/
  name : Option String
  parent : Option NodeId
  attributes : List WrittenPath
  location : Option Location
  deriving DecidableEq, Repr

/-- A node before it is put under a parent. -/
structure NodeContent where
  kind : NodeKind
  name : Option String := none
  attributes : List WrittenPath := []
  location : Option Location := none

/-- The node with this content under the given parent. -/
def NodeContent.toNode (c : NodeContent) (parent : Option NodeId) : Node :=
  ⟨c.kind, c.name, parent, c.attributes, c.location⟩

/-- A forest of declarations, every node stored after its parent. -/
structure Tree where
  nodes : Array Node
  parent_lt : ∀ (i : NodeId) (n : Node) (p : NodeId),
    nodes[i]? = some n → n.parent = some p → p < i

namespace Tree

/-- The tree without nodes. -/
def empty : Tree := ⟨#[], by simp⟩

instance : Inhabited Tree := ⟨empty⟩

/-- The number of nodes. -/
def size (t : Tree) : Nat := t.nodes.size

/-- The node with this index. -/
def node? (t : Tree) (i : NodeId) : Option Node := t.nodes[i]?

/-- All indices, in order. -/
def ids (t : Tree) : List NodeId := List.range t.size

/-- The parent of a node. -/
def parent? (t : Tree) (i : NodeId) : Option NodeId := (t.node? i).bind (·.parent)

theorem parent?_lt {t : Tree} {i p : NodeId} (h : t.parent? i = some p) : p < i := by
  obtain ⟨n, hn, hp⟩ := Option.bind_eq_some_iff.mp h
  exact t.parent_lt i n p hn hp

/-- The proper ancestors of a node, nearest first. -/
def ancestors (t : Tree) (i : NodeId) : List NodeId :=
  match _h : t.parent? i with
  | none => []
  | some p => p :: t.ancestors p
termination_by i
decreasing_by exact parent?_lt _h

/-- Whether the node can carry a marker at all: it is declaration like and has an attribute. -/
def isCandidate (n : Node) : Bool := n.kind.isDeclarationLike && !n.attributes.isEmpty

/-- A node index as it is shown. -/
def showId (i : NodeId) : String := "#" ++ toString i

/-- The index and the kind of a node as they are shown for inspection. -/
def describe (t : Tree) (i : NodeId) : Option String :=
  (t.node? i).map fun n =>
    "NodeRef \x7b id: NodeId(" ++ toString i ++ "), kind: " ++ n.kind.label ++ " \x7d"

end Tree

/-- A tree under construction with its open nodes, innermost first. -/
structure TreeBuilder where
  tree : Tree
  opened : List NodeId
  opened_lt : ∀ i ∈ opened, i < tree.size

namespace TreeBuilder

/-- Nothing built, nothing open. -/
def empty : TreeBuilder := ⟨.empty, [], by simp⟩

instance : Inhabited TreeBuilder := ⟨empty⟩

/-- The index the next node gets. -/
def nextId (b : TreeBuilder) : NodeId := b.tree.size

/-- The tree with one more node under the innermost open one. -/
def grow (b : TreeBuilder) (c : NodeContent) : Tree where
  nodes := b.tree.nodes.push (c.toNode b.opened.head?)
  parent_lt := by
    intro i n p hn hp
    rw [Array.getElem?_push] at hn
    split at hn
    · rename_i hi
      subst hi
      cases hn
      exact b.opened_lt p (List.mem_of_head? hp)
    · exact b.tree.parent_lt i n p hn hp

theorem size_grow (b : TreeBuilder) (c : NodeContent) : (b.grow c).size = b.nextId + 1 := by
  simp [grow, Tree.size, nextId]

/-- Add a node without opening it. -/
def leaf (b : TreeBuilder) (c : NodeContent) : TreeBuilder where
  tree := b.grow c
  opened := b.opened
  opened_lt := fun i hi => by
    rw [size_grow]
    exact Nat.lt_succ_of_lt (b.opened_lt i hi)

/-- Add a node and make it the parent of what follows. -/
def openNode (b : TreeBuilder) (c : NodeContent) : TreeBuilder where
  tree := b.grow c
  opened := b.nextId :: b.opened
  opened_lt := fun i hi => by
    rw [size_grow]
    rcases List.mem_cons.mp hi with rfl | hi
    · exact Nat.lt_succ_self _
    · exact Nat.lt_succ_of_lt (b.opened_lt i hi)

/-- Close the innermost open node; without one nothing happens. -/
def close (b : TreeBuilder) : TreeBuilder where
  tree := b.tree
  opened := b.opened.tail
  opened_lt := fun i hi => b.opened_lt i (List.mem_of_mem_tail hi)

end TreeBuilder

/-- One step of building a tree. -/
inductive BuildStep where
  | openNode (content : NodeContent)
  | leaf (content : NodeContent)
  | close

/-- Take a step; the index is that of the node it adds or closes. -/
def TreeBuilder.step (b : TreeBuilder) : BuildStep → Option NodeId × TreeBuilder
  | .openNode c => (some b.nextId, b.openNode c)
  | .leaf c => (some b.nextId, b.leaf c)
  | .close => (b.opened.head?, b.close)

/-- The tree that a sequence of steps builds; what is left open is closed. -/
def Tree.build (steps : List BuildStep) : Tree :=
  (steps.foldl (fun b s => (b.step s).2) TreeBuilder.empty).tree

end LogMarkers
