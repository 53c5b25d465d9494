import LogMarkers.Tree.Basic

/-!
# Open nodes and ancestors

While a tree is built, its open nodes are the innermost one and the ancestors of that one. A node
that is added therefore has the open nodes for its ancestors, and later nodes do not change this.

* `Tree.Extends`: a tree has all nodes of another one, and their ancestors are the same;
* `TreeBuilder.Nested`: the open nodes are such a chain, which adding and closing nodes keeps;
* `Nested.ancestors_grow`: the ancestors of a node that is added.
-/

namespace LogMarkers

namespace Tree

/-! ## 1. Ancestors -/

theorem ancestors_eq (t : Tree) (i : NodeId) :
    t.ancestors i = ((t.parent? i).map fun p => p :: t.ancestors p).getD [] := by
  rw [ancestors]
  split
  · rename_i hnone
    rw [hnone]
    rfl
  · rename_i p hsome
    rw [hsome]
    rfl

theorem ancestors_of_parent? {t : Tree} {i p : NodeId} (h : t.parent? i = some p) :
    t.ancestors i = p :: t.ancestors p := by
  rw [ancestors_eq, h]
  rfl

theorem ancestors_of_root {t : Tree} {i : NodeId} (h : t.parent? i = none) :
    t.ancestors i = [] := by
  rw [ancestors_eq, h]
  rfl

theorem lt_of_mem_ancestors {t : Tree} {i j : NodeId} (h : j ∈ t.ancestors i) : j < i := by
  induction i using Nat.strongRecOn with
  | ind i ih =>
    cases hp : t.parent? i with
    | none =>
      rw [ancestors_of_root hp] at h
      cases h
    | some p =>
      have hlt := parent?_lt hp
      rw [ancestors_of_parent? hp] at h
      rcases List.mem_cons.mp h with rfl | h
      · exact hlt
      · exact Nat.lt_trans (ih p hlt h) hlt

theorem exists_node_iff {t : Tree} {i : NodeId} : (∃ n, t.node? i = some n) ↔ i < t.size := by
  rw [← Option.isSome_iff_exists, node?, size]
  simp

theorem lt_size_of_node? {t : Tree} {i : NodeId} {n : Node} (h : t.node? i = some n) :
    i < t.size := exists_node_iff.mp ⟨n, h⟩

/-- Every node of a tree is one of another tree, at the same index. -/
def Extends (t t' : Tree) : Prop := ∀ i n, t.node? i = some n → t'.node? i = some n

namespace Extends

variable {t t' t'' : Tree}

theorem refl (t : Tree) : t.Extends t := fun _ _ h => h

theorem trans (h : t.Extends t') (h' : t'.Extends t'') : t.Extends t'' :=
  fun i n hn => h' i n (h i n hn)

theorem node? (h : t.Extends t') {i : NodeId} (hi : i < t.size) : t'.node? i = t.node? i := by
  obtain ⟨n, hn⟩ := exists_node_iff.mpr hi
  rw [hn, h i n hn]

theorem parent? (h : t.Extends t') {i : NodeId} (hi : i < t.size) : t'.parent? i = t.parent? i := by
  rw [Tree.parent?, h.node? hi, Tree.parent?]

theorem ancestors (h : t.Extends t') {i : NodeId} (hi : i < t.size) :
    t'.ancestors i = t.ancestors i := by
  induction i using Nat.strongRecOn with
  | ind i ih =>
    have hparent := h.parent? hi
    cases hp : t.parent? i with
    | none => rw [ancestors_of_root hp, ancestors_of_root (hparent.trans hp)]
    | some p =>
      have hlt := parent?_lt hp
      rw [ancestors_of_parent? hp, ancestors_of_parent? (hparent.trans hp),
        ih p hlt (Nat.lt_trans hlt hi)]

end Extends

end Tree

namespace TreeBuilder

/-! ## 2. Adding and closing nodes -/

theorem node?_grow (b : TreeBuilder) (c : NodeContent) (i : NodeId) :
    (b.grow c).node? i =
      if i = b.nextId then some (c.toNode b.opened.head?) else b.tree.node? i := by
  rw [grow, Tree.node?, Array.getElem?_push]
  rfl

theorem extends_grow (b : TreeBuilder) (c : NodeContent) : b.tree.Extends (b.grow c) := by
  intro i n hn
  have hold : i ≠ b.nextId := Nat.ne_of_lt (Tree.lt_size_of_node? hn)
  rw [node?_grow, if_neg hold, hn]

/-- The open nodes are the innermost one and its ancestors. -/
def Nested (b : TreeBuilder) : Prop := ∀ i rest, b.opened = i :: rest → b.tree.ancestors i = rest

theorem nested_empty : empty.Nested := fun _ _ h => by cases h

namespace Nested

variable {b : TreeBuilder}

/-- **A node that is added has the open nodes for its ancestors.** -/
theorem ancestors_grow (h : b.Nested) (c : NodeContent) :
    (b.grow c).ancestors b.nextId = b.opened := by
  have hparent : (b.grow c).parent? b.nextId = b.opened.head? := by
    rw [Tree.parent?, node?_grow, if_pos rfl]
    rfl
  cases hopened : b.opened with
  | nil =>
    rw [hopened] at hparent
    exact Tree.ancestors_of_root hparent
  | cons i rest =>
    rw [hopened] at hparent
    have hi : i < b.tree.size := b.opened_lt i (hopened ▸ List.mem_cons_self)
    rw [Tree.ancestors_of_parent? hparent, (b.extends_grow c).ancestors hi, h i rest hopened]

theorem leaf (h : b.Nested) (c : NodeContent) : (b.leaf c).Nested := by
  intro i rest hopened
  have hi : i < b.tree.size := b.opened_lt i (hopened ▸ List.mem_cons_self)
  exact ((b.extends_grow c).ancestors hi).trans (h i rest hopened)

theorem openNode (h : b.Nested) (c : NodeContent) : (b.openNode c).Nested := by
  intro i rest hopened
  obtain ⟨rfl, rfl⟩ := List.cons.inj hopened
  exact h.ancestors_grow c

theorem close (h : b.Nested) : b.close.Nested := by
  intro i rest hopened
  have htail : b.opened.tail = i :: rest := hopened
  cases hall : b.opened with
  | nil =>
    rw [hall] at htail
    cases htail
  | cons j others =>
    rw [hall] at htail
    have hchain : b.tree.ancestors j = i :: rest := (h j others hall).trans htail
    cases hp : b.tree.parent? j with
    | none =>
      rw [Tree.ancestors_of_root hp] at hchain
      cases hchain
    | some p =>
      rw [Tree.ancestors_of_parent? hp] at hchain
      obtain ⟨rfl, hrest⟩ := List.cons.inj hchain
      exact hrest

end Nested

end TreeBuilder

end LogMarkers
