import LogMarkers.Proofs.Tree.Nesting
import Mathlib.Order.Nat

/-!
# Trees are stored in pre-order

Whatever the steps, also with surplus closes and nodes that are never closed, the tree they build is
a forest in pre-order: a node gets the number of earlier nodes for its index, its ancestors are the
nodes that are open when it is added, and what stands in it follows it without a gap.

* `TreeBuilder.LeavesOpen` says which nodes steps leave open by what follows their opening, without
  a stack, and `TreeBuilder.getElem?_opened_after` that the open nodes of a builder are these;
* `Tree.nthAncestor?` is the walk to the root step by step; it lists `Tree.ancestors` and ends;
* `Tree.PreOrder`: from a node to the next, ancestors are only taken away, the node put on top
  first. Adding a node keeps this (`TreeBuilder.Continued`), and `PreOrder.exists_last` reads off it
  that the descendants of a node are an interval;
* `Tree.build_preorder`: what holds of every tree that is built.
-/

namespace LogMarkers

namespace BuildStep

/-! ## 1. Steps -/

/-- Whether a step adds a node. -/
def adds : BuildStep → Bool
  | .openNode _ | .leaf _ => true
  | .close => false

/-- The number of nodes that steps add. -/
def added (steps : List BuildStep) : Nat := steps.countP (·.adds)

/-- The number of nodes open inside an open node, after one more step; nothing if the step closes
    the node itself. -/
def inside? : Nat → BuildStep → Option Nat
  | d, .openNode _ => some (d + 1)
  | d, .leaf _ => some d
  | 0, .close => none
  | d + 1, .close => some d

theorem inside?_close {d e : Nat} : inside? e .close = some d ↔ e = d + 1 := by
  cases e with
  | zero => simp [inside?]
  | succ e => simp [inside?]

end BuildStep

namespace TreeBuilder

open BuildStep

/-- The builder after steps. -/
def after (b : TreeBuilder) (steps : List BuildStep) : TreeBuilder :=
  steps.foldl (fun b s => (b.step s).2) b

theorem after_cons (b : TreeBuilder) (s : BuildStep) (steps : List BuildStep) :
    b.after (s :: steps) = (b.step s).2.after steps := rfl

theorem after_append (b : TreeBuilder) (steps more : List BuildStep) :
    b.after (steps ++ more) = (b.after steps).after more := List.foldl_append

theorem nextId_step (b : TreeBuilder) (s : BuildStep) :
    (b.step s).2.nextId = b.nextId + added [s] := by
  cases s with
  | openNode c | leaf c => exact b.size_grow c
  | close => rfl

/-- **Every step that adds a node takes the next index**, no other step takes one. -/
theorem nextId_after (b : TreeBuilder) (steps : List BuildStep) :
    (b.after steps).nextId = b.nextId + added steps := by
  induction steps generalizing b with
  | nil => rfl
  | cons s rest ih =>
    have hcount : added (s :: rest) = added [s] + added rest := by
      unfold added
      rw [← List.singleton_append, List.countP_append]
    rw [after_cons, ih, nextId_step, hcount, Nat.add_assoc]

theorem nextId_empty_after (steps : List BuildStep) :
    (empty.after steps).nextId = added steps := by
  rw [nextId_after]
  exact Nat.zero_add _

/-! ## 2. Open nodes -/

/-- A node that these steps open is still open at their end, with `d` open nodes inside it. -/
def LeavesOpen (b : TreeBuilder) (steps : List BuildStep) (d : Nat) (i : NodeId) : Prop :=
  ∃ before content later, steps = before ++ .openNode content :: later ∧
    i = (b.after before).nextId ∧ later.foldlM inside? 0 = some d

variable {b : TreeBuilder}

/-- The node is opened by the first step, or by a later one. -/
theorem leavesOpen_cons {s : BuildStep} {rest : List BuildStep} {d : Nat} {i : NodeId} :
    b.LeavesOpen (s :: rest) d i ↔
      ((∃ content, s = .openNode content) ∧ i = b.nextId ∧ rest.foldlM inside? 0 = some d) ∨
        (b.step s).2.LeavesOpen rest d i := by
  constructor
  · rintro ⟨before, content, later, h, rfl, hd⟩
    rcases List.cons_eq_append_iff.mp h with ⟨rfl, hrest⟩ | ⟨more, rfl, hrest⟩
    · obtain ⟨rfl, rfl⟩ := List.cons.inj hrest
      exact .inl ⟨⟨content, rfl⟩, rfl, hd⟩
    · exact .inr ⟨more, content, later, hrest, rfl, hd⟩
  · rintro (⟨⟨content, rfl⟩, rfl, hd⟩ | ⟨before, content, later, rfl, rfl, hd⟩)
    · exact ⟨[], content, rest, rfl, rfl, hd⟩
    · exact ⟨s :: before, content, later, rfl, rfl, hd⟩

/-- A step moves the open nodes as `inside?` counts, and opens at most the next node. -/
theorem getElem?_opened_step {s : BuildStep} {d : Nat} {i : NodeId} :
    (b.step s).2.opened[d]? = some i ↔
      (∃ e, b.opened[e]? = some i ∧ inside? e s = some d) ∨
        (∃ content, s = .openNode content) ∧ i = b.nextId ∧ d = 0 := by
  cases s with
  | openNode content =>
    show (b.nextId :: b.opened)[d]? = some i ↔ _
    cases d with
    | zero => simp [inside?, eq_comm]
    | succ d => simp [inside?]
  | leaf content =>
    show b.opened[d]? = some i ↔ _
    simp [inside?]
  | close =>
    show b.opened.tail[d]? = some i ↔ _
    simp [inside?_close]

/-- **The open nodes are those that were open and stay so, and those that steps leave open.** -/
theorem getElem?_opened_after {steps : List BuildStep} {d : Nat} {i : NodeId} :
    (b.after steps).opened[d]? = some i ↔
      (∃ e, b.opened[e]? = some i ∧ steps.foldlM inside? e = some d) ∨ b.LeavesOpen steps d i := by
  induction steps generalizing b with
  | nil => simp [after, LeavesOpen]
  | cons s rest ih =>
    rw [after_cons, ih, leavesOpen_cons, ← or_assoc]
    refine or_congr_left ?_
    simp only [getElem?_opened_step, List.foldlM_cons, Option.bind_eq_bind,
      Option.bind_eq_some_iff]
    constructor
    · rintro ⟨e, ⟨f, hf, he⟩ | ⟨hs, hi, rfl⟩, hd⟩
      · exact .inl ⟨f, hf, e, he, hd⟩
      · exact .inr ⟨hs, hi, hd⟩
    · rintro (⟨f, hf, e, he, hd⟩ | ⟨hs, hi, hd⟩)
      · exact ⟨e, .inl ⟨f, hf, he⟩, hd⟩
      · exact ⟨0, .inr ⟨hs, hi, rfl⟩, hd⟩

/-- The open nodes are those that were opened and that no later step closes. -/
theorem getElem?_opened_empty_after {steps : List BuildStep} {d : Nat} {i : NodeId} :
    (empty.after steps).opened[d]? = some i ↔
      ∃ before content later, steps = before ++ .openNode content :: later ∧
        i = added before ∧ later.foldlM inside? 0 = some d := by
  rw [getElem?_opened_after]
  constructor
  · rintro (⟨e, he, -⟩ | ⟨before, content, later, h, hi, hd⟩)
    · exact absurd he (by simp [empty])
    · exact ⟨before, content, later, h, hi.trans (nextId_empty_after before), hd⟩
  · rintro ⟨before, content, later, h, hi, hd⟩
    exact .inr ⟨before, content, later, h, hi.trans (nextId_empty_after before).symm, hd⟩

end TreeBuilder

namespace Tree

/-! ## 3. The walk to the root -/

/-- What the walk from a node to the root comes to after the parent and `n` more steps; nothing once
    it has ended. -/
def nthAncestor? (t : Tree) (i : NodeId) : Nat → Option NodeId
  | 0 => t.parent? i
  | n + 1 => (t.nthAncestor? i n).bind t.parent?

/-- The walk goes on from the parent. -/
theorem nthAncestor?_succ (t : Tree) (i : NodeId) (n : Nat) :
    t.nthAncestor? i (n + 1) = (t.parent? i).bind (t.nthAncestor? · n) := by
  induction n with
  | zero => rfl
  | succ n ih =>
    rw [nthAncestor?, ih, Option.bind_assoc]
    rfl

/-- **The walk to the root comes to the ancestors, one after the other, and then ends.** -/
theorem nthAncestor?_eq (t : Tree) (i : NodeId) (n : Nat) :
    t.nthAncestor? i n = (t.ancestors i)[n]? := by
  induction n generalizing i with
  | zero =>
    cases hp : t.parent? i with
    | none => rw [ancestors_of_root hp, nthAncestor?, hp]; rfl
    | some p => rw [ancestors_of_parent? hp, nthAncestor?, hp]; rfl
  | succ n ih =>
    rw [nthAncestor?_succ]
    cases hp : t.parent? i with
    | none => rw [ancestors_of_root hp]; rfl
    | some p => rw [ancestors_of_parent? hp]; exact ih p

/-! ## 4. Pre-order -/

/-- A node has for its ancestors the node before it and the ancestors of that, or only the outer
    ones of these. -/
def PreOrder (t : Tree) : Prop := ∀ i, t.ancestors (i + 1) <:+ i :: t.ancestors i

theorem preOrder_empty : empty.PreOrder := by
  intro i
  rw [ancestors_of_root (by simp [parent?, Tree.node?, empty])]
  exact List.nil_suffix

/-- What stands in a node and does not follow it follows a node that stands in it. -/
theorem PreOrder.eq_or_mem {t : Tree} (h : t.PreOrder) {i j : NodeId}
    (hj : i ∈ t.ancestors (j + 1)) : i = j ∨ i ∈ t.ancestors j :=
  List.mem_cons.mp ((h j).subset hj)

theorem ancestors_of_size_le {t : Tree} {i : NodeId} (h : t.size ≤ i) : t.ancestors i = [] := by
  have hnone : t.node? i = none := Array.getElem?_eq_none h
  exact ancestors_of_root (by rw [parent?, hnone]; rfl)

/-- **The descendants of a node follow it without a gap.** -/
theorem PreOrder.exists_last {t : Tree} (h : t.PreOrder) (i : Nat) :
    ∃ last : Nat, ∀ j : Nat, i ∈ t.ancestors j ↔ i < j ∧ j ≤ last := by
  classical
  -- the first node behind `i` that does not stand in it
  have hend : ∃ n : Nat, i ∉ t.ancestors (i + 1 + n) :=
    ⟨t.size, by rw [ancestors_of_size_le (Nat.le_add_left _ _)]; exact List.not_mem_nil⟩
  have hbeyond : ∀ n : Nat, Nat.find hend ≤ n → i ∉ t.ancestors (i + 1 + n) := by
    intro n hn
    induction n, hn using Nat.le_induction with
    | base => exact Nat.find_spec hend
    | succ n _ ih =>
      intro hmem
      rcases h.eq_or_mem (j := i + 1 + n) hmem with e | hmem
      · exact absurd e (Nat.ne_of_lt (Nat.lt_add_right n (Nat.lt_succ_self i)))
      · exact ih hmem
  refine ⟨i + Nat.find hend, fun j => ⟨fun hj => ?_, fun ⟨hlt, hle⟩ => ?_⟩⟩
  · have hlt := lt_of_mem_ancestors hj
    obtain ⟨n, rfl⟩ := Nat.exists_eq_add_of_le hlt
    have hnear : n < Nat.find hend := Nat.lt_of_not_le fun hfar => hbeyond n hfar hj
    exact ⟨hlt, by omega⟩
  · obtain ⟨n, rfl⟩ := Nat.exists_eq_add_of_le hlt
    exact not_not.mp (Nat.find_min hend (by omega))

end Tree

namespace TreeBuilder

open BuildStep

variable {b : TreeBuilder}

/-- The tree is in pre-order, and the open nodes continue it: they are the last node and its
    ancestors, or only the outer ones of these. -/
structure Continued (b : TreeBuilder) : Prop where
  nested : b.Nested
  preOrder : b.tree.PreOrder
  opened : ∀ last, b.nextId = last + 1 → b.opened <:+ last :: b.tree.ancestors last

theorem continued_empty : empty.Continued where
  nested := nested_empty
  preOrder := Tree.preOrder_empty
  opened _ h := by cases h

namespace Continued

/-- **A node that is added continues the pre-order.** -/
theorem preOrder_grow (h : b.Continued) (c : NodeContent) : (b.grow c).PreOrder := by
  intro i
  have hsize := b.size_grow c
  rcases Nat.lt_trichotomy (i + 1) b.nextId with hi | hi | hi
  · rw [(b.extends_grow c).ancestors hi, (b.extends_grow c).ancestors (Nat.lt_of_succ_lt hi)]
    exact h.preOrder i
  · have hold : i < b.tree.size := Nat.lt_of_lt_of_eq (Nat.lt_succ_self i) hi
    rw [hi, h.nested.ancestors_grow, (b.extends_grow c).ancestors hold]
    exact h.opened i hi.symm
  · rw [Tree.ancestors_of_size_le (i := i + 1) (by omega)]
    exact List.nil_suffix

theorem leaf (h : b.Continued) (c : NodeContent) : (b.leaf c).Continued where
  nested := h.nested.leaf c
  preOrder := h.preOrder_grow c
  opened last hlast := by
    obtain rfl : b.nextId = last := Nat.succ.inj ((b.size_grow c).symm.trans hlast)
    show b.opened <:+ b.nextId :: (b.grow c).ancestors b.nextId
    rw [h.nested.ancestors_grow]
    exact List.suffix_cons _ _

theorem openNode (h : b.Continued) (c : NodeContent) : (b.openNode c).Continued where
  nested := h.nested.openNode c
  preOrder := h.preOrder_grow c
  opened last hlast := by
    obtain rfl : b.nextId = last := Nat.succ.inj ((b.size_grow c).symm.trans hlast)
    show b.nextId :: b.opened <:+ b.nextId :: (b.grow c).ancestors b.nextId
    exact ⟨[], by rw [List.nil_append, h.nested.ancestors_grow]⟩

theorem close (h : b.Continued) : b.close.Continued where
  nested := h.nested.close
  preOrder := h.preOrder
  opened last hlast := (List.tail_suffix _).trans (h.opened last hlast)

theorem step (h : b.Continued) (s : BuildStep) : (b.step s).2.Continued := by
  cases s with
  | openNode c => exact h.openNode c
  | leaf c => exact h.leaf c
  | close => exact h.close

theorem after (h : b.Continued) (steps : List BuildStep) : (b.after steps).Continued := by
  induction steps generalizing b with
  | nil => exact h
  | cons s rest ih => exact ih (h.step s)

end Continued

/-! ## 5. Nodes that are added -/

theorem extends_step (b : TreeBuilder) (s : BuildStep) : b.tree.Extends (b.step s).2.tree := by
  cases s with
  | openNode c | leaf c => exact b.extends_grow c
  | close => exact .refl _

theorem extends_after (b : TreeBuilder) (steps : List BuildStep) :
    b.tree.Extends (b.after steps).tree := by
  induction steps generalizing b with
  | nil => exact .refl _
  | cons s rest ih => exact (b.extends_step s).trans (ih _)

/-- **The node that a step adds gets the next index, and the open nodes for its ancestors.** -/
theorem Nested.added_node (h : b.Nested) {s : BuildStep} (hs : s.adds = true)
    (later : List BuildStep) :
    (b.step s).1 = some b.nextId ∧
      ((b.step s).2.after later).tree.ancestors b.nextId = b.opened := by
  have hlt : b.nextId < (b.step s).2.tree.size := by
    have hnext := b.nextId_step s
    rw [added, List.countP_singleton, if_pos hs] at hnext
    exact Nat.lt_of_lt_of_eq (Nat.lt_succ_self _) hnext.symm
  rw [((b.step s).2.extends_after later).ancestors hlt]
  cases s with
  | openNode c | leaf c => exact ⟨rfl, h.ancestors_grow c⟩
  | close => cases hs

end TreeBuilder

namespace Tree

open BuildStep

/-! ## 6. Trees that are built -/

/-- **A tree is in pre-order, whatever the steps that build it.** -/
theorem build_preorder (steps : List BuildStep) :
    -- there is a node for every step that adds one
    (build steps).size = added steps ∧
    -- such a step answers the number of nodes before it, and that node has the open nodes for
    -- ancestors: those that are opened before and not closed again, innermost first
    (∀ before s later, steps = before ++ s :: later → s.adds = true →
      ((TreeBuilder.empty.after before).step s).1 = some (added before) ∧
      (build steps).ancestors (added before) = (TreeBuilder.empty.after before).opened ∧
      ∀ d, (build steps).nthAncestor? (added before) d =
          (TreeBuilder.empty.after before).opened[d]? ∧
        ∀ i, (TreeBuilder.empty.after before).opened[d]? = some i ↔
          ∃ earlier content since, before = earlier ++ .openNode content :: since ∧
            i = added earlier ∧ since.foldlM inside? 0 = some d) ∧
    (∀ i p, (build steps).parent? i = some p → p < i) ∧
    ∀ i, ∃ last, ∀ j, i ∈ (build steps).ancestors j ↔ i < j ∧ j ≤ last := by
  have hbuild : build steps = (TreeBuilder.empty.after steps).tree := rfl
  refine ⟨TreeBuilder.nextId_empty_after steps, ?_, fun i p => parent?_lt, ?_⟩
  · rintro before s later rfl hs
    have hnested := (TreeBuilder.continued_empty.after before).nested
    obtain ⟨hid, hancestors⟩ := hnested.added_node hs later
    rw [TreeBuilder.nextId_empty_after] at hid hancestors
    rw [hbuild, TreeBuilder.after_append, TreeBuilder.after_cons]
    refine ⟨hid, hancestors, fun d => ⟨?_, fun i => TreeBuilder.getElem?_opened_empty_after⟩⟩
    rw [nthAncestor?_eq, hancestors]
  · exact (TreeBuilder.continued_empty.after steps).preOrder.exists_last

/-- A close too many, a node that is closed with what stands in it, and two nodes that are not. -/
def unevenSteps : List BuildStep :=
  [.close, .openNode { kind := .struct }, .leaf { kind := .field }, .close, .close,
    .openNode { kind := .inlineModule }, .openNode { kind := .impl }, .leaf { kind := .method }]

/-- The last node stands in the two that are not closed. -/
theorem build_preorder_unevenSteps :
    unevenSteps = unevenSteps.take 7 ++ .leaf { kind := .method } :: [] ∧
      (leaf { kind := .method }).adds = true ∧
      (build unevenSteps).ancestors 4 = [3, 2] ∧
      (build unevenSteps).parent? 4 = some 3 ∧ 3 < 4 := by
  obtain ⟨-, hadded, hparent, -⟩ := build_preorder unevenSteps
  have hsteps : unevenSteps = unevenSteps.take 7 ++ .leaf { kind := .method } :: [] := rfl
  have h : (build unevenSteps).parent? 4 = some 3 := rfl
  exact ⟨hsteps, rfl, (hadded _ _ _ hsteps rfl).2.1, h, hparent 4 3 h⟩

end Tree

end LogMarkers
