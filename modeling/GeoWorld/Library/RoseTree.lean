import Mathlib

/-!
Trees with any number of children: their labels from the root downward, and the same tree with
other labels.
-/

namespace GeoWorld.Library

inductive RoseTree (α : Type*) where
  | node (label : α) (children : List (RoseTree α))

namespace RoseTree

variable {α β : Type*}

theorem induction {motive : RoseTree α → Prop}
    (node : ∀ label children, (∀ child ∈ children, motive child) → motive (.node label children)) :
    ∀ tree, motive tree
  | .node label children => node label children fun child _ => induction node child

def label : RoseTree α → α
  | .node label _ => label

def children : RoseTree α → List (RoseTree α)
  | .node _ children => children

/-- The labels, a node before its children. -/
def labels : RoseTree α → List α
  | .node label children => label :: children.flatMap labels

def map (f : α → β) : RoseTree α → RoseTree β
  | .node label children => .node (f label) (children.map (map f))

theorem map_congr {f g : α → β} {tree : RoseTree α}
    (same : ∀ label ∈ tree.labels, f label = g label) : tree.map f = tree.map g := by
  induction tree using induction with
  | node label children ih =>
    rw [labels, List.forall_mem_cons] at same
    rw [map, map, same.1]
    refine congrArg _ (List.map_congr_left fun child member => ?_)
    exact ih child member fun inner inside =>
      same.2 inner (List.mem_flatMap.mpr ⟨child, member, inside⟩)

theorem map_map {γ : Type*} (f : α → β) (g : β → γ) (tree : RoseTree α) :
    (tree.map f).map g = tree.map fun label => g (f label) := by
  induction tree using induction with
  | node label children ih =>
    rw [map, map, map, List.map_map]
    exact congrArg _ (List.map_congr_left ih)

theorem map_id' {f : α → α} {tree : RoseTree α} (same : ∀ label ∈ tree.labels, f label = label) :
    tree.map f = tree := by
  induction tree using induction with
  | node label children ih =>
    rw [labels, List.forall_mem_cons] at same
    rw [map, same.1]
    refine congrArg _ ((List.map_congr_left fun child member => ?_).trans (List.map_id _))
    exact ih child member fun inner inside =>
      same.2 inner (List.mem_flatMap.mpr ⟨child, member, inside⟩)

theorem labels_map (f : α → β) (tree : RoseTree α) : (tree.map f).labels = tree.labels.map f := by
  induction tree using induction with
  | node label children ih =>
    rw [map, labels, labels, List.map_cons, List.flatMap_map, List.map_flatMap]
    refine congrArg _ (List.flatMap_congr fun child member => ih child member)

/-- A function that leaves a tree as it is leaves its labels. -/
theorem label_eq_of_map {f : α → α} {tree : RoseTree α} (same : tree.map f = tree) :
    ∀ label ∈ tree.labels, f label = label := by
  have mapped : tree.labels.map f = tree.labels := by rw [← labels_map, same]
  exact List.map_inj_left.mp (mapped.trans (List.map_id _).symm)

end RoseTree

end GeoWorld.Library
