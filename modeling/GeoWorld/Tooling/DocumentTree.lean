import Mathlib
import GeoWorld.Library.RoseTree
import GeoWorld.Tooling.TreeValidation

/-!
The tree that a valid document is: the node of an id over the trees of its children. It holds
every node that the root reaches once.
-/

namespace GeoWorld.Tooling

open WorldModel Library DocumentValidation

namespace BehaviorTreeDocument

def findNode (document : BehaviorTreeDocument) (id : ByteString) : Option BehaviorNodeDocument :=
  document.nodes.find? fun node => node.id == id

/-- The tree has the nodes that the document finds, each over its children in their order. -/
inductive Unfolds (document : BehaviorTreeDocument) : RoseTree BehaviorNodeDocument → Prop where
  | node {node : BehaviorNodeDocument} {trees : List (RoseTree BehaviorNodeDocument)}
      (found : document.findNode node.id = some node)
      (children : node.children = trees.map fun tree => tree.label.id)
      (below : ∀ tree ∈ trees, Unfolds document tree) : Unfolds document (.node node trees)

section Trees

variable {document : BehaviorTreeDocument} {tree : RoseTree BehaviorNodeDocument}
  {node : BehaviorNodeDocument} {first second parent child id : ByteString}

def treeIds (tree : RoseTree BehaviorNodeDocument) : List ByteString :=
  tree.labels.map BehaviorNodeDocument.id

theorem treeIds_node (node : BehaviorNodeDocument) (trees : List (RoseTree BehaviorNodeDocument)) :
    treeIds (.node node trees) = node.id :: trees.flatMap treeIds := by
  rw [treeIds, RoseTree.labels, List.map_cons, List.map_flatMap]
  rfl

theorem findNode_id (found : document.findNode id = some node) : node.id = id ∧
    node ∈ document.nodes :=
  ⟨by simpa using List.find?_some found, List.mem_of_find?_eq_some found⟩

theorem Unfolds.found (unfolds : document.Unfolds tree) :
    document.findNode tree.label.id = some tree.label := by
  cases unfolds with
  | node found _ _ => exact found

theorem Unfolds.labels_found (unfolds : document.Unfolds tree) :
    ∀ node ∈ tree.labels, document.findNode node.id = some node := by
  induction unfolds with
  | node found _ _ ih =>
    rw [RoseTree.labels, List.forall_mem_cons]
    refine ⟨found, fun node member => ?_⟩
    obtain ⟨tree, listed, inside⟩ := List.mem_flatMap.mp member
    exact ih tree listed node inside

/-- The nodes of the tree are those that its root reaches. -/
theorem Unfolds.mem_ids (unfolds : document.Unfolds tree) :
    id ∈ treeIds tree ↔ document.ChildPath tree.label.id id := by
  induction unfolds with
  | @node node trees found children below ih =>
    rw [treeIds_node, List.mem_cons, List.mem_flatMap]
    constructor
    · rintro (rfl | ⟨tree, listed, inside⟩)
      · exact .refl
      · refine .head ⟨node, found, ?_⟩ ((ih tree listed).mp inside)
        rw [children]
        exact List.mem_map_of_mem listed
    · intro path
      rcases Relation.ReflTransGen.cases_head path with same | ⟨child, edge, rest⟩
      · exact .inl same.symm
      · obtain ⟨other, found', member⟩ := edge
        obtain rfl := Option.some.inj (found.symm.trans found')
        rw [children] at member
        obtain ⟨tree, listed, rfl⟩ := List.mem_map.mp member
        exact .inr ⟨tree, listed, (ih tree listed).mpr rest⟩

/-- A child is listed by one node. -/
theorem IsTree.one_parent_of_mem (tree : document.IsTree) {left right : BehaviorNodeDocument}
    (left_mem : left ∈ document.nodes) (right_mem : right ∈ document.nodes)
    (in_left : child ∈ left.children) (in_right : child ∈ right.children) : left = right := by
  by_contra different
  have apart_children := @List.Pairwise.forall _ (fun left right : BehaviorNodeDocument =>
    ∀ child ∈ left.children, child ∉ right.children) document.nodes
      ⟨fun _ _ disjoint child inside outside => disjoint child outside inside⟩ tree.one_parent
  exact apart_children left_mem right_mem different child in_left in_right

theorem IsTree.unique_parent (tree : document.IsTree) (left : document.ChildEdge first child)
    (right : document.ChildEdge second child) : first = second := by
  obtain ⟨one, found_one, in_one⟩ := left
  obtain ⟨other, found_other, in_other⟩ := right
  obtain ⟨rfl, member_one⟩ := findNode_id found_one
  obtain ⟨rfl, member_other⟩ := findNode_id found_other
  rw [tree.one_parent_of_mem member_one member_other in_one in_other]

/-- Of two nodes above one, the first is above the second or the second above the first. -/
theorem IsTree.comparable (tree : document.IsTree) (left : document.ChildPath first id)
    (right : document.ChildPath second id) :
    document.ChildPath first second ∨ document.ChildPath second first := by
  have unique : Relator.RightUnique (Function.swap document.ChildEdge) :=
    fun _ _ _ one other => tree.unique_parent one other
  have climbed := Relation.ReflTransGen.total_of_right_unique unique
    (Relation.reflTransGen_swap.mpr left) (Relation.reflTransGen_swap.mpr right)
  exact climbed.symm.imp Relation.reflTransGen_swap.mp Relation.reflTransGen_swap.mp

theorem IsTree.no_way_back (tree : document.IsTree) (reached : document.ChildPath document.root parent)
    (edge : document.ChildEdge parent child) : ¬ document.ChildPath child parent :=
  fun back => tree.acyclic ⟨parent, reached, .head' edge back⟩

/-- A child is not below another child of the same node. -/
theorem IsTree.siblings (tree : document.IsTree) (reached : document.ChildPath document.root parent)
    (left : document.ChildEdge parent first) (right : document.ChildEdge parent second)
    (path : document.ChildPath first second) : first = second := by
  rcases Relation.ReflTransGen.cases_tail path with same | ⟨above, up, edge⟩
  · exact same.symm
  · obtain rfl := tree.unique_parent edge right
    exact absurd up (tree.no_way_back reached left)

/-- Every node stands in the tree once. -/
theorem Unfolds.nodup (unfolds : document.Unfolds tree) (is_tree : document.IsTree)
    (reached : document.ChildPath document.root tree.label.id) : (treeIds tree).Nodup := by
  induction unfolds with
  | @node node trees found children below ih =>
    have edge : ∀ tree ∈ trees, document.ChildEdge node.id tree.label.id := by
      intro tree listed
      refine ⟨node, found, ?_⟩
      rw [children]
      exact List.mem_map_of_mem listed
    rw [treeIds_node, List.nodup_cons, List.nodup_flatMap]
    refine ⟨fun again => ?_, fun tree listed => ih tree listed (reached.tail (edge tree listed)), ?_⟩
    · obtain ⟨tree, listed, inside⟩ := List.mem_flatMap.mp again
      exact is_tree.no_way_back reached (edge tree listed) ((below tree listed).mem_ids.mp inside)
    · have distinct := is_tree.once node (findNode_id found).2
      rw [children, List.Nodup, List.pairwise_map] at distinct
      refine distinct.imp_of_mem fun one other apart id in_one in_other => apart ?_
      have left := (below _ one).mem_ids.mp in_one
      have right := (below _ other).mem_ids.mp in_other
      rcases is_tree.comparable left right with path | path
      · exact is_tree.siblings reached (edge _ one) (edge _ other) path
      · exact (is_tree.siblings reached (edge _ other) (edge _ one) path).symm

theorem exists_map_of_forall {α β : Type} {f : α → β} {meets : α → Prop} {items : List β}
    (each : ∀ item ∈ items, ∃ source, meets source ∧ f source = item) :
    ∃ sources : List α, items = sources.map f ∧ ∀ source ∈ sources, meets source := by
  induction items with
  | nil => exact ⟨[], rfl, nofun⟩
  | cons item items ih =>
    rw [List.forall_mem_cons] at each
    obtain ⟨source, met, rfl⟩ := each.1
    obtain ⟨sources, rfl, all_met⟩ := ih each.2
    exact ⟨source :: sources, rfl, List.forall_mem_cons.mpr ⟨met, all_met⟩⟩

/-- The way downward ends, so every node that the root reaches has a tree. -/
theorem IsTree.unfolds (tree : document.IsTree) (reached : document.ChildPath document.root id)
    (known : id ∈ document.ids) : ∃ tree, document.Unfolds tree ∧ tree.label.id = id := by
  let Below := {id // id ∈ document.ids ∧ document.ChildPath document.root id}
  have finite : Finite Below :=
    ((List.finite_toSet document.ids).subset fun _ inside => inside.1).to_subtype
  let under (lower upper : Below) : Prop := Relation.TransGen document.ChildEdge upper.1 lower.1
  have transitive : IsTrans Below under := ⟨fun _ _ _ first second => second.trans first⟩
  have irreflexive : Std.Irrefl under :=
    ⟨fun node cycle => tree.acyclic ⟨node.1, node.2.2, cycle⟩⟩
  have grounded : WellFounded under := Finite.wellFounded_of_trans_of_irrefl under
  suffices all : ∀ node : Below, ∃ tree, document.Unfolds tree ∧ tree.label.id = node.1 from
    all ⟨id, known, reached⟩
  intro node
  induction node using grounded.induction with
  | _ node ih =>
    obtain ⟨id, known, reached⟩ := node
    obtain ⟨own, member, named⟩ := List.mem_map.mp known
    obtain ⟨found_node, found⟩ : ∃ found, document.findNode id = some found := by
      refine Option.isSome_iff_exists.mp ?_
      rw [findNode, List.find?_isSome]
      exact ⟨own, member, by simpa using named⟩
    obtain ⟨rfl, inside⟩ := findNode_id found
    have each : ∀ child ∈ found_node.children,
        ∃ tree, document.Unfolds tree ∧ tree.label.id = child := by
      intro child listed
      have edge : document.ChildEdge found_node.id child := ⟨found_node, found, listed⟩
      obtain ⟨other, other_member, other_named⟩ :=
        tree.children_exist found_node inside child listed
      exact ih ⟨child, List.mem_map.mpr ⟨other, other_member, other_named⟩, reached.tail edge⟩
        (.single edge)
    obtain ⟨trees, children, below⟩ := exists_map_of_forall each
    exact ⟨.node found_node trees, .node found children below, rfl⟩

end Trees

end BehaviorTreeDocument

end GeoWorld.Tooling
