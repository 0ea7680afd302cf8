import Mathlib
import GeoWorld.Tooling.BehaviorTree

/-!
What the validation of a behaviour tree accepts: documents whose nodes form a tree below the
root. The nodes it warns of are those that no path of children leads to.
-/

namespace GeoWorld.Tooling

open WorldModel Library DocumentValidation

/-- The number of children that nodes of an arity have. -/
def BehaviorNodeArity.Fits (arity : BehaviorNodeArity) (children : List ByteString) : Prop :=
  match arity with
  | .control => children ≠ []
  | .decorator => children.length = 1
  | .leaf => children = []

namespace BehaviorTreeDocument

/-- Known types with the number of children they ask for. -/
def WellTyped (document : BehaviorTreeDocument) (registry : BehaviorNodeRegistry) : Prop :=
  ∀ node ∈ document.nodes, ∃ descriptor, registry.find node.type = some descriptor ∧
    descriptor.arity.Fits node.children

/-- A child of the node that an id names; of nodes with one id the first is meant. -/
def ChildEdge (document : BehaviorTreeDocument) (parent child : ByteString) : Prop :=
  ∃ node, document.nodes.find? (fun node => node.id == parent) = some node ∧ child ∈ node.children

def ChildPath (document : BehaviorTreeDocument) : ByteString → ByteString → Prop :=
  Relation.ReflTransGen document.ChildEdge

/-- The document is a tree below its root, with nodes that the root does not reach beside it. -/
structure IsTree (document : BehaviorTreeDocument) : Prop where
  unique_ids : (document.nodes.map BehaviorNodeDocument.id).Nodup
  children_exist : ∀ node ∈ document.nodes, ∀ child ∈ node.children,
    ∃ other ∈ document.nodes, other.id = child
  root_exists : ∃ node ∈ document.nodes, node.id = document.root
  one_parent : document.nodes.Pairwise fun left right => ∀ child ∈ left.children,
    child ∉ right.children
  once : ∀ node ∈ document.nodes, node.children.Nodup
  acyclic : ¬ ∃ id, document.ChildPath document.root id ∧
    Relation.TransGen document.ChildEdge id id

section Checks

variable {registry : BehaviorNodeRegistry} {document : BehaviorTreeDocument}
variable {node : BehaviorNodeDocument} {nodes : List BehaviorNodeDocument} {seen : NodeMap}
variable {children : List ByteString} {id : ByteString}

theorem checkType_errors (registry : BehaviorNodeRegistry) (node : BehaviorNodeDocument) :
    AllErrors (checkType registry node) := by
  unfold checkType
  split
  · exact allErrors_addError _ _ _
  · exact .ite (allErrors_addError _ _ _) (.ite (allErrors_addError _ _ _)
      (.ite (allErrors_addError _ _ _) .nil))

theorem checkChildren_errors (id : ByteString) (unique : Std.ExtTreeSet ByteString compare)
    (children : List ByteString) : AllErrors (checkChildren id unique children) := by
  induction children generalizing unique with
  | nil => exact .nil
  | cons child rest ih => exact .append (.ite (allErrors_addError _ _ _) .nil) (ih _)

theorem checkNodes_errors (registry : BehaviorNodeRegistry) (seen : NodeMap)
    (nodes : List BehaviorNodeDocument) : AllErrors (checkNodes registry seen nodes) := by
  induction nodes generalizing seen with
  | nil => exact .nil
  | cons node rest ih =>
    exact .append (.append (.append (.ite (allErrors_addError _ _ _) .nil)
      (checkType_errors _ _)) (checkChildren_errors _ _ _)) (ih _)

theorem checkEdges_errors (nodes : NodeMap) (counts : Std.ExtTreeMap ByteString Nat compare)
    (edges : List (ByteString × ByteString)) : AllErrors (checkEdges nodes counts edges) := by
  induction edges generalizing counts with
  | nil => exact .nil
  | cons edge rest ih =>
    obtain ⟨parent, child⟩ := edge
    rw [checkEdges]
    split
    · exact .append (allErrors_addError _ _ _) (ih _)
    · exact .append (.ite (allErrors_addError _ _ _) .nil) (ih _)

theorem checkType_nil {descriptor : BehaviorNodeDescriptor}
    (found : registry.find node.type = some descriptor)
    (fits : descriptor.arity.Fits node.children) : checkType registry node = [] := by
  unfold checkType
  simp only [found]
  cases arity : descriptor.arity with
  | control =>
    rw [arity] at fits
    simp only [BehaviorNodeArity.Fits] at fits
    simp [fits]
  | decorator =>
    rw [arity] at fits
    simp only [BehaviorNodeArity.Fits] at fits
    simp [fits]
  | leaf =>
    rw [arity] at fits
    simp only [BehaviorNodeArity.Fits] at fits
    simp [fits]

theorem checkChildren_nil_iff (unique : Std.ExtTreeSet ByteString compare) :
    checkChildren id unique children = [] ↔ children.Nodup ∧ ∀ child ∈ children, child ∉ unique := by
  induction children generalizing unique with
  | nil => simp [checkChildren]
  | cons child rest ih =>
    rw [checkChildren, List.append_eq_nil_iff, ite_error_nil, ih, List.nodup_cons]
    simp only [Std.ExtTreeSet.mem_insert, Std.LawfulEqCmp.compare_eq_iff_eq, List.forall_mem_cons,
      not_or]
    constructor
    · rintro ⟨fresh, distinct, apart⟩
      exact ⟨⟨fun member => (apart child member).1 rfl, distinct⟩, fresh,
        fun other member => (apart other member).2⟩
    · rintro ⟨⟨once, distinct⟩, fresh, apart⟩
      refine ⟨fresh, distinct, fun other member => ⟨?_, apart other member⟩⟩
      rintro rfl
      exact once member

theorem checkNodes_nil_iff (typed : ∀ node ∈ nodes, checkType registry node = []) (seen : NodeMap) :
    checkNodes registry seen nodes = [] ↔
      ((nodes.map BehaviorNodeDocument.id).Nodup ∧ ∀ node ∈ nodes, node.id ∉ seen) ∧
        ∀ node ∈ nodes, node.children.Nodup := by
  induction nodes generalizing seen with
  | nil => simp [checkNodes]
  | cons node rest ih =>
    rw [checkNodes, List.append_eq_nil_iff, List.append_eq_nil_iff, List.append_eq_nil_iff,
      ite_error_nil, typed node List.mem_cons_self, checkChildren_nil_iff,
      ih (fun other member => typed other (List.mem_cons_of_mem _ member)), List.map_cons,
      List.nodup_cons]
    simp only [Std.ExtTreeMap.mem_insertIfNew, Std.LawfulEqCmp.compare_eq_iff_eq, not_or,
      List.forall_mem_cons, Std.ExtTreeSet.not_mem_empty, not_false_eq_true, implies_true, and_true,
      List.mem_map, not_exists, not_and]
    constructor
    · rintro ⟨⟨fresh, own⟩, ⟨distinct, apart⟩, others⟩
      exact ⟨⟨⟨fun other member same => (apart other member).1 same.symm, distinct⟩, fresh,
        fun other member => (apart other member).2⟩, own, others⟩
    · rintro ⟨⟨⟨differ, distinct⟩, fresh, apart⟩, own, others⟩
      exact ⟨⟨fresh, own⟩, ⟨distinct, fun other member =>
        ⟨fun same => differ other member same.symm, apart other member⟩⟩, others⟩

/-- No known child is counted twice. -/
theorem checkEdges_nil_iff (known : NodeMap) (counts : Std.ExtTreeMap ByteString Nat compare)
    (edges : List (ByteString × ByteString)) :
    checkEdges known counts edges = [] ↔ (∀ edge ∈ edges, edge.2 ∈ known) ∧
      (edges.map Prod.snd).Nodup ∧ ∀ edge ∈ edges, (counts[edge.2]?).getD 0 = 0 := by
  induction edges generalizing counts with
  | nil => simp [checkEdges]
  | cons edge rest ih =>
    obtain ⟨parent, child⟩ := edge
    rw [checkEdges]
    by_cases unknown : child ∉ known
    · rw [if_pos unknown]
      simp [addError, unknown]
    · rw [if_neg unknown, List.append_eq_nil_iff, ite_error_nil, ih, List.map_cons,
        List.nodup_cons]
      rw [not_not] at unknown
      simp only [List.forall_mem_cons, unknown, true_and, lookup_insert, List.mem_map, not_exists,
        not_and]
      constructor
      · rintro ⟨single, all_known, distinct, uncounted⟩
        refine ⟨all_known, ⟨fun edge member same => ?_, distinct⟩, by omega, fun edge member => ?_⟩
        · have counted := uncounted edge member
          rw [if_pos same] at counted
          simp at counted
        · have counted := uncounted edge member
          by_cases same : edge.2 = child
          · rw [if_pos same] at counted
            simp at counted
          · rwa [if_neg same] at counted
      · rintro ⟨all_known, ⟨differ, distinct⟩, zero, uncounted⟩
        refine ⟨by omega, all_known, distinct, fun edge member => ?_⟩
        rw [if_neg (differ edge member)]
        exact uncounted edge member

end Checks

section Paths

variable {document : BehaviorTreeDocument} {first second id : ByteString}

theorem edge_iff : ThreeColours.Edge document.childrenOf first second ↔
    document.ChildEdge first second := by
  simp only [ThreeColours.Edge, childrenOf, lookup_nodeMap, Option.map_eq_some_iff, ChildEdge]
  constructor
  · rintro ⟨_, ⟨node, found, rfl⟩, listed⟩
    exact ⟨node, found, listed⟩
  · rintro ⟨node, found, listed⟩
    exact ⟨node.children, ⟨node, found, rfl⟩, listed⟩

theorem ChildEdge.known (edge : document.ChildEdge first second) : first ∈ document.ids := by
  obtain ⟨node, found, -⟩ := edge
  have member := List.mem_of_find?_eq_some found
  have named := List.find?_some found
  exact List.mem_map.mpr ⟨node, member, by simpa using named⟩

theorem cycles_nil_iff : document.cycles = [] ↔
    ¬ ∃ id, document.ChildPath document.root id ∧ Relation.TransGen document.ChildEdge id id := by
  have same : ThreeColours.Edge document.childrenOf = document.ChildEdge := by
    funext first second
    exact propext edge_iff
  rw [cycles, ThreeColours.reportedFrom_nil_iff]
  simp only [ThreeColours.OnCycle, same]
  rfl

/-- Every node on a path to a known one is known. -/
theorem mem_reached (known : id ∈ document.ids) :
    id ∈ document.reached ↔ document.ChildPath document.root id := by
  have edge_eq : ∀ {source target : ByteString},
      Worklist.Edge document.ids (fun id => (document.childrenOf id).getD []) source target ↔
        document.ChildEdge source target ∧ target ∈ document.ids := by
    intro source target
    refine and_congr_left fun _ => ?_
    rw [← edge_iff, ThreeColours.Edge]
    cases found : document.childrenOf source with
    | none => simp [found]
    | some children => simp [found]
  rw [reached, Worklist.mem_reachableFrom, ChildPath]
  constructor
  · rintro ⟨-, path⟩
    exact Relation.ReflTransGen.mono (fun _ _ edge => (edge_eq.mp edge).1) _ _ path
  · generalize document.root = root
    intro path
    induction path using Relation.ReflTransGen.head_induction_on with
    | refl => exact ⟨known, .refl⟩
    | head edge _ ih => exact ⟨edge.known, .head (edge_eq.mpr ⟨edge, ih.1⟩) ih.2⟩

end Paths

section Results

variable {registry : BehaviorNodeRegistry} {document : BehaviorTreeDocument}

theorem map_snd_edges (nodes : List BehaviorNodeDocument) :
    (edges nodes).map Prod.snd = nodes.flatMap BehaviorNodeDocument.children := by
  simp [edges, List.map_flatMap, Function.comp_def]

theorem mem_edges {nodes : List BehaviorNodeDocument} {edge : ByteString × ByteString} :
    edge ∈ edges nodes ↔ ∃ node ∈ nodes, edge.2 ∈ node.children ∧ node.id = edge.1 := by
  obtain ⟨parent, child⟩ := edge
  simp [edges]

/-- The part of the diagnostics before the warnings. -/
def errors (document : BehaviorTreeDocument) (registry : BehaviorNodeRegistry) :
    DocumentValidation :=
  (if document.schemaVersion ≠ behaviorDocumentSchemaVersion then
    addError .schemaVersion document.treeId (utf8 "不支持的行为树文档版本") else []) ++
  checkNodes registry ∅ document.nodes ++
  (if document.root ∉ nodeMap document.nodes then
    addError .missingReference document.root (utf8 "根节点不存在") else []) ++
  checkEdges (nodeMap document.nodes) ∅ (edges document.nodes) ++
  document.cycles.flatMap fun id => addError .cycle id (utf8 "行为树存在环路")

def warnings (document : BehaviorTreeDocument) : DocumentValidation :=
  document.nodes.flatMap fun node =>
    if node.id ∉ document.reached then
      addWarning .unreachable node.id (utf8 "节点无法从根节点到达") else []

theorem validate_eq (document : BehaviorTreeDocument) (registry : BehaviorNodeRegistry) :
    document.validate registry = document.errors registry ++ document.warnings :=
  rfl

theorem errors_allErrors (document : BehaviorTreeDocument) (registry : BehaviorNodeRegistry) :
    AllErrors (document.errors registry) :=
  .append (.append (.append (.append (.ite (allErrors_addError _ _ _) .nil)
    (checkNodes_errors _ _ _)) (.ite (allErrors_addError _ _ _) .nil))
      (checkEdges_errors _ _ _)) (.flatMap fun _ _ => allErrors_addError _ _ _)

/-- The errors are those of the five checks. -/
theorem validate_valid_iff (document : BehaviorTreeDocument) (registry : BehaviorNodeRegistry) :
    valid (document.validate registry) = true ↔
      ((((document.schemaVersion = behaviorDocumentSchemaVersion ∧
        checkNodes registry ∅ document.nodes = []) ∧ document.root ∈ nodeMap document.nodes) ∧
          checkEdges (nodeMap document.nodes) ∅ (edges document.nodes) = []) ∧
            document.cycles = []) := by
  rw [validate_eq, valid_append, warnings, (warnings_allWarnings _ _ _ _).valid, and_iff_left rfl,
    (document.errors_allErrors registry).valid_iff, errors]
  simp only [List.append_eq_nil_iff, ite_error_nil, not_not]
  refine and_congr_right' ?_
  rw [List.flatMap_eq_nil_iff]
  simp [addError, List.eq_nil_iff_forall_not_mem]

theorem warned_iff {node : BehaviorNodeDocument} (member : node ∈ document.nodes) :
    Warned (document.validate registry) node.id ↔ node.id ∉ document.reached := by
  rw [validate_eq, warned_append, or_iff_right ((document.errors_allErrors registry).not_warned _),
    warnings, warned_flatMap]
  constructor
  · rintro ⟨other, -, apart, named⟩
    rwa [← named]
  · exact fun apart => ⟨node, member, apart, rfl⟩

theorem checkNodes_types {nodes : List BehaviorNodeDocument} {seen : NodeMap}
    (silent : checkNodes registry seen nodes = []) :
    ∀ node ∈ nodes, checkType registry node = [] := by
  induction nodes generalizing seen with
  | nil => exact nofun
  | cons node rest ih =>
    rw [checkNodes, List.append_eq_nil_iff, List.append_eq_nil_iff, List.append_eq_nil_iff] at silent
    exact List.forall_mem_cons.mpr ⟨silent.1.1.2, ih silent.2⟩

/-- Where the types are in order, what is left to check is that the nodes form a tree. -/
theorem valid_iff_isTree (version : document.schemaVersion = behaviorDocumentSchemaVersion)
    (types : ∀ node ∈ document.nodes, checkType registry node = []) :
    valid (document.validate registry) = true ↔ document.IsTree := by
  have edge_known : (∀ edge ∈ edges document.nodes, edge.2 ∈ nodeMap document.nodes) ↔
      ∀ node ∈ document.nodes, ∀ child ∈ node.children, ∃ other ∈ document.nodes,
        other.id = child := by
    constructor
    · intro known node member child listed
      exact mem_nodeMap.mp (known (node.id, child)
        (mem_edges.mpr ⟨node, member, listed, rfl⟩))
    · intro exist edge listed
      obtain ⟨node, member, child_in, -⟩ := mem_edges.mp listed
      exact mem_nodeMap.mpr (exist node member edge.2 child_in)
  have uncounted : ∀ edge ∈ edges document.nodes,
      ((∅ : Std.ExtTreeMap ByteString Nat compare)[edge.2]?).getD 0 = 0 := by simp
  rw [validate_valid_iff, checkNodes_nil_iff types, checkEdges_nil_iff, map_snd_edges,
    List.nodup_flatMap, cycles_nil_iff, mem_nodeMap, edge_known]
  constructor
  · rintro ⟨⟨⟨⟨-, ⟨unique, -⟩, once⟩, root⟩, exist, ⟨-, apart⟩, -⟩, acyclic⟩
    exact ⟨unique, exist, root, apart, once, acyclic⟩
  · intro tree
    exact ⟨⟨⟨⟨version, ⟨tree.unique_ids, by simp⟩, tree.once⟩, tree.root_exists⟩,
      tree.children_exist, ⟨tree.once, tree.one_parent⟩, uncounted⟩, tree.acyclic⟩

theorem IsTree.of_valid (accepted : valid (document.validate registry) = true) :
    document.schemaVersion = behaviorDocumentSchemaVersion ∧ document.IsTree := by
  obtain ⟨⟨⟨⟨version, nodes⟩, -⟩, -⟩, -⟩ := (document.validate_valid_iff registry).mp accepted
  exact ⟨version, (valid_iff_isTree version (checkNodes_types nodes)).mp accepted⟩

/-- Well typed documents of the version are valid if and only if they are trees, and a node is
warned of if and only if no path of children leads to it. -/
theorem validate_tree_iff (document : BehaviorTreeDocument) (registry : BehaviorNodeRegistry)
    (version : document.schemaVersion = behaviorDocumentSchemaVersion)
    (typed : document.WellTyped registry) :
    (valid (document.validate registry) = true ↔ document.IsTree) ∧
      ∀ node ∈ document.nodes, Warned (document.validate registry) node.id ↔
        ¬ document.ChildPath document.root node.id := by
  constructor
  · refine valid_iff_isTree version fun node member => ?_
    obtain ⟨descriptor, found, fits⟩ := typed node member
    exact checkType_nil found fits
  · intro node member
    rw [warned_iff member, mem_reached (List.mem_map_of_mem member)]

end Results

/-- A decorator over a leaf, with a second leaf beside them. -/
def invertedLeaf : BehaviorTreeDocument where
  treeId := utf8 "tree"
  root := utf8 "root"
  nodes := [
    { id := utf8 "root", type := utf8 "Inverter", name := utf8 "decorator",
      children := [utf8 "leaf"] },
    { id := utf8 "leaf", type := utf8 "AlwaysSuccess", name := utf8 "leaf" },
    { id := utf8 "spare", type := utf8 "AlwaysFailure", name := utf8 "leaf" }]

theorem invertedLeaf_typed : invertedLeaf.WellTyped .defaults := by
  intro node member
  simp only [invertedLeaf, List.mem_cons, List.not_mem_nil, or_false] at member
  rcases member with rfl | rfl | rfl
  · exact ⟨⟨utf8 "Inverter", utf8 "结果取反", .decorator⟩, by decide +kernel, rfl⟩
  · exact ⟨⟨utf8 "AlwaysSuccess", utf8 "始终成功", .leaf⟩, by decide +kernel, rfl⟩
  · exact ⟨⟨utf8 "AlwaysFailure", utf8 "始终失败", .leaf⟩, by decide +kernel, rfl⟩

theorem validate_tree_invertedLeaf :
    invertedLeaf.IsTree ∧ Warned (invertedLeaf.validate .defaults) (utf8 "spare") ∧
      ¬ invertedLeaf.ChildPath (utf8 "root") (utf8 "spare") := by
  obtain ⟨accepted, warned⟩ := validate_tree_iff invertedLeaf .defaults rfl invertedLeaf_typed
  have valid_document : valid (invertedLeaf.validate .defaults) = true := by decide +kernel
  have spare_warned : Warned (invertedLeaf.validate .defaults) (utf8 "spare") :=
    ⟨⟨.unreachable, .warning, utf8 "spare", utf8 "节点无法从根节点到达"⟩, by decide +kernel,
      rfl, rfl, rfl⟩
  have member : (⟨utf8 "spare", utf8 "AlwaysFailure", utf8 "leaf", {}, [], ∅⟩ :
      BehaviorNodeDocument) ∈ invertedLeaf.nodes := by decide +kernel
  exact ⟨accepted.mp valid_document, spare_warned, (warned _ member).mp spare_warned⟩

end BehaviorTreeDocument

end GeoWorld.Tooling
