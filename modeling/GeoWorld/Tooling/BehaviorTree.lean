import Mathlib
import GeoWorld.Library.ThreeColours
import GeoWorld.Library.TreeMap
import GeoWorld.Library.Worklist
import GeoWorld.Tooling.Diagnostic

/-!
Documents of behaviour trees and their validation: the registry of node types, the checks of
the nodes and of the edges, the search for cycles and the nodes that the root does not reach.
-/

namespace GeoWorld.Tooling

open WorldModel Library DocumentValidation

def behaviorDocumentSchemaVersion : UInt32 := 1

/-- Doubles by their bits. -/
structure EditorPosition where
  x : UInt64 := 0
  y : UInt64 := 0
  deriving DecidableEq

structure BehaviorNodeDocument where
  id : ByteString
  type : ByteString
  name : ByteString
  position : EditorPosition := {}
  children : List ByteString := []
  parameters : Std.ExtTreeMap ByteString ByteString compare := ∅
  deriving DecidableEq

structure BehaviorTreeDocument where
  schemaVersion : UInt32 := behaviorDocumentSchemaVersion
  treeId : ByteString
  root : ByteString
  nodes : List BehaviorNodeDocument
  deriving DecidableEq

inductive BehaviorNodeArity where
  | control
  | decorator
  | leaf
  deriving DecidableEq

structure BehaviorNodeDescriptor where
  type : ByteString
  displayName : ByteString
  arity : BehaviorNodeArity := .leaf
  deriving DecidableEq

abbrev BehaviorNodeRegistry := List BehaviorNodeDescriptor

namespace BehaviorNodeRegistry

def find (registry : BehaviorNodeRegistry) (type : ByteString) : Option BehaviorNodeDescriptor :=
  registry.find? fun item => item.type == type

def registerNode (registry : BehaviorNodeRegistry) (descriptor : BehaviorNodeDescriptor) :
    Bool × BehaviorNodeRegistry :=
  if descriptor.type.isEmpty || descriptor.displayName.isEmpty ||
      (registry.find descriptor.type).isSome then
    (false, registry)
  else
    (true, registry ++ [descriptor])

def defaults : BehaviorNodeRegistry :=
  let add (type displayName : String) (arity : BehaviorNodeArity)
      (registry : BehaviorNodeRegistry) : BehaviorNodeRegistry :=
    (registry.registerNode ⟨utf8 type, utf8 displayName, arity⟩).2
  [ add "Sequence" "顺序" .control,
    add "SequenceWithMemory" "记忆顺序" .control,
    add "ReactiveSequence" "响应顺序" .control,
    add "Fallback" "回退" .control,
    add "ReactiveFallback" "响应回退" .control,
    add "Parallel" "并行" .control,
    add "ParallelAll" "全部并行" .control,
    add "RetryUntilSuccessful" "重试直至成功" .decorator,
    add "Repeat" "重复" .decorator,
    add "Inverter" "结果取反" .decorator,
    add "ForceSuccess" "强制成功" .decorator,
    add "ForceFailure" "强制失败" .decorator,
    add "Delay" "延迟" .decorator,
    add "Timeout" "超时" .decorator,
    add "AlwaysSuccess" "始终成功" .leaf,
    add "AlwaysFailure" "始终失败" .leaf,
    add "Script" "脚本动作" .leaf,
    add "ScriptCondition" "脚本条件" .leaf,
    add "Sleep" "等待" .leaf,
    add "SetBlackboard" "设置黑板" .leaf,
    add "UnsetBlackboard" "清除黑板" .leaf ].foldl (fun registry add => add registry) []

end BehaviorNodeRegistry

abbrev NodeMap := Std.ExtTreeMap ByteString BehaviorNodeDocument compare

namespace BehaviorTreeDocument

/-- `nodes.emplace` of every node: the first of an id stays. -/
def nodeMap (nodes : List BehaviorNodeDocument) : NodeMap :=
  nodes.foldl (fun map node => map.insertIfNew node.id node) ∅

/-- The checks of the type and of the number of children. -/
def checkType (registry : BehaviorNodeRegistry) (node : BehaviorNodeDocument) :
    DocumentValidation :=
  match registry.find node.type with
  | none => addError .nodeType node.id (utf8 "未知的 BehaviorTree.CPP 节点类型: " ++ node.type)
  | some descriptor =>
    if descriptor.arity = .control ∧ node.children.isEmpty then
      addError .nodeArity node.id (utf8 "控制节点至少需要一个子节点")
    else if descriptor.arity = .decorator ∧ node.children.length ≠ 1 then
      addError .nodeArity node.id (utf8 "装饰节点必须且只能有一个子节点")
    else if descriptor.arity = .leaf ∧ !node.children.isEmpty then
      addError .nodeArity node.id (utf8 "叶节点不能包含子节点")
    else
      []

def checkChildren (id : ByteString) : Std.ExtTreeSet ByteString compare → List ByteString →
    DocumentValidation
  | _, [] => []
  | unique, child :: rest =>
    (if child ∈ unique then
      addError .duplicateEdge id (utf8 "同一父节点重复引用子节点: " ++ child) else []) ++
      checkChildren id (unique.insert child) rest

/-- The first loop over the nodes, with the map of the nodes so far. -/
def checkNodes (registry : BehaviorNodeRegistry) : NodeMap → List BehaviorNodeDocument →
    DocumentValidation
  | _, [] => []
  | seen, node :: rest =>
    (if node.id ∈ seen then addError .duplicateId node.id (utf8 "行为树节点 ID 重复") else []) ++
      checkType registry node ++ checkChildren node.id ∅ node.children ++
        checkNodes registry (seen.insertIfNew node.id node) rest

/-- The edges, each with its parent, in the order of the nodes. -/
def edges (nodes : List BehaviorNodeDocument) : List (ByteString × ByteString) :=
  nodes.flatMap fun node => node.children.map fun child => (node.id, child)

/-- The second loop, with the parents counted so far. -/
def checkEdges (nodes : NodeMap) : Std.ExtTreeMap ByteString Nat compare →
    List (ByteString × ByteString) → DocumentValidation
  | _, [] => []
  | counts, (parent, child) :: rest =>
    if child ∉ nodes then
      addError .missingReference parent (utf8 "子节点不存在: " ++ child) ++
        checkEdges nodes counts rest
    else
      let count := (counts[child]?).getD 0 + 1
      (if 1 < count then addError .duplicateEdge child (utf8 "行为树节点不能拥有多个父节点") else []) ++
        checkEdges nodes (counts.insert child count) rest

def ids (document : BehaviorTreeDocument) : List ByteString :=
  document.nodes.map BehaviorNodeDocument.id

/-- The children of the node that a reference means; `none` for an unknown id. -/
def childrenOf (document : BehaviorTreeDocument) (id : ByteString) : Option (List ByteString) :=
  ((nodeMap document.nodes)[id]?).map BehaviorNodeDocument.children

theorem lookup_nodeMap (nodes : List BehaviorNodeDocument) (id : ByteString) :
    (nodeMap nodes)[id]? = nodes.find? fun node => node.id == id := by
  rw [nodeMap, lookup_foldl_insertIfNew]
  simp

theorem mem_nodeMap {nodes : List BehaviorNodeDocument} {id : ByteString} :
    id ∈ nodeMap nodes ↔ ∃ node ∈ nodes, node.id = id := by
  rw [Std.ExtTreeMap.mem_iff_isSome_getElem?, lookup_nodeMap, List.find?_isSome]
  simp

theorem childrenOf_isSome (document : BehaviorTreeDocument) (id : ByteString) :
    (document.childrenOf id).isSome ↔ id ∈ document.ids := by
  rw [childrenOf, Option.isSome_map, ← Std.ExtTreeMap.mem_iff_isSome_getElem?, mem_nodeMap, ids,
    List.mem_map]

/-- The nodes at which the search from the root meets a cycle. -/
def cycles (document : BehaviorTreeDocument) : List ByteString :=
  ThreeColours.reportedFrom document.childrenOf document.ids
    (fun id known => (document.childrenOf_isSome id).mp known) document.root

def reached (document : BehaviorTreeDocument) : List ByteString :=
  Worklist.reachableFrom document.root document.ids fun id => (document.childrenOf id).getD []

def validate (document : BehaviorTreeDocument) (registry : BehaviorNodeRegistry) :
    DocumentValidation :=
  (if document.schemaVersion ≠ behaviorDocumentSchemaVersion then
    addError .schemaVersion document.treeId (utf8 "不支持的行为树文档版本") else []) ++
  checkNodes registry ∅ document.nodes ++
  (if document.root ∉ nodeMap document.nodes then
    addError .missingReference document.root (utf8 "根节点不存在") else []) ++
  checkEdges (nodeMap document.nodes) ∅ (edges document.nodes) ++
  document.cycles.flatMap (fun id => addError .cycle id (utf8 "行为树存在环路")) ++
  document.nodes.flatMap fun node =>
    if node.id ∉ document.reached then
      addWarning .unreachable node.id (utf8 "节点无法从根节点到达") else []

end BehaviorTreeDocument

end GeoWorld.Tooling
