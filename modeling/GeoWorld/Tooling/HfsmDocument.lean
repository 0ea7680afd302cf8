import Mathlib
import GeoWorld.Library.ParentChain
import GeoWorld.Tooling.BehaviorTree

/-!
Documents of hierarchical state machines and their validation: the ids, the parents, the
transitions, and the states that neither a transition nor a reached descendant leads to.
-/

namespace GeoWorld.Tooling

open WorldModel Library DocumentValidation

structure HfsmStateDocument where
  id : ByteString
  name : ByteString
  parent : ByteString
  position : EditorPosition := {}
  deriving DecidableEq

structure HfsmTransitionDocument where
  source : ByteString
  event : ByteString
  target : ByteString
  priority : Int32 := 0
  deriving DecidableEq

structure HfsmDocument where
  schemaVersion : UInt32 := behaviorDocumentSchemaVersion
  machineId : ByteString
  initialState : ByteString
  states : List HfsmStateDocument
  transitions : List HfsmTransitionDocument
  deriving DecidableEq

abbrev StateMap := Std.ExtTreeMap ByteString HfsmStateDocument compare

namespace HfsmDocument

/-- `states.emplace` of every state: the first of an id stays. -/
def stateMap (states : List HfsmStateDocument) : StateMap :=
  states.foldl (fun map state => map.insertIfNew state.id state) ∅

def ids (document : HfsmDocument) : List ByteString :=
  document.states.map HfsmStateDocument.id

/-- One round of the loops over parents; `none` where they stop, at an empty or unknown id. -/
def parentOf (document : HfsmDocument) (id : ByteString) : Option ByteString :=
  if id.isEmpty then none else ((stateMap document.states)[id]?).map HfsmStateDocument.parent

/-- The id and its ancestors. -/
def lineage (document : HfsmDocument) (id : ByteString) : List ByteString :=
  ParentChain.chain document.ids document.parentOf id

def checkIds : StateMap → List HfsmStateDocument → DocumentValidation
  | _, [] => []
  | seen, state :: rest =>
    (if state.id ∈ seen then addError .duplicateId state.id (utf8 "HFSM 状态 ID 重复") else []) ++
      checkIds (seen.insertIfNew state.id state) rest

/-- The ancestors so far, with the state itself among them, are the nodes met. -/
def checkParent (document : HfsmDocument) (state : HfsmStateDocument) : DocumentValidation :=
  (if !state.parent.isEmpty ∧ state.parent ∉ stateMap document.states then
    addError .missingReference state.id (utf8 "父状态不存在: " ++ state.parent) else []) ++
  if ParentChain.returns document.ids document.parentOf state.id state.parent then
    addError .cycle state.id (utf8 "HFSM 父状态层级存在环路") else []

def HfsmTransitionKey := ByteString × ByteString × Int32
  deriving DecidableEq

def key (transition : HfsmTransitionDocument) : HfsmTransitionKey :=
  (transition.source, transition.event, transition.priority)

def checkTransitions (states : StateMap) : List HfsmTransitionKey → List HfsmTransitionDocument →
    DocumentValidation
  | _, [] => []
  | keys, transition :: rest =>
    (if transition.source ∉ states then
      addError .missingReference transition.source (utf8 "转换源状态不存在") else []) ++
    (if transition.target ∉ states then
      addError .missingReference transition.target (utf8 "转换目标状态不存在") else []) ++
    (if key transition ∈ keys then
      addError .duplicateEdge transition.source (utf8 "同一状态、事件和优先级存在多个转换") else []) ++
      checkTransitions states (key transition :: keys) rest

/-- The targets of the transitions of a state and of its ancestors. -/
def targetsFrom (document : HfsmDocument) (id : ByteString) : List ByteString :=
  (document.lineage id).flatMap fun source =>
    (document.transitions.filter fun transition => transition.source = source).map
      HfsmTransitionDocument.target

def reached (document : HfsmDocument) : List ByteString :=
  Worklist.reachableFrom document.initialState document.ids document.targetsFrom

def containsReachedDescendant (document : HfsmDocument) (id : ByteString) : Bool :=
  document.reached.any fun state => decide (id ∈ document.lineage state)

def unreachable (document : HfsmDocument) (id : ByteString) : Bool :=
  decide (id ∉ document.reached) && !document.containsReachedDescendant id

def errors (document : HfsmDocument) : DocumentValidation :=
  (if document.schemaVersion ≠ behaviorDocumentSchemaVersion then
    addError .schemaVersion document.machineId (utf8 "不支持的 HFSM 文档版本") else []) ++
  checkIds ∅ document.states ++
  (if document.initialState ∉ stateMap document.states then
    addError .missingReference document.initialState (utf8 "初始状态不存在") else []) ++
  document.states.flatMap document.checkParent ++
  checkTransitions (stateMap document.states) [] document.transitions

def warnings (document : HfsmDocument) : DocumentValidation :=
  document.states.flatMap fun state =>
    if document.unreachable state.id then
      addWarning .unreachable state.id (utf8 "状态无法从初始状态到达") else []

def validate (document : HfsmDocument) : DocumentValidation :=
  document.errors ++ document.warnings

end HfsmDocument

end GeoWorld.Tooling
