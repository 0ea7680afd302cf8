import Mathlib
import GeoWorld.Editor.BehaviorGraph
import GeoWorld.Library.SortedSelection
import GeoWorld.Tooling.HfsmValidation

/-!
The graph of an edited state machine: a document loaded and written back, the edits, and what
holds after any sequence of them.
-/

namespace GeoWorld.Editor

open WorldModel Library Tooling

structure HfsmGraphState where
  stableId : ByteString
  name : ByteString
  parent : ByteString
  position : EditorPosition

structure HfsmGraphTransition where
  connection : ConnectionId
  event : ByteString
  priority : Int32

structure HfsmGraphModel where
  nextNodeId : NodeId := 1
  machineId : ByteString := utf8 "未命名状态机"
  initialId : NodeId := invalidNodeId
  states : Std.ExtTreeMap NodeId HfsmGraphState compare := ∅
  transitions : List HfsmGraphTransition := []

def defaultTransitionPriority : Int32 := 100

def graphState (source : HfsmStateDocument) : HfsmGraphState :=
  ⟨source.id, source.name, source.parent, source.position⟩

namespace HfsmGraphTransition

def ends (transition : HfsmGraphTransition) : NodeId × NodeId := transition.connection.ends

/-- The comparison of `document`. -/
def before (left right : HfsmGraphTransition) : Prop :=
  left.connection.outNodeId < right.connection.outNodeId ∨
    left.connection.outNodeId = right.connection.outNodeId ∧
      left.connection.outPortIndex ≤ right.connection.outPortIndex

instance : DecidableRel before := fun _ _ => inferInstanceAs (Decidable (_ ∨ _))

theorem before_iff (left right : HfsmGraphTransition) : before left right ↔
    left.connection.outNodeId.toNat < right.connection.outNodeId.toNat ∨
      left.connection.outNodeId = right.connection.outNodeId ∧
        left.connection.outPortIndex.toNat ≤ right.connection.outPortIndex.toNat :=
  Iff.rfl

instance : Std.Total before := ⟨fun left right => by
  rw [before_iff, before_iff, ← UInt32.toNat_inj, ← UInt32.toNat_inj]
  omega⟩

instance : IsTrans HfsmGraphTransition before := ⟨fun first second third before after => by
  rw [before_iff, ← UInt32.toNat_inj] at before after ⊢
  omega⟩

end HfsmGraphTransition

/-- The port after the last one in use. -/
def nextOutputPort (transitions : List HfsmGraphTransition) (id : NodeId) : PortIndex :=
  transitions.foldl (fun result transition =>
    if transition.connection.outNodeId = id then max result (transition.connection.outPortIndex + 1)
    else result) 0

namespace HfsmGraphModel

section Loading

abbrev NodeIds := Std.ExtTreeMap ByteString NodeId compare

abbrev Ports := Std.ExtTreeMap NodeId PortIndex compare

def loadState (initial : ByteString) (loaded : HfsmGraphModel × NodeIds)
    (source : HfsmStateDocument) : HfsmGraphModel × NodeIds :=
  let id := loaded.1.nextNodeId
  ({ loaded.1 with
      nextNodeId := id + 1
      states := loaded.1.states.insertIfNew id (graphState source)
      initialId := if source.id = initial then id else loaded.1.initialId },
    loaded.2.insertIfNew source.id id)

def loadTransition (ids : NodeIds) (loaded : List HfsmGraphTransition × Ports)
    (source : HfsmTransitionDocument) : List HfsmGraphTransition × Ports :=
  match ids[source.source]?, ids[source.target]? with
  | some id, some target =>
    let port := loaded.2[id]?.getD 0
    (loaded.1 ++ [⟨⟨id, port, target, 0⟩, source.event, source.priority⟩],
      loaded.2.insert id (port + 1))
  | _, _ => loaded

def setDocument (document : HfsmDocument) : HfsmGraphModel :=
  let loaded := document.states.foldl (loadState document.initialState)
    ({ machineId := document.machineId }, ∅)
  { loaded.1 with
    transitions := (document.transitions.foldl (loadTransition loaded.2) ([], ∅)).1 }

variable (hashing : Hashing) (model : HfsmGraphModel)

/-- `none` where `states_.at` throws. -/
def writeTransition (transition : HfsmGraphTransition) : Option HfsmTransitionDocument := do
  let source ← model.states[transition.connection.outNodeId]?
  let target ← model.states[transition.connection.inNodeId]?
  return { source := source.stableId, event := transition.event, target := target.stableId,
           priority := transition.priority }

def document : Option HfsmDocument := do
  let ordered := (hashing.order model.transitions).insertionSort HfsmGraphTransition.before
  let transitions ← ordered.mapM model.writeTransition
  return {
    machineId := model.machineId
    initialState := (model.states[model.initialId]?.map HfsmGraphState.stableId).getD []
    states := model.states.toList.map fun entry =>
      { id := entry.2.stableId, name := entry.2.name, parent := entry.2.parent,
        position := entry.2.position }
    transitions }

end Loading

section Edits

variable (hashing : Hashing) (model : HfsmGraphModel)

/-- The state that a transition of the updated state leads to. -/
def leadsTo (id : NodeId) (label target : ByteString) (entry : NodeId × HfsmGraphState) : Bool :=
  entry.2.stableId == target || (entry.1 == id && target == label)

/-- `none` where the iterator past the end of the table is read. -/
def addOutgoing (states : Std.ExtTreeMap NodeId HfsmGraphState compare) (id : NodeId)
    (label : ByteString) (transitions : List HfsmGraphTransition) (source : HfsmTransitionDocument) :
    Option (List HfsmGraphTransition) :=
  ((hashing.order states.toList).find? (leadsTo id label source.target)).map fun target =>
    transitions ++ [⟨⟨id, nextOutputPort transitions id, target.1, 0⟩, source.event, source.priority⟩]

/-- The result and the model afterwards; a refused update leaves the model. -/
def updateState (id : NodeId) (state : HfsmStateDocument) (isInitial : Bool)
    (transitions : List HfsmTransitionDocument) : Option (Bool × HfsmGraphModel) :=
  match model.states[id]? with
  | none => some (false, model)
  | some target =>
    if state.id.isEmpty || state.name.isEmpty ||
        model.states.toList.any (fun entry => entry.1 != id && entry.2.stableId == state.id) ||
          !transitions.all fun transition =>
            model.states.toList.any (leadsTo id state.id transition.target) then
      some (false, model)
    else
      let renamed := model.states.insert id
        { target with stableId := state.id, name := state.name, parent := state.parent }
      let states := renamed.map fun _ candidate =>
        if candidate.parent = target.stableId then { candidate with parent := state.id } else candidate
      let kept := model.transitions.filter (·.connection.outNodeId ≠ id)
      (transitions.foldlM (addOutgoing hashing states id state.id) kept).map fun all =>
        (true, { model with
          states, transitions := all, initialId := if isInitial then id else model.initialId })

def addNode : HfsmGraphModel :=
  let id := model.nextNodeId
  let stableId := numbered "状态_" id
  { model with
    nextNodeId := id + 1
    states := model.states.insertIfNew id ⟨stableId, stableId, [], {}⟩
    initialId := if model.initialId = invalidNodeId then id else model.initialId }

def connectionPossible (connection : ConnectionId) : Bool :=
  model.states.contains connection.outNodeId && model.states.contains connection.inNodeId &&
    !model.transitions.any (·.connection == connection)

def addConnection (connection : ConnectionId) : HfsmGraphModel :=
  let moved := { connection with
    outPortIndex := nextOutputPort model.transitions connection.outNodeId }
  if model.connectionPossible moved then
    { model with
      transitions := model.transitions ++ [⟨moved, utf8 "事件", defaultTransitionPriority⟩] }
  else
    model

def deleteConnection (connection : ConnectionId) : HfsmGraphModel :=
  { model with transitions := model.transitions.filter (·.connection ≠ connection) }

def deleteNode (id : NodeId) : HfsmGraphModel :=
  match model.states[id]? with
  | none => model
  | some deleted =>
    let touching := (model.transitions.map HfsmGraphTransition.connection).filter (·.touches id)
    let apart := touching.foldl deleteConnection model
    let states := (apart.states.erase id).map fun _ state =>
      if state.parent = deleted.stableId then { state with parent := [] } else state
    { apart with
      states
      initialId := if apart.initialId = id then hashing.first states.keys else apart.initialId }

inductive Edit where
  | addNode
  | updateState (id : NodeId) (state : HfsmStateDocument) (isInitial : Bool)
      (transitions : List HfsmTransitionDocument)
  | addConnection (connection : ConnectionId)
  | deleteConnection (connection : ConnectionId)
  | deleteNode (id : NodeId)

def apply : Edit → Option HfsmGraphModel
  | .addNode => some model.addNode
  | .updateState id state isInitial transitions =>
    (model.updateState hashing id state isInitial transitions).map Prod.snd
  | .addConnection connection => some (model.addConnection connection)
  | .deleteConnection connection => some (model.deleteConnection connection)
  | .deleteNode id => some (model.deleteNode hashing id)

end Edits

/-- Stable ids are unique and transitions join states. -/
structure WellFormed (model : HfsmGraphModel) : Prop where
  unique_ids : UniqueLabels HfsmGraphState.stableId model.states
  joins : Joins HfsmGraphTransition.ends model.states model.transitions

/-- The id that a new state would get is free, and a renamed state gets no transition to its old
id. -/
def Allows (model : HfsmGraphModel) : Edit → Prop
  | .addNode => model.nextNodeId ∉ model.states → ∀ (id : NodeId) (state : HfsmGraphState),
    model.states[id]? = some state → state.stableId ≠ numbered "状态_" model.nextNodeId
  | .updateState id state _ transitions => ∀ old, model.states[id]? = some old →
    old.stableId ≠ state.id → ∀ transition ∈ transitions, transition.target ≠ old.stableId
  | _ => True

section Steps

variable {hashing : Hashing} {model : HfsmGraphModel} {connection : ConnectionId}

/-- A change of the states that keeps their labels. -/
theorem uniqueLabels_map {states : Std.ExtTreeMap NodeId HfsmGraphState compare}
    (unique : UniqueLabels HfsmGraphState.stableId states) {change : NodeId → HfsmGraphState → HfsmGraphState}
    (kept : ∀ id state, (change id state).stableId = state.stableId) :
    UniqueLabels HfsmGraphState.stableId (states.map change) := by
  refine unique.relabel fun id => ?_
  rw [Std.ExtTreeMap.getElem?_map, Option.map_map]
  exact congrArg (fun label => Option.map label states[id]?) (funext fun state => kept id state)

theorem WellFormed.addNode (formed : model.WellFormed) (allowed : model.Allows .addNode) :
    model.addNode.WellFormed where
  unique_ids := formed.unique_ids.insertIfNew allowed
  joins := formed.joins.mono fun _ known => Std.ExtTreeMap.mem_insertIfNew.mpr (.inr known)

theorem WellFormed.fewer (formed : model.WellFormed) {transitions : List HfsmGraphTransition}
    (fewer : ∀ transition ∈ transitions, transition ∈ model.transitions) :
    ({ model with transitions } : HfsmGraphModel).WellFormed where
  unique_ids := formed.unique_ids
  joins := formed.joins.subset fewer

theorem WellFormed.addConnection (formed : model.WellFormed) (connection : ConnectionId) :
    (model.addConnection connection).WellFormed := by
  unfold HfsmGraphModel.addConnection
  simp only
  split
  · rename_i possible
    simp only [connectionPossible, Bool.and_eq_true] at possible
    obtain ⟨⟨source, target⟩, -⟩ := possible
    refine ⟨formed.unique_ids, fun transition member => ?_⟩
    rcases List.mem_append.mp member with held | added
    · exact formed.joins transition held
    · obtain rfl := List.mem_singleton.mp added
      exact ⟨Std.ExtTreeMap.mem_iff_contains.mpr source, Std.ExtTreeMap.mem_iff_contains.mpr target⟩
  · exact formed

theorem foldl_deleteConnection (removed : List ConnectionId) (model : HfsmGraphModel) :
    removed.foldl deleteConnection model =
      { model with transitions := model.transitions.filter (·.connection ∉ removed) } := by
  induction removed generalizing model with
  | nil => simp
  | cons connection removed ih =>
    rw [List.foldl_cons, ih, deleteConnection, List.filter_filter]
    refine congrArg (fun transitions => ({ model with transitions } : HfsmGraphModel)) ?_
    refine List.filter_congr fun other _ => ?_
    simp [Bool.and_comm]

theorem WellFormed.deleteNode (formed : model.WellFormed) (id : NodeId) :
    (model.deleteNode hashing id).WellFormed := by
  unfold HfsmGraphModel.deleteNode
  cases model.states[id]? with
  | none => exact formed
  | some deleted =>
    simp only
    rw [foldl_deleteConnection]
    have apart : ∀ transition ∈ model.transitions.filter (·.connection ∉
        (model.transitions.map HfsmGraphTransition.connection).filter (·.touches id)),
          transition ∈ model.transitions ∧ transition.ends.1 ≠ id ∧ transition.ends.2 ≠ id := by
      intro transition member
      obtain ⟨held, kept⟩ := List.mem_filter.mp member
      have free : transition.connection.touches id ≠ true := fun touches =>
        of_decide_eq_true kept (List.mem_filter.mpr ⟨List.mem_map_of_mem held, touches⟩)
      rw [ConnectionId.touches, Ne, Bool.or_eq_true, not_or, beq_iff_eq, beq_iff_eq] at free
      exact ⟨held, free.2, free.1⟩
    refine ⟨uniqueLabels_map (formed.unique_ids.erase id) fun id state => ?_, ?_⟩
    · split <;> rfl
    · exact (formed.joins.erase apart).mono fun key known => Std.ExtTreeMap.mem_map.mpr known

/-- The update of a state that was not refused. -/
theorem updateState_cases (hashing : Hashing) (model : HfsmGraphModel) (id : NodeId)
    (state : HfsmStateDocument) (isInitial : Bool) (transitions : List HfsmTransitionDocument) :
    model.updateState hashing id state isInitial transitions = some (false, model) ∨
      ∃ target, model.states[id]? = some target ∧
        (∀ (other : NodeId) (held : HfsmGraphState), other ≠ id →
          model.states[other]? = some held → held.stableId ≠ state.id) ∧
        (∀ transition ∈ transitions, ∃ entry ∈ model.states.toList,
          leadsTo id state.id transition.target entry = true) ∧
        ∃ states : Std.ExtTreeMap NodeId HfsmGraphState compare,
          (∀ key : NodeId, states[key]?.map HfsmGraphState.stableId =
            if key = id then some state.id else model.states[key]?.map HfsmGraphState.stableId) ∧
          model.updateState hashing id state isInitial transitions =
            (transitions.foldlM (addOutgoing hashing states id state.id)
              (model.transitions.filter (·.connection.outNodeId ≠ id))).map fun all =>
                (true, { model with
                  states, transitions := all, initialId := if isInitial then id else model.initialId }) := by
  unfold updateState
  cases found : model.states[id]? with
  | none => exact .inl rfl
  | some target =>
    simp only
    split
    · exact .inl rfl
    · rename_i free
      simp only [Bool.or_eq_true, not_or, Bool.not_eq_true', Bool.not_eq_false, List.all_eq_true,
        List.any_eq_true] at free
      obtain ⟨⟨⟨-, -⟩, distinct⟩, known⟩ := free
      refine .inr ⟨target, rfl, fun other held differ listed same => distinct ?_, known, _, ?_, rfl⟩
      · have entry := Std.ExtTreeMap.mem_toList_iff_getElem?_eq_some.mpr listed
        exact ⟨(other, held), entry, by simp [differ, same]⟩
      · intro key
        have label : ∀ candidate : HfsmGraphState, (if candidate.parent = target.stableId then
            { candidate with parent := state.id } else candidate).stableId = candidate.stableId :=
          fun candidate => by split <;> rfl
        rw [Std.ExtTreeMap.getElem?_map, Option.map_map, lookup_insert]
        split
        · exact congrArg some (label _)
        · exact congrArg (fun change => Option.map change model.states[key]?) (funext label)

/-- The transitions of an update, each to a state that is there. -/
theorem foldlM_addOutgoing (hashing : Hashing) {states : Std.ExtTreeMap NodeId HfsmGraphState compare} {id : NodeId}
    {label : ByteString} (transitions : List HfsmTransitionDocument)
    (known : ∀ transition ∈ transitions, ∃ entry ∈ states.toList,
      leadsTo id label transition.target entry = true) (kept : List HfsmGraphTransition) :
    ∃ all, transitions.foldlM (addOutgoing hashing states id label) kept = some all ∧
      ∀ transition ∈ all, transition ∈ kept ∨
        transition.ends.1 = id ∧ transition.ends.2 ∈ states := by
  induction transitions generalizing kept with
  | nil => exact ⟨kept, rfl, fun transition member => .inl member⟩
  | cons source rest ih =>
    rw [List.forall_mem_cons] at known
    obtain ⟨entry, listed, leads⟩ := known.1
    obtain ⟨found, first⟩ := Option.isSome_iff_exists.mp (List.find?_isSome.mpr
      ⟨entry, (hashing.perm states.toList).mem_iff.mpr listed, leads⟩ :
        ((hashing.order states.toList).find? (leadsTo id label source.target)).isSome = true)
    have there : found.1 ∈ states := mem_iff_lookup.mpr ⟨found.2,
      Std.ExtTreeMap.mem_toList_iff_getElem?_eq_some.mp
        ((hashing.perm states.toList).mem_iff.mp (List.mem_of_find?_eq_some first))⟩
    obtain ⟨all, folded, ends⟩ := ih known.2 (kept ++ [⟨⟨id, nextOutputPort kept id, found.1, 0⟩,
      source.event, source.priority⟩])
    refine ⟨all, ?_, fun transition member => ?_⟩
    · rw [List.foldlM_cons, addOutgoing, first]
      exact folded
    · rcases ends transition member with held | fresh
      · rcases List.mem_append.mp held with held | added
        · exact .inl held
        · obtain rfl := List.mem_singleton.mp added
          exact .inr ⟨rfl, there⟩
      · exact .inr fresh

/-- An allowed update is carried out and keeps the model well formed. -/
theorem WellFormed.updateState (formed : model.WellFormed) (hashing : Hashing) {id : NodeId} {state : HfsmStateDocument}
    {isInitial : Bool} {transitions : List HfsmTransitionDocument}
    (allowed : model.Allows (.updateState id state isInitial transitions)) :
    ∃ result, model.updateState hashing id state isInitial transitions = some result ∧
      result.2.WellFormed := by
  rcases updateState_cases hashing model id state isInitial transitions with
    refused | ⟨target, found, free, known, states, labels, updated⟩
  · exact ⟨_, refused, formed⟩
  · have there : ∀ key : NodeId, key ∈ states ↔ key ∈ model.states := by
      intro key
      rw [Std.ExtTreeMap.mem_iff_isSome_getElem?, Std.ExtTreeMap.mem_iff_isSome_getElem?,
        ← Option.isSome_map (f := HfsmGraphState.stableId), labels]
      split
      · rename_i same
        rw [same, found]
        rfl
      · rw [Option.isSome_map]
    have still : ∀ transition ∈ transitions, ∃ entry ∈ states.toList,
        leadsTo id state.id transition.target entry = true := by
      intro transition member
      obtain ⟨⟨key, held⟩, listed, leads⟩ := known transition member
      have lookup := Std.ExtTreeMap.mem_toList_iff_getElem?_eq_some.mp listed
      obtain ⟨now, renamed⟩ := mem_iff_lookup.mp
        ((there key).mpr (mem_iff_lookup.mpr ⟨held, lookup⟩))
      refine ⟨(key, now), Std.ExtTreeMap.mem_toList_iff_getElem?_eq_some.mpr renamed, ?_⟩
      have label := labels key
      rw [renamed, Option.map_some] at label
      rw [leadsTo, Bool.or_eq_true, beq_iff_eq, Bool.and_eq_true, beq_iff_eq, beq_iff_eq] at leads ⊢
      split at label
      · rename_i same
        have named : now.stableId = state.id := Option.some.inj label
        obtain rfl : held = target := Option.some.inj (by rw [← lookup, same, found])
        rcases leads with old | new
        · by_cases moved : held.stableId = state.id
          · exact .inl (by rw [named, ← moved, old])
          · exact absurd old.symm (allowed held (same ▸ lookup) moved transition member)
        · exact .inr new
      · rw [lookup, Option.map_some, Option.some.injEq] at label
        rw [label]
        exact leads
    obtain ⟨all, folded, ends⟩ := foldlM_addOutgoing hashing transitions still
      (model.transitions.filter (·.connection.outNodeId ≠ id))
    rw [folded, Option.map_some] at updated
    refine ⟨_, updated, ?_, fun transition member => ?_⟩
    · intro first second left right lookup lookup' same
      have label := labels first
      have label' := labels second
      rw [lookup, Option.map_some] at label
      rw [lookup', Option.map_some] at label'
      split at label
      · rename_i first_id
        split at label'
        · rename_i second_id
          rw [first_id, second_id]
        · rename_i other
          obtain ⟨held, listed, named⟩ := Option.map_eq_some_iff.mp label'.symm
          exact absurd (named.trans (same.symm.trans (Option.some.inj label)))
            (free second held other listed)
      · rename_i other
        obtain ⟨held, listed, named⟩ := Option.map_eq_some_iff.mp label.symm
        split at label'
        · exact absurd (named.trans (same.trans (Option.some.inj label')))
            (free first held other listed)
        · obtain ⟨held', listed', named'⟩ := Option.map_eq_some_iff.mp label'.symm
          exact formed.unique_ids first second held held' listed listed'
            (named.trans (same.trans named'.symm))
    · rcases ends transition member with held | ⟨source, target_there⟩
      · obtain ⟨from_there, to_there⟩ := formed.joins transition (List.mem_filter.mp held).1
        exact ⟨(there _).mpr from_there, (there _).mpr to_there⟩
      · exact ⟨source ▸ (there id).mpr (mem_iff_lookup.mpr ⟨target, found⟩), target_there⟩

/-- One allowed edit is carried out and keeps the model well formed. -/
theorem WellFormed.apply (formed : model.WellFormed) (hashing : Hashing) (edit : Edit) (allowed : model.Allows edit) :
    ∃ after, model.apply hashing edit = some after ∧ after.WellFormed := by
  cases edit with
  | addNode => exact ⟨_, rfl, formed.addNode allowed⟩
  | updateState id state isInitial transitions =>
    obtain ⟨result, updated, kept⟩ := formed.updateState hashing allowed
    exact ⟨result.2, by rw [HfsmGraphModel.apply, updated, Option.map_some], kept⟩
  | addConnection connection => exact ⟨_, rfl, formed.addConnection connection⟩
  | deleteConnection connection =>
    exact ⟨_, rfl, formed.fewer fun transition member => (List.mem_filter.mp member).1⟩
  | deleteNode id => exact ⟨_, rfl, formed.deleteNode id⟩

def Step (hashing : Hashing) (before : HfsmGraphModel) (edit : Edit) (after : HfsmGraphModel) :
    Prop := before.apply hashing edit = some after

theorem WellFormed.run {after : HfsmGraphModel} {edits : List Edit} (formed : model.WellFormed)
    (run : GuardedRun (Step hashing) Allows model edits after) : after.WellFormed :=
  run.invariant formed fun before edit after allowed step held => by
    obtain ⟨next, applied, kept⟩ := held.apply hashing edit allowed
    obtain rfl := Option.some.inj (applied.symm.trans step)
    exact kept

end Steps


section Return

variable {document : HfsmDocument} {hashing : Hashing}

theorem foldl_loadState (initial : ByteString) (states : List HfsmStateDocument)
    (model : HfsmGraphModel) (ids : NodeIds) (start : Nat)
    (next : model.nextNodeId = numberOf start) :
    states.foldl (loadState initial) (model, ids) =
      ({ model with
          nextNodeId := numberOf (start + states.length)
          states := (numberFrom start (states.map graphState)).foldl
            (fun map entry => map.insertIfNew entry.1 entry.2) model.states
          initialId := markedId initial (numberFrom start (states.map HfsmStateDocument.id))
            model.initialId },
        (numberFrom start (states.map HfsmStateDocument.id)).foldl
          (fun map entry => map.insertIfNew entry.2 entry.1) ids) := by
  induction states generalizing model ids start with
  | nil =>
    obtain ⟨nextNodeId, machineId, initialId, states, transitions⟩ := model
    obtain rfl : nextNodeId = numberOf start := next
    rfl
  | cons state rest ih =>
    rw [List.foldl_cons, loadState, ih _ _ (start + 1) (by rw [next, numberOf_succ]), next,
      List.length_cons, Nat.add_right_comm start 1, Nat.add_assoc start]
    rfl

/-- The transitions of a document, each with the number of earlier ones from its source. -/
def portsFrom (earlier : List HfsmTransitionDocument) :
    List HfsmTransitionDocument → List (HfsmTransitionDocument × Nat)
  | [] => []
  | transition :: rest =>
    (transition, earlier.countP fun other => other.source = transition.source) ::
      portsFrom (earlier ++ [transition]) rest

def loadedTransition (document : HfsmDocument) (entry : HfsmTransitionDocument × Nat) :
    HfsmGraphTransition :=
  ⟨⟨labelId document.ids entry.1.source, UInt32.ofNat entry.2, labelId document.ids entry.1.target,
    0⟩, entry.1.event, entry.1.priority⟩

theorem map_fst_portsFrom (earlier transitions : List HfsmTransitionDocument) :
    (portsFrom earlier transitions).map Prod.fst = transitions := by
  induction transitions generalizing earlier with
  | nil => rfl
  | cons transition rest ih => rw [portsFrom, List.map_cons, ih]

/-- The number of a transition lies between those of its neighbours from the same source. -/
theorem mem_portsFrom {earlier transitions : List HfsmTransitionDocument}
    {entry : HfsmTransitionDocument × Nat} (member : entry ∈ portsFrom earlier transitions) :
    earlier.countP (fun other => other.source = entry.1.source) ≤ entry.2 ∧
      entry.2 < (earlier ++ transitions).length := by
  induction transitions generalizing earlier with
  | nil => cases member
  | cons transition rest ih =>
    rcases List.mem_cons.mp member with rfl | later
    · refine ⟨le_rfl, List.countP_le_length.trans_lt ?_⟩
      rw [List.length_append, List.length_cons]
      omega
    · obtain ⟨above, below⟩ := ih later
      rw [List.countP_append] at above
      rw [List.append_assoc, List.singleton_append] at below
      exact ⟨by omega, below⟩

theorem portsFrom_ascending (earlier transitions : List HfsmTransitionDocument) :
    (portsFrom earlier transitions).Pairwise fun first second =>
      first.1.source = second.1.source → first.2 < second.2 := by
  induction transitions generalizing earlier with
  | nil => exact .nil
  | cons transition rest ih =>
    refine List.pairwise_cons.mpr ⟨fun entry member same => ?_, ih _⟩
    have above := (mem_portsFrom member).1
    rw [List.countP_append, List.countP_singleton, if_pos (decide_eq_true same)] at above
    change (earlier.countP fun other => other.source = transition.source) < entry.2
    rw [show transition.source = entry.1.source from same]
    omega

theorem foldl_loadTransition (rest : List HfsmTransitionDocument)
    (sources : ∀ transition ∈ rest, transition.source ∈ document.ids)
    (targets : ∀ transition ∈ rest, transition.target ∈ document.ids)
    (small : document.states.length < 2 ^ 32) (earlier : List HfsmTransitionDocument)
    (held : List HfsmGraphTransition) (ports : Ports)
    (counted : ∀ label ∈ document.ids, ports[labelId document.ids label]?.getD 0 =
      UInt32.ofNat (earlier.countP fun other => other.source = label)) :
    (rest.foldl (loadTransition (labelIds document.ids)) (held, ports)).1 =
      held ++ (portsFrom earlier rest).map (loadedTransition document) := by
  induction rest generalizing earlier held ports with
  | nil => rw [portsFrom, List.map_nil, List.append_nil, List.foldl_nil]
  | cons transition rest ih =>
    rw [List.forall_mem_cons] at sources targets
    have few : document.ids.length < 2 ^ 32 := by rwa [HfsmDocument.ids, List.length_map]
    have port := counted transition.source sources.1
    rw [List.foldl_cons, loadTransition, lookup_labelIds, if_pos sources.1, lookup_labelIds,
      if_pos targets.1]
    simp only
    rw [ih sources.2 targets.2 (earlier ++ [transition]), portsFrom, List.map_cons, port,
      List.append_assoc]
    · rfl
    · intro label known
      rw [lookup_insert, List.countP_append, List.countP_singleton]
      by_cases same : label = transition.source
      · rw [if_pos (congrArg _ same), port, Option.getD_some, same]
        simp [UInt32.ofNat_add]
      · rw [if_neg fun shared => same (labelId_inj few known sources.1 shared), counted label known]
        simp [Ne.symm same]

/-- The model of a document, in closed form. -/
theorem setDocument_eq (formed : document.WellFormed) (small : document.states.length < 2 ^ 32) :
    setDocument document = {
      nextNodeId := numberOf document.states.length
      machineId := document.machineId
      initialId := markedId document.initialState (numberFrom 0 document.ids) invalidNodeId
      states := numberNodes (document.states.map graphState)
      transitions := (portsFrom [] document.transitions).map (loadedTransition document) } := by
  rw [setDocument, foldl_loadState _ _ _ _ 0 rfl, Nat.zero_add]
  have loaded := foldl_loadTransition document.transitions formed.sources_known formed.targets_known
    small [] [] ∅ fun label known => by simp
  rw [List.nil_append] at loaded
  exact congrArg (HfsmGraphModel.mk _ _ _ _) loaded

/-- Two lists of transitions with those of each source in one order. -/
def UpToSources (left right : List HfsmTransitionDocument) : Prop :=
  left.Perm right ∧ ∀ source : ByteString,
    left.filter (fun transition => transition.source = source) =
      right.filter fun transition => transition.source = source

def byPort (document : HfsmDocument) (left right : HfsmTransitionDocument × Nat) : Prop :=
  (loadedTransition document left).before (loadedTransition document right)

instance : DecidableRel (byPort document) := fun _ _ =>
  inferInstanceAs (Decidable (HfsmGraphTransition.before _ _))

instance : Std.Total (byPort document) :=
  ⟨fun _ _ => Std.Total.total (r := HfsmGraphTransition.before) _ _⟩

instance : IsTrans _ (byPort document) :=
  ⟨fun _ _ _ => IsTrans.trans (r := HfsmGraphTransition.before) _ _ _⟩

section Written

variable (formed : document.WellFormed) (small : document.states.length < 2 ^ 32)
variable (few : document.transitions.length < 2 ^ 32)

theorem known_of_mem_portsFrom {entry : HfsmTransitionDocument × Nat}
    (member : entry ∈ portsFrom [] document.transitions) : entry.1 ∈ document.transitions := by
  rw [← map_fst_portsFrom [] document.transitions]
  exact List.mem_map_of_mem member

include few in
theorem port_toNat {entry : HfsmTransitionDocument × Nat}
    (member : entry ∈ portsFrom [] document.transitions) :
    (loadedTransition document entry).connection.outPortIndex.toNat = entry.2 :=
  UInt32.toNat_ofNat_of_lt' ((mem_portsFrom member).2.trans few)

include formed small in
theorem source_eq {left right : HfsmTransitionDocument × Nat}
    (left_mem : left ∈ portsFrom [] document.transitions)
    (right_mem : right ∈ portsFrom [] document.transitions)
    (same : (loadedTransition document left).connection.outNodeId =
      (loadedTransition document right).connection.outNodeId) : left.1.source = right.1.source :=
  labelId_inj (by rwa [HfsmDocument.ids, List.length_map])
    (formed.sources_known _ (known_of_mem_portsFrom left_mem))
    (formed.sources_known _ (known_of_mem_portsFrom right_mem)) same

include formed small few in
/-- No two transitions leave a state by one port. -/
theorem separated : ∀ left ∈ portsFrom [] document.transitions,
    ∀ right ∈ portsFrom [] document.transitions,
      byPort document left right → byPort document right left → left = right := by
  intro left left_mem right right_mem before after
  rw [byPort, HfsmGraphTransition.before_iff, port_toNat few left_mem, port_toNat few right_mem]
    at before after
  have nodes : (loadedTransition document left).connection.outNodeId =
      (loadedTransition document right).connection.outNodeId :=
    UInt32.toNat_inj.mp (by rw [← UInt32.toNat_inj] at before after; omega)
  have ports : left.2 = right.2 := by rw [← UInt32.toNat_inj] at before after; omega
  have source := source_eq formed small left_mem right_mem nodes
  by_contra apart
  have numbers := @List.Pairwise.forall _ (fun left right : HfsmTransitionDocument × Nat =>
    left.1.source = right.1.source → left.2 ≠ right.2) (portsFrom [] document.transitions)
      ⟨fun _ _ differ same => (differ same.symm).symm⟩
        ((portsFrom_ascending [] document.transitions).imp fun less same => (less same).ne)
  exact numbers left_mem right_mem apart source ports

include few in
theorem source_ordered (source : ByteString) :
    ((portsFrom [] document.transitions).filter fun entry => entry.1.source = source).Pairwise
      (byPort document) := by
  have ascending := (portsFrom_ascending [] document.transitions).filter
    fun entry => entry.1.source = source
  refine ascending.imp_of_mem fun left_mem right_mem ordered => ?_
  obtain ⟨left_mem, left_source⟩ := List.mem_filter.mp left_mem
  obtain ⟨right_mem, right_source⟩ := List.mem_filter.mp right_mem
  have same := (of_decide_eq_true left_source).trans (of_decide_eq_true right_source).symm
  rw [byPort, HfsmGraphTransition.before_iff, port_toNat few left_mem, port_toNat few right_mem]
  exact .inr ⟨congrArg (labelId document.ids) same, (ordered same).le⟩

include formed small in
theorem writeTransition_eq {entry : HfsmTransitionDocument × Nat}
    (member : entry ∈ portsFrom [] document.transitions) :
    (setDocument document).writeTransition (loadedTransition document entry) = some entry.1 := by
  have there : ∀ label ∈ document.ids,
      ∃ state, (setDocument document).states[labelId document.ids label]? = some state ∧
        state.stableId = label := by
    intro label known
    obtain ⟨state, listed, rfl⟩ := List.mem_map.mp known
    rw [setDocument_eq formed small]
    exact ⟨_, lookup_labelId graphState small formed.unique_ids listed, rfl⟩
  have known := known_of_mem_portsFrom member
  obtain ⟨source, source_found, source_id⟩ := there _ (formed.sources_known _ known)
  obtain ⟨target, target_found, target_id⟩ := there _ (formed.targets_known _ known)
  simp only [writeTransition, loadedTransition, source_found, target_found, Option.bind_eq_bind,
    Option.bind_some, source_id, target_id]
  rfl

/-- The transitions of a loaded document as they are written back. -/
def inOrder (document : HfsmDocument) : List (HfsmTransitionDocument × Nat) :=
  (portsFrom [] document.transitions).insertionSort (byPort document)

/-- A loaded document is written back with the transitions of each state in their order. -/
theorem document_setDocument (formed : document.WellFormed)
    (version : document.schemaVersion = behaviorDocumentSchemaVersion)
    (small : document.states.length < 2 ^ 32) (few : document.transitions.length < 2 ^ 32) :
    ∃ transitions, (setDocument document).document hashing = some { document with transitions } ∧
      UpToSources transitions document.transitions := by
  have distinct := separated formed small few
  have ordered : (hashing.order (setDocument document).transitions).insertionSort
      HfsmGraphTransition.before = (inOrder document).map (loadedTransition document) := by
    have loaded : (setDocument document).transitions =
        (portsFrom [] document.transitions).map (loadedTransition document) := by
      rw [setDocument_eq formed small]
    rw [inOrder, List.map_insertionSort (byPort document) HfsmGraphTransition.before
      (loadedTransition document) _ fun _ _ _ _ => Iff.rfl, insertionSort_congr (hashing.perm _), loaded]
    intro left left_mem right right_mem before after
    rw [(hashing.perm _).mem_iff, loaded] at left_mem right_mem
    obtain ⟨first, first_mem, rfl⟩ := List.mem_map.mp left_mem
    obtain ⟨second, second_mem, rfl⟩ := List.mem_map.mp right_mem
    rw [distinct first first_mem second second_mem before after]
  have perm : (inOrder document).Perm (portsFrom [] document.transitions) := List.perm_insertionSort _ _
  have written : ((inOrder document).map (loadedTransition document)).mapM
      (setDocument document).writeTransition = some ((inOrder document).map Prod.fst) := by
    rw [List.mapM_map, mapM_of_forall Prod.fst]
    exact fun entry member => writeTransition_eq formed small (perm.mem_iff.mp member)
  refine ⟨(inOrder document).map Prod.fst, ?_, ?_, fun source => ?_⟩
  · obtain ⟨state, listed, named⟩ := List.mem_map.mp formed.initial_known
    have found := lookup_labelId graphState small formed.unique_ids listed
    rw [named] at found
    have machineId : (setDocument document).machineId = document.machineId := by
      rw [setDocument_eq formed small]
    have initialId : (setDocument document).initialId =
        labelId document.ids document.initialState := by
      have marked : markedId document.initialState (numberFrom 0 document.ids) invalidNodeId = _ :=
        markedId_numberFrom formed.unique_ids formed.initial_known _
      rw [setDocument_eq formed small, marked, Nat.zero_add]
      rfl
    have states : (setDocument document).states.toList.map (fun entry => ({
        id := entry.2.stableId, name := entry.2.name, parent := entry.2.parent,
        position := entry.2.position } : HfsmStateDocument)) = document.states := by
      rw [setDocument_eq formed small]
      change (numberNodes (document.states.map graphState)).toList.map _ = _
      rw [toList_labelId graphState small formed.unique_ids, List.map_map]
      exact List.map_id _
    have initial : (setDocument document).states[labelId document.ids document.initialState]? =
        some (graphState state) := by
      rw [setDocument_eq formed small]
      exact found
    simp only [HfsmGraphModel.document, ordered, written, machineId, initialId, states, initial]
    obtain ⟨schemaVersion, machineId, initialState, states, transitions⟩ := document
    obtain rfl : schemaVersion = behaviorDocumentSchemaVersion := version
    obtain rfl : state.id = initialState := named
    rfl
  · have back := perm.map Prod.fst
    rwa [map_fst_portsFrom] at back
  · have kept := filter_insertionSort (source_ordered few source) distinct
    conv_rhs => rw [← map_fst_portsFrom [] document.transitions]
    rw [List.filter_map, List.filter_map]
    exact congrArg (List.map Prod.fst) kept

end Written

end Return

end HfsmGraphModel

section Editing

open DocumentValidation

/-- A refused update leaves the tree. -/
theorem BehaviorGraphModel.updateNode_refused {model : BehaviorGraphModel} {id : NodeId}
    {document : BehaviorNodeDocument} {isRoot : Bool}
    (refused : (model.updateNode id document isRoot).1 = false) :
    (model.updateNode id document isRoot).2 = model := by
  rcases model.updateNode_cases id document isRoot with same | ⟨target, -, -, updated⟩
  · rw [same]
  · rw [updated] at refused
    cases refused

theorem HfsmGraphModel.updateState_refused {hashing : Hashing} {model after : HfsmGraphModel}
    {id : NodeId} {state : HfsmStateDocument} {isInitial : Bool}
    {transitions : List HfsmTransitionDocument}
    (refused : model.updateState hashing id state isInitial transitions = some (false, after)) :
    after = model := by
  rcases updateState_cases hashing model id state isInitial transitions with
    same | ⟨target, -, -, -, states, -, updated⟩
  · rw [same] at refused
    exact (congrArg Prod.snd (Option.some.inj refused)).symm
  · rw [updated] at refused
    obtain ⟨all, -, pair⟩ := Option.map_eq_some_iff.mp refused
    cases congrArg Prod.fst pair

theorem HfsmGraphModel.setDocument_wellFormed {document : HfsmDocument} (formed : document.WellFormed)
    (small : document.states.length < 2 ^ 32) : (setDocument document).WellFormed where
  unique_ids := by
    refine UniqueLabels.of_nodup ?_
    rw [setDocument_eq formed small]
    change ((numberNodes (document.states.map graphState)).toList.map _).Nodup
    rw [toList_labelId graphState small formed.unique_ids, List.map_map]
    exact formed.unique_ids
  joins := by
    intro transition member
    have there : ∀ label ∈ document.ids,
        labelId document.ids label ∈ (setDocument document).states := by
      intro label known
      obtain ⟨state, listed, rfl⟩ := List.mem_map.mp known
      rw [setDocument_eq formed small]
      exact mem_iff_lookup.mpr ⟨_, lookup_labelId graphState small formed.unique_ids listed⟩
    rw [setDocument_eq formed small] at member
    obtain ⟨entry, listed, rfl⟩ := List.mem_map.mp member
    have known := known_of_mem_portsFrom listed
    exact ⟨there _ (formed.sources_known _ known), there _ (formed.targets_known _ known)⟩

/-- Both graphs stay well formed under all edits whose new ids are free, connections to the first
port and updates that name no state by an id it gives up; such edits are carried out, refused
updates change nothing, and what was loaded is written back. -/
theorem editing_keeps_documents (hashing : Hashing) (registry : BehaviorNodeRegistry)
    (tree : BehaviorTreeDocument) (machine : HfsmDocument)
    (tree_valid : valid (tree.validate registry) = true) (machine_valid : valid machine.validate = true)
    (few_nodes : tree.nodes.length < 2 ^ 32) (few_states : machine.states.length < 2 ^ 32)
    (few_transitions : machine.transitions.length < 2 ^ 32) :
    (∀ (edits : List BehaviorGraphModel.Edit) (after : BehaviorGraphModel),
      GuardedRun (BehaviorGraphModel.Step hashing) BehaviorGraphModel.Allows
        (BehaviorGraphModel.setDocument tree) edits after →
          after.WellFormed ∧ ∀ (id : NodeId) (document : BehaviorNodeDocument) (isRoot : Bool),
            (after.updateNode id document isRoot).1 = false →
              (after.updateNode id document isRoot).2 = after) ∧
    (∀ (edits : List HfsmGraphModel.Edit) (after : HfsmGraphModel),
      GuardedRun (HfsmGraphModel.Step hashing) HfsmGraphModel.Allows
        (HfsmGraphModel.setDocument machine) edits after →
          after.WellFormed ∧
          (∀ edit, after.Allows edit → ∃ next, after.apply hashing edit = some next) ∧
          ∀ (id : NodeId) (state : HfsmStateDocument) (isInitial : Bool)
            (transitions : List HfsmTransitionDocument) (next : HfsmGraphModel),
            after.updateState hashing id state isInitial transitions = some (false, next) →
              next = after) ∧
    (BehaviorGraphModel.setDocument tree).document hashing = some tree ∧
    ∃ transitions, (HfsmGraphModel.setDocument machine).document hashing =
        some { machine with transitions } ∧
      HfsmGraphModel.UpToSources transitions machine.transitions := by
  obtain ⟨tree_version, is_tree⟩ := BehaviorTreeDocument.IsTree.of_valid tree_valid
  obtain ⟨version, formed⟩ := machine.validate_valid_iff.mp machine_valid
  refine ⟨fun edits after run => ?_, fun edits after run => ?_,
    BehaviorGraphModel.document_setDocument is_tree tree_version few_nodes,
    HfsmGraphModel.document_setDocument formed version few_states few_transitions⟩
  · exact ⟨((BehaviorGraphModel.setDocument_sound is_tree few_nodes).run run).toWellFormed,
      fun _ _ _ => BehaviorGraphModel.updateNode_refused⟩
  · have kept := (HfsmGraphModel.setDocument_wellFormed formed few_states).run run
    refine ⟨kept, fun edit allowed => ?_, fun _ _ _ _ _ => HfsmGraphModel.updateState_refused⟩
    obtain ⟨next, applied, -⟩ := kept.apply hashing edit allowed
    exact ⟨next, applied⟩

/-- Tables listed in the order of their keys. -/
def inKeyOrder : Hashing := ⟨id, fun _ => .refl _⟩

def loneState : HfsmDocument where
  machineId := utf8 "machine"
  initialState := utf8 "idle"
  states := [{ id := utf8 "idle", name := utf8 "idle", parent := [] }]
  transitions := [{ source := utf8 "idle", event := utf8 "again", target := utf8 "idle" }]

theorem editing_keeps_documents_invertedLeaf :
    ((BehaviorGraphModel.setDocument BehaviorTreeDocument.invertedLeaf).addNode []).WellFormed ∧
      (HfsmGraphModel.setDocument loneState).addNode.WellFormed ∧
      (BehaviorGraphModel.setDocument BehaviorTreeDocument.invertedLeaf).document inKeyOrder =
        some BehaviorTreeDocument.invertedLeaf := by
  obtain ⟨tree, machine, returned, -⟩ := editing_keeps_documents inKeyOrder .defaults
    BehaviorTreeDocument.invertedLeaf loneState (by decide +kernel) (by decide +kernel)
    (by decide +kernel) (by decide +kernel) (by decide +kernel)
  have nodes : ∀ entry ∈ (BehaviorGraphModel.setDocument
      BehaviorTreeDocument.invertedLeaf).nodes.toList,
        entry.2.stableId ≠ numbered "节点_" 4 := by decide +kernel
  have states : ∀ entry ∈ (HfsmGraphModel.setDocument loneState).states.toList,
      entry.2.stableId ≠ numbered "状态_" 2 := by decide +kernel
  refine ⟨(tree [.addNode []] _ (.cons (fun _ id node found => ?_) rfl (.nil _))).1,
    (machine [.addNode] _ (.cons (fun _ id state found => ?_) rfl (.nil _))).1, returned⟩
  · exact nodes _ (Std.ExtTreeMap.mem_toList_iff_getElem?_eq_some.mpr found)
  · exact states _ (Std.ExtTreeMap.mem_toList_iff_getElem?_eq_some.mpr found)

/-- A node of the file has the id that the next new node gets. -/
def secondNode : BehaviorTreeDocument where
  treeId := utf8 "tree"
  root := utf8 "节点_2"
  nodes := [{ id := utf8 "节点_2", type := utf8 "AlwaysSuccess", name := utf8 "leaf" }]

theorem derived_id_collides : ¬ ∀ (hashing : Hashing) (tree : BehaviorTreeDocument),
    valid (tree.validate .defaults) = true →
      ∀ (edits : List BehaviorGraphModel.Edit) (after : BehaviorGraphModel),
        AnyRun (BehaviorGraphModel.Step hashing) (BehaviorGraphModel.setDocument tree) edits after →
          UniqueLabels BehaviorGraphNode.stableId after.nodes := by
  intro claimed
  have unique := claimed inKeyOrder secondNode (by decide +kernel) [.addNode []] _
    (.cons trivial rfl (.nil _))
  have labels : ((BehaviorGraphModel.setDocument secondNode).addNode []).nodes.toList.map
      (fun entry => (entry.1, entry.2.stableId)) = [(1, utf8 "节点_2"), (2, utf8 "节点_2")] := by
    decide +kernel
  have named : ∀ id : NodeId, (id, utf8 "节点_2") ∈ [((1 : NodeId), utf8 "节点_2"), (2, utf8 "节点_2")] →
      ∃ node, ((BehaviorGraphModel.setDocument secondNode).addNode []).nodes[id]? = some node ∧
        node.stableId = utf8 "节点_2" := by
    intro id listed
    rw [← labels] at listed
    obtain ⟨⟨key, node⟩, member, same⟩ := List.mem_map.mp listed
    obtain ⟨rfl, label⟩ := Prod.mk.inj same
    exact ⟨node, Std.ExtTreeMap.mem_toList_iff_getElem?_eq_some.mp member, label⟩
  obtain ⟨first, found, label⟩ := named 1 (by simp)
  obtain ⟨second, found', label'⟩ := named 2 (by simp)
  have same : (1 : NodeId) = 2 := unique 1 2 first second found found' (label.trans label'.symm)
  exact absurd same (by decide)

end Editing

end GeoWorld.Editor
