import Mathlib
import GeoWorld.Editor.GraphModel
import GeoWorld.Library.Runs
import GeoWorld.Tooling.DocumentTree

/-!
The graph of an edited behaviour tree: a document loaded and written back, the edits, and what
holds after any sequence of them.
-/

namespace GeoWorld.Editor

open WorldModel Library Tooling

structure BehaviorGraphNode where
  stableId : ByteString
  type : ByteString
  name : ByteString
  position : EditorPosition
  parameters : Std.ExtTreeMap ByteString ByteString compare

structure BehaviorGraphModel where
  nextNodeId : NodeId := 1
  treeId : ByteString := utf8 "未命名行为树"
  rootId : NodeId := invalidNodeId
  nodes : Std.ExtTreeMap NodeId BehaviorGraphNode compare := ∅
  /-- The set of connections, each once. -/
  connections : List ConnectionId := []

def insertConnection (connections : List ConnectionId) (connection : ConnectionId) :
    List ConnectionId :=
  if connection ∈ connections then connections else connections ++ [connection]

def graphNode (source : BehaviorNodeDocument) : BehaviorGraphNode :=
  ⟨source.id, source.type, source.name, source.position, source.parameters⟩

namespace BehaviorGraphModel

section Loading

abbrev NodeIds := Std.ExtTreeMap ByteString NodeId compare

def loadNode (root : ByteString) (state : BehaviorGraphModel × NodeIds)
    (source : BehaviorNodeDocument) : BehaviorGraphModel × NodeIds :=
  let id := state.1.nextNodeId
  ({ state.1 with
      nextNodeId := id + 1
      nodes := state.1.nodes.insertIfNew id (graphNode source)
      rootId := if source.id = root then id else state.1.rootId },
    state.2.insertIfNew source.id id)

/-- The connections of a node to those of its children that are there. -/
def childConnections (ids : NodeIds) (source : BehaviorNodeDocument) : List ConnectionId :=
  source.children.zipIdx.filterMap fun entry => ids[entry.1]?.bind fun child =>
    ids[source.id]?.map fun id => ⟨id, UInt32.ofNat entry.2, child, 0⟩

def setDocument (document : BehaviorTreeDocument) : BehaviorGraphModel :=
  let loaded := document.nodes.foldl (loadNode document.root) ({ treeId := document.treeId }, ∅)
  { loaded.1 with
    connections := (document.nodes.flatMap (childConnections loaded.2)).foldl insertConnection [] }

variable (hashing : Hashing) (model : BehaviorGraphModel)

/-- The connections that leave a node, by their ports. -/
def outgoing (id : NodeId) : List ConnectionId :=
  ((hashing.order model.connections).filter fun connection =>
    decide (connection.outNodeId = id)).insertionSort fun left right =>
      left.outPortIndex ≤ right.outPortIndex

/-- `none` where `nodes_.at` throws. -/
def writeNode (entry : NodeId × BehaviorGraphNode) : Option BehaviorNodeDocument := do
  let children ← (model.outgoing hashing entry.1).mapM fun connection =>
    model.nodes[connection.inNodeId]?.map BehaviorGraphNode.stableId
  return { id := entry.2.stableId, type := entry.2.type, name := entry.2.name,
           position := entry.2.position, children, parameters := entry.2.parameters }

def document : Option BehaviorTreeDocument := do
  let nodes ← model.nodes.toList.mapM (model.writeNode hashing)
  return { treeId := model.treeId
           root := (model.nodes[model.rootId]?.map BehaviorGraphNode.stableId).getD [], nodes }

end Loading

section Edits

variable (hashing : Hashing) (model : BehaviorGraphModel)

/-- The result and the model afterwards; a refused update leaves the model. -/
def updateNode (id : NodeId) (document : BehaviorNodeDocument) (isRoot : Bool) :
    Bool × BehaviorGraphModel :=
  match model.nodes[id]? with
  | none => (false, model)
  | some target =>
    if document.id.isEmpty || document.name.isEmpty ||
        model.nodes.toList.any (fun entry => entry.1 != id && entry.2.stableId == document.id) then
      (false, model)
    else
      (true, { model with
        nodes := model.nodes.insert id { target with
          stableId := document.id, type := document.type, name := document.name,
          parameters := document.parameters }
        rootId := if isRoot then id else model.rootId })

def addNode (nodeType : ByteString) : BehaviorGraphModel :=
  let type := if nodeType.isEmpty then utf8 "AlwaysSuccess" else nodeType
  let id := model.nextNodeId
  let stableId := numbered "节点_" id
  { model with
    nextNodeId := id + 1
    nodes := model.nodes.insertIfNew id ⟨stableId, type, stableId, {}, ∅⟩
    rootId := if model.rootId = invalidNodeId then id else model.rootId }

def connectionPossible (connection : ConnectionId) : Bool :=
  model.nodes.contains connection.outNodeId && model.nodes.contains connection.inNodeId &&
    connection.outNodeId != connection.inNodeId && !model.connections.contains connection &&
      !model.connections.any fun other =>
        other.inNodeId == connection.inNodeId && other.inPortIndex == 0

def addConnection (connection : ConnectionId) : BehaviorGraphModel :=
  if model.connectionPossible connection then
    { model with connections := insertConnection model.connections connection }
  else
    model

def deleteConnection (connection : ConnectionId) : BehaviorGraphModel :=
  { model with connections := model.connections.filter (· ≠ connection) }

def deleteNode (id : NodeId) : BehaviorGraphModel :=
  if model.nodes.contains id then
    let apart := (model.connections.filter (·.touches id)).foldl deleteConnection model
    let nodes := apart.nodes.erase id
    { apart with
      nodes := nodes
      rootId := if apart.rootId = id then hashing.first nodes.keys else apart.rootId }
  else
    model

inductive Edit where
  | addNode (nodeType : ByteString)
  | updateNode (id : NodeId) (document : BehaviorNodeDocument) (isRoot : Bool)
  | addConnection (connection : ConnectionId)
  | deleteConnection (connection : ConnectionId)
  | deleteNode (id : NodeId)

def apply : Edit → BehaviorGraphModel
  | .addNode nodeType => model.addNode nodeType
  | .updateNode id document isRoot => (model.updateNode id document isRoot).2
  | .addConnection connection => model.addConnection connection
  | .deleteConnection connection => model.deleteConnection connection
  | .deleteNode id => model.deleteNode hashing id

end Edits

/-- Stable ids are unique, connections join nodes and no node has two parents. -/
structure WellFormed (model : BehaviorGraphModel) : Prop where
  unique_ids : UniqueLabels BehaviorGraphNode.stableId model.nodes
  joins : Joins ConnectionId.ends model.nodes model.connections
  one_parent : ∀ left ∈ model.connections, ∀ right ∈ model.connections,
    left.inNodeId = right.inNodeId → left = right

/-- The id that a new node would get is free, and connections lead to the one port that a node
has. -/
def Allows (model : BehaviorGraphModel) : Edit → Prop
  | .addNode _ => model.nextNodeId ∉ model.nodes → ∀ (id : NodeId) (node : BehaviorGraphNode),
    model.nodes[id]? = some node → node.stableId ≠ numbered "节点_" model.nextNodeId
  | .addConnection connection => connection.inPortIndex = 0
  | _ => True

/-- What the allowed edits keep. -/
structure Sound (model : BehaviorGraphModel) : Prop extends WellFormed model where
  first_port : ∀ connection ∈ model.connections, connection.inPortIndex = 0

section Steps

variable {hashing : Hashing} {model : BehaviorGraphModel} {connection : ConnectionId}

theorem mem_insertConnection {connections : List ConnectionId} {other : ConnectionId} :
    other ∈ insertConnection connections connection ↔ other ∈ connections ∨ other = connection := by
  unfold insertConnection
  split
  · rename_i listed
    constructor
    · exact .inl
    · rintro (held | rfl)
      · exact held
      · exact listed
  · rw [List.mem_append, List.mem_singleton]

theorem Sound.addNode (sound : model.Sound) (nodeType : ByteString)
    (allowed : model.Allows (.addNode nodeType)) : (model.addNode nodeType).Sound where
  unique_ids := sound.unique_ids.insertIfNew allowed
  joins := sound.joins.mono fun _ known => Std.ExtTreeMap.mem_insertIfNew.mpr (.inr known)
  one_parent := sound.one_parent
  first_port := sound.first_port

/-- An update that was not refused. -/
theorem updateNode_cases (model : BehaviorGraphModel) (id : NodeId)
    (document : BehaviorNodeDocument) (isRoot : Bool) :
    model.updateNode id document isRoot = (false, model) ∨
      ∃ target, model.nodes[id]? = some target ∧
        (∀ (other : NodeId) (held : BehaviorGraphNode), other ≠ id →
          model.nodes[other]? = some held → held.stableId ≠ document.id) ∧
        model.updateNode id document isRoot = (true, { model with
          nodes := model.nodes.insert id { target with
            stableId := document.id, type := document.type, name := document.name,
            parameters := document.parameters }
          rootId := if isRoot then id else model.rootId }) := by
  unfold updateNode
  cases found : model.nodes[id]? with
  | none => exact .inl rfl
  | some target =>
    simp only
    split
    · exact .inl rfl
    · rename_i free
      refine .inr ⟨target, rfl, fun other held differ listed same => free ?_, rfl⟩
      have entry := Std.ExtTreeMap.mem_toList_iff_getElem?_eq_some.mpr listed
      rw [Bool.or_eq_true, List.any_eq_true]
      exact .inr ⟨(other, held), entry, by simp [differ, same]⟩

theorem Sound.updateNode (sound : model.Sound) (id : NodeId) (document : BehaviorNodeDocument)
    (isRoot : Bool) : (model.updateNode id document isRoot).2.Sound := by
  rcases model.updateNode_cases id document isRoot with refused | ⟨target, -, free, updated⟩
  · rw [refused]
    exact sound
  · rw [updated]
    exact {
      unique_ids := sound.unique_ids.insert free
      joins := sound.joins.mono fun _ known => Std.ExtTreeMap.mem_insert.mpr (.inr known)
      one_parent := sound.one_parent
      first_port := sound.first_port }

theorem Sound.addConnection (sound : model.Sound) (connection : ConnectionId)
    (allowed : connection.inPortIndex = 0) : (model.addConnection connection).Sound := by
  unfold BehaviorGraphModel.addConnection
  split
  · rename_i possible
    simp only [connectionPossible, Bool.and_eq_true, Bool.not_eq_true', List.any_eq_false,
      beq_iff_eq, not_and] at possible
    obtain ⟨⟨⟨⟨source, target⟩, -⟩, -⟩, free⟩ := possible
    have fresh : ∀ other ∈ model.connections, other.inNodeId ≠ connection.inNodeId :=
      fun other member same => free other member same (sound.first_port other member)
    refine ⟨⟨sound.unique_ids, fun other member => ?_, fun left left_mem right right_mem same => ?_⟩,
      fun other member => ?_⟩
    · rcases mem_insertConnection.mp member with held | rfl
      · exact sound.joins other held
      · exact ⟨Std.ExtTreeMap.mem_iff_contains.mpr source, Std.ExtTreeMap.mem_iff_contains.mpr target⟩
    · rcases mem_insertConnection.mp left_mem with left_held | rfl
      · rcases mem_insertConnection.mp right_mem with right_held | rfl
        · exact sound.one_parent left left_held right right_held same
        · exact absurd same (fresh left left_held)
      · rcases mem_insertConnection.mp right_mem with right_held | rfl
        · exact absurd same.symm (fresh right right_held)
        · rfl
    · rcases mem_insertConnection.mp member with held | rfl
      · exact sound.first_port other held
      · exact allowed
  · exact sound

theorem Sound.fewer (sound : model.Sound) {connections : List ConnectionId}
    (fewer : ∀ connection ∈ connections, connection ∈ model.connections) :
    ({ model with connections } : BehaviorGraphModel).Sound where
  unique_ids := sound.unique_ids
  joins := sound.joins.subset fewer
  one_parent left left_mem right right_mem :=
    sound.one_parent left (fewer left left_mem) right (fewer right right_mem)
  first_port connection member := sound.first_port connection (fewer connection member)

/-- Deleted connections leave the rest of the model. -/
theorem foldl_deleteConnection (removed : List ConnectionId) (model : BehaviorGraphModel) :
    removed.foldl deleteConnection model =
      { model with connections := model.connections.filter (· ∉ removed) } := by
  induction removed generalizing model with
  | nil => simp
  | cons connection removed ih =>
    rw [List.foldl_cons, ih, deleteConnection, List.filter_filter]
    refine congrArg (fun connections => ({ model with connections } : BehaviorGraphModel)) ?_
    refine List.filter_congr fun other _ => ?_
    simp [Bool.and_comm]

theorem Sound.deleteNode (sound : model.Sound) (id : NodeId) :
    (model.deleteNode hashing id).Sound := by
  unfold BehaviorGraphModel.deleteNode
  split
  · rw [foldl_deleteConnection]
    have apart : ∀ connection ∈ model.connections.filter
        (· ∉ model.connections.filter (·.touches id)), connection ∈ model.connections ∧
          connection.outNodeId ≠ id ∧ connection.inNodeId ≠ id := by
      intro connection member
      obtain ⟨held, kept⟩ := List.mem_filter.mp member
      have free : connection.touches id ≠ true := fun touches =>
        of_decide_eq_true kept (List.mem_filter.mpr ⟨held, touches⟩)
      rw [ConnectionId.touches, Ne, Bool.or_eq_true, not_or, beq_iff_eq, beq_iff_eq] at free
      exact ⟨held, free.2, free.1⟩
    have rest := sound.fewer fun connection member => (apart connection member).1
    exact {
      unique_ids := rest.unique_ids.erase id
      joins := sound.joins.erase apart
      one_parent := rest.one_parent
      first_port := rest.first_port }
  · exact sound

/-- One allowed edit keeps the model sound. -/
theorem Sound.apply (sound : model.Sound) (edit : Edit) (allowed : model.Allows edit) :
    (model.apply hashing edit).Sound := by
  cases edit with
  | addNode nodeType => exact sound.addNode nodeType allowed
  | updateNode id document isRoot => exact sound.updateNode id document isRoot
  | addConnection connection => exact sound.addConnection connection allowed
  | deleteConnection connection =>
    exact sound.fewer fun other member => (List.mem_filter.mp member).1
  | deleteNode id => exact sound.deleteNode id

/-- The edits one after another. -/
def Step (hashing : Hashing) (before : BehaviorGraphModel) (edit : Edit)
    (after : BehaviorGraphModel) : Prop := after = before.apply hashing edit

theorem Sound.run {after : BehaviorGraphModel} {edits : List Edit} (sound : model.Sound)
    (run : GuardedRun (Step hashing) Allows model edits after) : after.Sound :=
  run.invariant sound fun before edit after allowed step held => by
    rw [step]
    exact held.apply edit allowed

end Steps

section Return

variable {document : BehaviorTreeDocument} {hashing : Hashing}

theorem foldl_loadNode (root : ByteString) (nodes : List BehaviorNodeDocument)
    (model : BehaviorGraphModel) (ids : NodeIds) (start : Nat)
    (next : model.nextNodeId = numberOf start) :
    nodes.foldl (loadNode root) (model, ids) =
      ({ model with
          nextNodeId := numberOf (start + nodes.length)
          nodes := (numberFrom start (nodes.map graphNode)).foldl
            (fun map entry => map.insertIfNew entry.1 entry.2) model.nodes
          rootId := markedId root (numberFrom start (nodes.map BehaviorNodeDocument.id))
            model.rootId },
        (numberFrom start (nodes.map BehaviorNodeDocument.id)).foldl
          (fun map entry => map.insertIfNew entry.2 entry.1) ids) := by
  induction nodes generalizing model ids start with
  | nil =>
    obtain ⟨nextNodeId, treeId, rootId, nodes, connections⟩ := model
    obtain rfl : nextNodeId = numberOf start := next
    rfl
  | cons node rest ih =>
    rw [List.foldl_cons, loadNode, ih _ _ (start + 1) (by rw [next, numberOf_succ]), next,
      List.length_cons, Nat.add_right_comm start 1, Nat.add_assoc start]
    rfl

/-- The model of a document, in closed form. -/
theorem setDocument_eq (document : BehaviorTreeDocument) : setDocument document = {
    nextNodeId := numberOf document.nodes.length
    treeId := document.treeId
    rootId := markedId document.root (numberFrom 0 document.ids) invalidNodeId
    nodes := numberNodes (document.nodes.map graphNode)
    connections := (document.nodes.flatMap (childConnections (labelIds document.ids))).foldl
      insertConnection [] } := by
  rw [setDocument, foldl_loadNode _ _ _ _ 0 rfl, Nat.zero_add]
  rfl

def idOf (document : BehaviorTreeDocument) (label : ByteString) : NodeId :=
  labelId document.ids label

def childConnection (document : BehaviorTreeDocument) (node : BehaviorNodeDocument)
    (entry : ByteString × Nat) : ConnectionId :=
  ⟨idOf document node.id, UInt32.ofNat entry.2, idOf document entry.1, 0⟩

section Tree

variable (tree : document.IsTree) (small : document.nodes.length < 2 ^ 32)

include small in
theorem idOf_inj {left right : ByteString} (known : left ∈ document.ids)
    (known' : right ∈ document.ids) (same : idOf document left = idOf document right) :
    left = right :=
  labelId_inj (by rwa [BehaviorTreeDocument.ids, List.length_map]) known known' same

include tree in
theorem child_known {node : BehaviorNodeDocument} (member : node ∈ document.nodes)
    {child : ByteString} (listed : child ∈ node.children) : child ∈ document.ids := by
  obtain ⟨other, known, rfl⟩ := tree.children_exist node member child listed
  exact List.mem_map_of_mem known

include tree in
theorem childConnections_eq {node : BehaviorNodeDocument} (member : node ∈ document.nodes) :
    childConnections (labelIds document.ids) node =
      node.children.zipIdx.map (childConnection document node) := by
  rw [childConnections, ← List.filterMap_eq_map]
  refine List.filterMap_congr fun entry listed => ?_
  have child := child_known tree member (List.fst_mem_of_mem_zipIdx listed)
  have own : node.id ∈ document.ids := List.mem_map_of_mem member
  rw [lookup_labelIds, if_pos child, Option.bind_some, lookup_labelIds, if_pos own]
  rfl

theorem foldl_insertConnection (added held : List ConnectionId) (distinct : held.Nodup) :
    (added.foldl insertConnection held).Nodup ∧
      ∀ connection, connection ∈ added.foldl insertConnection held ↔
        connection ∈ held ∨ connection ∈ added := by
  induction added generalizing held with
  | nil => simpa using distinct
  | cons first added ih =>
    have kept : (insertConnection held first).Nodup := by
      unfold insertConnection
      split
      · exact distinct
      · rename_i fresh
        exact List.nodup_append.mpr ⟨distinct, List.nodup_singleton first, fun left left_mem right
          right_mem same => fresh (List.mem_singleton.mp right_mem ▸ same ▸ left_mem)⟩
    obtain ⟨nodup, members⟩ := ih _ kept
    refine ⟨nodup, fun connection => ?_⟩
    rw [List.foldl_cons, members, mem_insertConnection, List.mem_cons, or_assoc]

include tree in
theorem mem_connections {connection : ConnectionId} :
    connection ∈ (setDocument document).connections ↔
      ∃ node ∈ document.nodes, ∃ entry ∈ node.children.zipIdx,
        connection = childConnection document node entry := by
  rw [setDocument_eq, (foldl_insertConnection _ _ List.nodup_nil).2]
  simp only [List.not_mem_nil, false_or, List.mem_flatMap]
  constructor
  · rintro ⟨node, member, listed⟩
    rw [childConnections_eq tree member] at listed
    obtain ⟨entry, inside, rfl⟩ := List.mem_map.mp listed
    exact ⟨node, member, entry, inside, rfl⟩
  · rintro ⟨node, member, entry, inside, rfl⟩
    refine ⟨node, member, ?_⟩
    rw [childConnections_eq tree member]
    exact List.mem_map_of_mem inside

include small in
theorem lookup_idOf {node : BehaviorNodeDocument} (member : node ∈ document.nodes)
    (distinct : document.ids.Nodup) :
    (setDocument document).nodes[idOf document node.id]? = some (graphNode node) := by
  rw [setDocument_eq]
  exact lookup_labelId graphNode small distinct member

include tree small in
theorem setDocument_sound : (setDocument document).Sound where
  unique_ids := by
    refine UniqueLabels.of_nodup ?_
    rw [setDocument_eq, toList_numberNodes (by rwa [List.length_map])]
    have labels : ((numberFrom 0 (document.nodes.map graphNode)).map fun entry =>
        entry.2.stableId) = document.ids := by
      rw [← Function.comp_def BehaviorGraphNode.stableId, ← List.map_map, map_snd_numberFrom,
        List.map_map]
      rfl
    rw [labels]
    exact tree.unique_ids
  joins := by
    intro connection member
    obtain ⟨node, known, ⟨child, port⟩, listed, rfl⟩ := (mem_connections tree).mp member
    obtain ⟨other, other_known, rfl⟩ := tree.children_exist node known child
      (List.fst_mem_of_mem_zipIdx listed)
    exact ⟨mem_iff_lookup.mpr ⟨_, lookup_idOf small known tree.unique_ids⟩,
      mem_iff_lookup.mpr ⟨_, lookup_idOf small other_known tree.unique_ids⟩⟩
  one_parent := by
    intro left left_mem right right_mem same
    obtain ⟨node, known, ⟨child, port⟩, listed, rfl⟩ := (mem_connections tree).mp left_mem
    obtain ⟨node', known', ⟨child', port'⟩, listed', rfl⟩ := (mem_connections tree).mp right_mem
    have inside := List.mem_zipIdx_iff_getElem?.mp listed
    have inside' := List.mem_zipIdx_iff_getElem?.mp listed'
    have child_mem := List.mem_of_getElem? inside
    have child_mem' := List.mem_of_getElem? inside'
    obtain rfl : child = child' := idOf_inj small (child_known tree known child_mem)
      (child_known tree known' child_mem') same
    obtain rfl : node = node' := tree.one_parent_of_mem known known' child_mem child_mem'
    have bound : port < node.children.length := (List.getElem?_eq_some_iff.mp inside).1
    obtain rfl : port = port' :=
      (List.getElem?_inj bound (tree.once node known)).mp (inside.trans inside'.symm)
    rfl
  first_port := by
    intro connection member
    obtain ⟨node, -, entry, -, rfl⟩ := (mem_connections tree).mp member
    rfl

include tree in
theorem children_length {node : BehaviorNodeDocument} (member : node ∈ document.nodes) :
    node.children.length ≤ document.nodes.length := by
  have inside : node.children ⊆ document.ids := fun child listed => child_known tree member listed
  have bound := ((tree.once node member).subperm inside).length_le
  rwa [BehaviorTreeDocument.ids, List.length_map] at bound

/-- Whatever the order of the set, the connections of a node come out by their ports. -/
theorem outgoing_eq (tree : document.IsTree) (small : document.nodes.length < 2 ^ 32)
    {node : BehaviorNodeDocument} (member : node ∈ document.nodes) :
    (setDocument document).outgoing hashing (idOf document node.id) =
      node.children.zipIdx.map (childConnection document node) := by
  have bound := children_length tree member
  have port_lt : ∀ entry ∈ node.children.zipIdx, entry.2 < 2 ^ 32 := fun entry listed =>
    (List.snd_lt_of_mem_zipIdx listed).trans_le (by omega)
  have ports : ∀ left ∈ node.children.zipIdx, ∀ right ∈ node.children.zipIdx,
      ((childConnection document node left).outPortIndex ≤
        (childConnection document node right).outPortIndex ↔ left.2 ≤ right.2) := by
    intro left left_mem right right_mem
    rw [UInt32.le_iff_toNat_le, childConnection, childConnection,
      UInt32.toNat_ofNat_of_lt' (port_lt left left_mem),
      UInt32.toNat_ofNat_of_lt' (port_lt right right_mem)]
  have indices : node.children.zipIdx.Pairwise fun left right => left.2 < right.2 := by
    have numbered := List.pairwise_lt_range' (s := 0) (n := node.children.length)
    rwa [← List.zipIdx_map_snd, List.pairwise_map] at numbered
  have ascending : (node.children.zipIdx.map (childConnection document node)).Pairwise
      fun left right => left.outPortIndex ≤ right.outPortIndex :=
    List.pairwise_map.mpr (indices.imp_of_mem fun left_mem right_mem before =>
      (ports _ left_mem _ right_mem).mpr before.le)
  have distinct : (node.children.zipIdx.map (childConnection document node)).Nodup := by
    refine List.pairwise_map.mpr (indices.imp_of_mem fun left_mem right_mem before same => ?_)
    have after := (ports _ right_mem _ left_mem).mp
      (congrArg ConnectionId.outPortIndex same ▸ UInt32.le_refl _)
    omega
  have members : ∀ connection, connection ∈ ((setDocument document).outgoing hashing
      (idOf document node.id)) ↔ connection ∈ node.children.zipIdx.map (childConnection document node) := by
    intro connection
    rw [outgoing, List.mem_insertionSort, List.mem_filter, (hashing.perm _).mem_iff,
      mem_connections tree, decide_eq_true_eq, List.mem_map]
    constructor
    · rintro ⟨⟨other, known, entry, listed, rfl⟩, leaves⟩
      have same := idOf_inj small (List.mem_map_of_mem known) (List.mem_map_of_mem member) leaves
      obtain rfl : other = node := List.inj_on_of_nodup_map tree.unique_ids known member same
      exact ⟨entry, listed, rfl⟩
    · rintro ⟨entry, listed, rfl⟩
      exact ⟨⟨node, member, entry, listed, rfl⟩, rfl⟩
  have nodup : ((setDocument document).outgoing hashing (idOf document node.id)).Nodup := by
    rw [outgoing, (List.perm_insertionSort _ _).nodup_iff]
    refine List.Nodup.filter _ ((hashing.perm _).nodup_iff.mpr ?_)
    rw [setDocument_eq]
    exact (foldl_insertConnection _ _ List.nodup_nil).1
  refine List.Perm.eq_of_pairwise (fun left right left_mem right_mem before after => ?_)
    (List.pairwise_insertionSort _ _) ascending
      ((List.perm_ext_iff_of_nodup nodup distinct).mpr members)
  obtain ⟨first, first_mem, rfl⟩ := List.mem_map.mp ((members left).mp left_mem)
  obtain ⟨second, second_mem, rfl⟩ := List.mem_map.mp right_mem
  have port := Nat.le_antisymm ((ports first first_mem second second_mem).mp before)
    ((ports second second_mem first first_mem).mp after)
  have inside := List.mem_zipIdx_iff_getElem?.mp first_mem
  rw [port, List.mem_zipIdx_iff_getElem?.mp second_mem] at inside
  rw [Prod.ext (Option.some.inj inside).symm port]

theorem writeNode_eq (tree : document.IsTree) (small : document.nodes.length < 2 ^ 32)
    {node : BehaviorNodeDocument} (member : node ∈ document.nodes) :
    (setDocument document).writeNode hashing (idOf document node.id, graphNode node) = some node := by
  have children : (node.children.zipIdx.map (childConnection document node)).mapM
      (fun connection => (setDocument document).nodes[connection.inNodeId]?.map
        BehaviorGraphNode.stableId) = some node.children := by
    rw [List.mapM_map, mapM_of_forall Prod.fst, List.zipIdx_map_fst]
    intro entry listed
    obtain ⟨other, known, named⟩ := tree.children_exist node member entry.1
      (List.fst_mem_of_mem_zipIdx listed)
    have found := lookup_idOf small known tree.unique_ids
    rw [named] at found
    rw [Function.comp_apply, childConnection, found, Option.map_some, ← named]
    rfl
  rw [writeNode, outgoing_eq tree small member, children]
  rfl

theorem toList_nodes (tree : document.IsTree) (small : document.nodes.length < 2 ^ 32) :
    (setDocument document).nodes.toList =
      document.nodes.map fun node => (idOf document node.id, graphNode node) := by
  rw [setDocument_eq]
  exact toList_labelId graphNode small tree.unique_ids

/-- A loaded document is written back as it was. -/
theorem document_setDocument (tree : document.IsTree)
    (version : document.schemaVersion = behaviorDocumentSchemaVersion)
    (small : document.nodes.length < 2 ^ 32) :
    (setDocument document).document hashing = some document := by
  have nodes : (setDocument document).nodes.toList.mapM ((setDocument document).writeNode hashing) =
      some document.nodes := by
    rw [toList_nodes tree small, List.mapM_map, mapM_of_forall id, List.map_id]
    exact fun node member => writeNode_eq tree small member
  obtain ⟨root, member, named⟩ := tree.root_exists
  have known : document.root ∈ document.ids := List.mem_map.mpr ⟨root, member, named⟩
  have rootId : (setDocument document).rootId = idOf document document.root := by
    have marked : markedId document.root (numberFrom 0 document.ids) invalidNodeId = _ :=
      markedId_numberFrom tree.unique_ids known _
    rw [setDocument_eq, marked, Nat.zero_add]
    rfl
  have found := lookup_idOf small member tree.unique_ids
  rw [named] at found
  have treeId : (setDocument document).treeId = document.treeId := by rw [setDocument_eq]
  rw [BehaviorGraphModel.document, nodes, rootId, found, treeId]
  obtain ⟨schemaVersion, treeId, label, nodes⟩ := document
  obtain rfl : schemaVersion = behaviorDocumentSchemaVersion := version
  obtain rfl : root.id = label := named
  rfl

end Tree

end Return

end BehaviorGraphModel

end GeoWorld.Editor
