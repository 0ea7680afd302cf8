import Mathlib
import GeoWorld.Tooling.BehaviorXml
import GeoWorld.Tooling.JsonText

/-!
Artifacts of both kinds in arbitrary buffers, whose tables may lack any text, vector or position,
and the loader that reads them.
-/

namespace GeoWorld.Tooling

open WorldModel Library DocumentValidation

section Tables

structure ParameterFields where
  key : Option ByteString
  value : Option ByteString

structure BehaviorNodeFields where
  id : Option ByteString
  type : Option ByteString
  name : Option ByteString
  position : Option EditorPosition
  children : Option (List ByteString)
  parameters : Option (List ParameterFields)

structure HfsmStateFields where
  id : Option ByteString
  name : Option ByteString
  parent : Option ByteString
  position : Option EditorPosition

structure HfsmTransitionFields where
  source : Option ByteString
  event : Option ByteString
  target : Option ByteString
  priority : Int32

/-- A root table as its accessors show it; `none` is a null pointer. -/
structure ArtifactFields where
  formatVersion : UInt32
  schemaVersion : UInt32
  compilerVersion : UInt32
  kind : ArtifactKind
  sourceHash : Option ByteString
  documentId : Option ByteString
  entryId : Option ByteString
  behaviorNodes : Option (List BehaviorNodeFields)
  hfsmStates : Option (List HfsmStateFields)
  hfsmTransitions : Option (List HfsmTransitionFields)
  runtimeXml : Option ByteString

namespace BehaviorNodeFields

/-- The node with its position and its parameters. -/
def tables (node : BehaviorNodeFields) : Nat :=
  1 + node.position.toList.length + (node.parameters.getD []).length

/-- Of the parameters with one key `emplace` keeps the first. -/
def emplaceParameters : Std.ExtTreeMap ByteString ByteString compare → List ParameterFields →
    Option (Std.ExtTreeMap ByteString ByteString compare)
  | parameters, [] => some parameters
  | parameters, entry :: rest => do
    let key ← entry.key
    let value ← entry.value
    emplaceParameters (parameters.insertIfNew key value) rest

/-- `none` where a null pointer is read. -/
def document (node : BehaviorNodeFields) : Option BehaviorNodeDocument := do
  let id ← node.id
  let type ← node.type
  let name ← node.name
  let position ← node.position
  let children ← node.children
  let parameters ← emplaceParameters ∅ (← node.parameters)
  return { id, type, name, position, children, parameters }

end BehaviorNodeFields

def HfsmStateFields.document (state : HfsmStateFields) : Option HfsmStateDocument := do
  return { id := ← state.id, name := ← state.name, parent := ← state.parent,
           position := ← state.position }

def HfsmTransitionFields.document (item : HfsmTransitionFields) : Option HfsmTransitionDocument := do
  return { source := ← item.source, event := ← item.event, target := ← item.target,
           priority := item.priority }

/-- The tables that the verifier counts. -/
def ArtifactFields.tables (source : ArtifactFields) : Nat :=
  1 + ((source.behaviorNodes.getD []).map BehaviorNodeFields.tables).sum +
    ((source.hfsmStates.getD []).map fun state => 1 + state.position.toList.length).sum +
      (source.hfsmTransitions.getD []).length

end Tables

section Complete

/-- A table with nothing left out. -/
def BehaviorNodeTable.fields (node : BehaviorNodeTable) : BehaviorNodeFields where
  id := some node.id
  type := some node.type
  name := some node.name
  position := some node.position
  children := some node.children
  parameters := some (node.parameters.map fun entry => ⟨some entry.1, some entry.2⟩)

def HfsmStateDocument.fields (state : HfsmStateDocument) : HfsmStateFields :=
  ⟨some state.id, some state.name, some state.parent, some state.position⟩

def HfsmTransitionDocument.fields (item : HfsmTransitionDocument) : HfsmTransitionFields :=
  ⟨some item.source, some item.event, some item.target, item.priority⟩

def BehaviorArtifact.fields (artifact : BehaviorArtifact) : ArtifactFields where
  formatVersion := artifact.formatVersion
  schemaVersion := artifact.schemaVersion
  compilerVersion := artifact.compilerVersion
  kind := artifact.kind
  sourceHash := some artifact.sourceHash
  documentId := some artifact.documentId
  entryId := some artifact.entryId
  behaviorNodes := some (artifact.behaviorNodes.map BehaviorNodeTable.fields)
  hfsmStates := some (artifact.hfsmStates.map HfsmStateDocument.fields)
  hfsmTransitions := some (artifact.hfsmTransitions.map HfsmTransitionDocument.fields)
  runtimeXml := some artifact.runtimeXml

theorem BehaviorArtifact.tables_fields (artifact : BehaviorArtifact) :
    artifact.fields.tables = artifact.tables := by
  have nodes : (artifact.behaviorNodes.map BehaviorNodeTable.fields).map
      BehaviorNodeFields.tables =
        artifact.behaviorNodes.map fun node => 2 + node.parameters.length := by
    rw [List.map_map]
    refine List.map_congr_left fun node _ => ?_
    simp [BehaviorNodeTable.fields, BehaviorNodeFields.tables]
  have states : (artifact.hfsmStates.map HfsmStateDocument.fields).map
      (fun state => 1 + state.position.toList.length) = artifact.hfsmStates.map fun _ => 2 := by
    rw [List.map_map]
    rfl
  rw [ArtifactFields.tables, BehaviorArtifact.tables, BehaviorArtifact.fields]
  simp only [Option.getD_some, nodes, states, List.length_map, List.map_const', List.sum_replicate,
    smul_eq_mul, Nat.mul_comm]

theorem HfsmStateDocument.document_fields (state : HfsmStateDocument) :
    state.fields.document = some state := rfl

theorem HfsmTransitionDocument.document_fields (item : HfsmTransitionDocument) :
    item.fields.document = some item := rfl

end Complete

/-- The FlatBuffers runtime over arbitrary buffers. -/
structure FieldBuffers where
  finish : BehaviorArtifact → List UInt8
  hasIdentifier : List UInt8 → Bool
  /-- The checks of the verifier other than the number of tables. -/
  wellFormed : List UInt8 → Bool
  getRoot : List UInt8 → ArtifactFields

namespace FieldBuffers

structure Faithful (buffers : FieldBuffers) : Prop where
  nonempty_finish : ∀ artifact, buffers.finish artifact ≠ []
  identifier_finish : ∀ artifact, buffers.hasIdentifier (buffers.finish artifact) = true
  wellFormed_finish : ∀ artifact, buffers.wellFormed (buffers.finish artifact) = true
  getRoot_finish : ∀ artifact, buffers.getRoot (buffers.finish artifact) = artifact.stored.fields

def verify (buffers : FieldBuffers) (bytes : List UInt8) : Bool :=
  buffers.wellFormed bytes && decide ((buffers.getRoot bytes).tables ≤ verifierMaxTables)

/-- Buffers whose tables always have all their fields. -/
def ofTables (buffers : ArtifactBuffers) : FieldBuffers where
  finish := buffers.finish
  hasIdentifier := buffers.hasIdentifier
  wellFormed := buffers.wellFormed
  getRoot bytes := (buffers.getRoot bytes).fields

variable {buffers : ArtifactBuffers}

theorem ofTables_faithful (faithful : buffers.Faithful) : (ofTables buffers).Faithful where
  nonempty_finish := faithful.nonempty_finish
  identifier_finish := faithful.identifier_finish
  wellFormed_finish := faithful.wellFormed_finish
  getRoot_finish artifact := congrArg BehaviorArtifact.fields (faithful.getRoot_finish artifact)

theorem verify_ofTables (buffers : ArtifactBuffers) (bytes : List UInt8) :
    (ofTables buffers).verify bytes = verifyArtifact buffers bytes := by
  rw [verify, verifyArtifact, ← BehaviorArtifact.tables_fields]
  rfl

end FieldBuffers

namespace BehaviorTreeDocument

def json (document : BehaviorTreeDocument) : Json :=
  .object [
    (utf8 "nodes", .array (document.nodes.map fun node => .object [
      (utf8 "children", .array (node.children.map .text)), (utf8 "id", .text node.id),
      (utf8 "name", .text node.name),
      (utf8 "parameters", .object (node.parameters.toList.map fun entry =>
        (entry.1, .text entry.2))),
      (utf8 "position", positionJson node.position), (utf8 "type", .text node.type)])),
    (utf8 "root", .text document.root),
    (utf8 "schema_version", .unsigned document.schemaVersion),
    (utf8 "tree_id", .text document.treeId)]

def canonicalJson (dump : JsonDump) (document : BehaviorTreeDocument) : Option ByteString :=
  dump document.json

end BehaviorTreeDocument

def BehaviorNodeDocument.table (node : BehaviorNodeDocument) : BehaviorNodeTable :=
  ⟨node.id, node.type, node.name, node.position, node.children, node.parameters.toList⟩

namespace BehaviorTreeDocument

/-- The table of `compile_document`. -/
def artifact (document : BehaviorTreeDocument) (source : ByteString) : BehaviorArtifact where
  schemaVersion := behaviorDocumentSchemaVersion
  compilerVersion := behaviorCompilerVersion
  kind := .behaviorTree
  sourceHash := Tooling.sourceHash source
  documentId := document.treeId
  entryId := document.root
  behaviorNodes := document.nodes.map BehaviorNodeDocument.table
  hfsmStates := []
  hfsmTransitions := []
  runtimeXml := document.exportBehaviorTreeXml

/-- `none` when an exception leaves the call. -/
def compile (buffers : FieldBuffers) (dump : JsonDump) (document : BehaviorTreeDocument) :
    Option (List UInt8) :=
  if valid (document.validate .defaults) then
    (document.canonicalJson dump).map fun source => buffers.finish (document.artifact source)
  else
    some []

end BehaviorTreeDocument

/-- Every kind but the behaviour tree counts as a state machine. -/
def publicKind (kind : ArtifactKind) : ArtifactKind :=
  if kind = .behaviorTree then .behaviorTree else .stateMachine

def artifactType (kind : ArtifactKind) : ByteString :=
  if kind = .behaviorTree then utf8 "geoworld.behavior_tree" else utf8 "geoworld.state_machine"

namespace ArtifactFields

/-- The part of the artifact that both kinds share. -/
def opened (source : ArtifactFields) (expected : ArtifactKind) :
    Option CompiledBehaviorArtifact := do
  let documentId ← source.documentId
  let entryId ← source.entryId
  let runtimeXml ← source.runtimeXml
  let sourceHash ← source.sourceHash
  return { header := ⟨artifactType expected, source.schemaVersion, sourceHash,
             source.compilerVersion⟩
           kind := expected, documentId, entryId, runtimeXml }

def tree (source : ArtifactFields) (artifact : CompiledBehaviorArtifact) :
    Option BehaviorTreeDocument := do
  let nodes ← (← source.behaviorNodes).mapM BehaviorNodeFields.document
  return { schemaVersion := source.schemaVersion, treeId := artifact.documentId,
           root := artifact.entryId, nodes }

def machine (source : ArtifactFields) (artifact : CompiledBehaviorArtifact) :
    Option HfsmDocument := do
  let states ← (← source.hfsmStates).mapM HfsmStateFields.document
  let transitions ← (← source.hfsmTransitions).mapM HfsmTransitionFields.document
  return { schemaVersion := source.schemaVersion, machineId := artifact.documentId,
           initialState := artifact.entryId, states, transitions }

end ArtifactFields

/-- The check of the source hash. -/
def checkSourceHash (artifact : CompiledBehaviorArtifact) (text : ByteString) :
    DocumentValidation :=
  if artifact.header.sourceHash ≠ sourceHash text then
    addError .artifact artifact.documentId (utf8 "制品 source hash 校验失败")
  else []

def checkRuntimeXml (artifact : CompiledBehaviorArtifact) : DocumentValidation :=
  if artifact.runtimeXml ≠ artifact.behaviorTree.exportBehaviorTreeXml then
    addError .artifact artifact.documentId (utf8 "制品中的运行时 XML 与节点模型不一致")
  else []

/-- `load_behavior_artifact`; `none` when an exception leaves the call or a null pointer is
read. -/
def loadArtifact (buffers : FieldBuffers) (dump : JsonDump) (bytes : List UInt8)
    (expected : ArtifactKind) (artifact : CompiledBehaviorArtifact) :
    Option (DocumentValidation × CompiledBehaviorArtifact) :=
  if bytes.isEmpty || !buffers.hasIdentifier bytes || !buffers.verify bytes then
    some (addError .artifact [] (utf8 "制品不是有效的 GeoWorld 行为制品"), artifact)
  else
    let source := buffers.getRoot bytes
    if source.formatVersion ≠ behaviorArtifactFormatVersion ∨
        source.schemaVersion ≠ behaviorDocumentSchemaVersion ∨
        source.compilerVersion ≠ behaviorCompilerVersion ∨ publicKind source.kind ≠ expected then
      some (addError .artifact [] (utf8 "制品版本或类型不兼容"), artifact)
    else do
      let opened ← source.opened expected
      if expected = .behaviorTree then
        let loaded := { opened with behaviorTree := ← source.tree opened }
        let text ← loaded.behaviorTree.canonicalJson dump
        return (loaded.behaviorTree.validate .defaults ++ checkRuntimeXml loaded ++
          checkSourceHash loaded text, loaded)
      else
        let loaded := { opened with hfsm := ← source.machine opened }
        let text ← loaded.hfsm.canonicalJson dump
        return (loaded.hfsm.validate ++ checkSourceHash loaded text, loaded)

section Complete

theorem mapM_map_some {α β γ : Type} {read : α → Option γ} {write : β → α} {kept : β → γ}
    (read_write : ∀ item, read (write item) = some (kept item)) (items : List β) :
    (items.map write).mapM read = some (items.map kept) := by
  induction items with
  | nil => rfl
  | cons item rest ih => rw [List.map_cons, List.mapM_cons, read_write, ih]; rfl

theorem mapM_map_self {α β : Type} {read : α → Option β} {write : β → α}
    (read_write : ∀ item, read (write item) = some item) (items : List β) :
    (items.map write).mapM read = some items := by
  exact (mapM_map_some (fun item => (read_write item : _ = some (id item))) items).trans
    (congrArg some (List.map_id items))

theorem publicKind_stateMachine (kind : ArtifactKind) :
    publicKind kind ≠ .stateMachine ↔ kind = .behaviorTree := by
  cases kind <;> decide

theorem machine_fields (source : BehaviorArtifact) (artifact : CompiledBehaviorArtifact)
    (named : artifact.documentId = source.documentId) (entered : artifact.entryId = source.entryId) :
    source.fields.machine artifact = some source.machine := by
  have states : (source.hfsmStates.map HfsmStateDocument.fields).mapM HfsmStateFields.document =
      some source.hfsmStates := mapM_map_self HfsmStateDocument.document_fields _
  have transitions : (source.hfsmTransitions.map HfsmTransitionDocument.fields).mapM
      HfsmTransitionFields.document = some source.hfsmTransitions :=
    mapM_map_self HfsmTransitionDocument.document_fields _
  simp only [ArtifactFields.machine, BehaviorArtifact.fields, Option.bind_eq_bind, Option.bind_some,
    states, transitions, named, entered]
  rfl

/-- Over complete tables this is the loader of state machines. -/
theorem loadArtifact_stateMachine (buffers : ArtifactBuffers) (dump : JsonDump)
    (bytes : List UInt8) (artifact : CompiledBehaviorArtifact) :
    loadArtifact (.ofTables buffers) dump bytes .stateMachine artifact =
      loadBehaviorArtifact buffers dump bytes artifact := by
  rw [loadArtifact, loadBehaviorArtifact, FieldBuffers.verify_ofTables]
  refine if_congr Iff.rfl rfl ?_
  have root : (FieldBuffers.ofTables buffers).getRoot bytes = (buffers.getRoot bytes).fields := rfl
  simp only [root, publicKind_stateMachine, reduceCtorEq, if_false]
  refine if_congr Iff.rfl rfl ?_
  have opened : (buffers.getRoot bytes).fields.opened .stateMachine =
      some { (buffers.getRoot bytes).loaded with hfsm := ({} : CompiledBehaviorArtifact).hfsm } := rfl
  rw [opened, Option.bind_eq_bind, Option.bind_some, machine_fields _ _ rfl rfl]
  cases dumped : (buffers.getRoot bytes).machine.canonicalJson dump with
  | none => simp [dumped]
  | some text =>
    simp only [Option.bind_eq_bind, Option.bind_some, dumped, Option.map_some]
    rfl

end Complete

end GeoWorld.Tooling
