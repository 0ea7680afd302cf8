import Mathlib
import GeoWorld.Debug.StateHash
import GeoWorld.Protocol.StreamBuilder
import GeoWorld.Tooling.HfsmValidation

/-!
Artifacts of state machines: the canonical JSON of a document and its hash, the FlatBuffers
table that `compile` writes, and the checks of `load_behavior_artifact`.
-/

namespace GeoWorld.Tooling

open WorldModel DocumentValidation

def behaviorArtifactFormatVersion : UInt32 := 1

def behaviorCompilerVersion : UInt32 := 2

/-- JSON values as the document texts use them; objects by ascending key, doubles by bits. -/
inductive Json where
  | text (value : ByteString)
  | unsigned (value : UInt32)
  | integer (value : Int32)
  | real (bits : UInt64)
  | array (items : List Json)
  | object (entries : List (ByteString × Json))

/-- `Json::dump`, `none` where it throws on a text that is not UTF-8. -/
abbrev JsonDump := Json → Option ByteString

def positionJson (position : EditorPosition) : Json :=
  .object [(utf8 "x", .real position.x), (utf8 "y", .real position.y)]

namespace HfsmDocument

def json (document : HfsmDocument) : Json :=
  .object [
    (utf8 "initial_state", .text document.initialState),
    (utf8 "machine_id", .text document.machineId),
    (utf8 "schema_version", .unsigned document.schemaVersion),
    (utf8 "states", .array (document.states.map fun state => .object [
      (utf8 "id", .text state.id), (utf8 "name", .text state.name),
      (utf8 "parent", .text state.parent), (utf8 "position", positionJson state.position)])),
    (utf8 "transitions", .array (document.transitions.map fun item => .object [
      (utf8 "event", .text item.event), (utf8 "priority", .integer item.priority),
      (utf8 "source", .text item.source), (utf8 "target", .text item.target)]))]

def canonicalJson (dump : JsonDump) (document : HfsmDocument) : Option ByteString :=
  dump document.json

end HfsmDocument

/-- Sixteen lower case hexadecimal digits. -/
def hexadecimal (hash : UInt64) : ByteString :=
  (List.range 16).map fun index =>
    let digit := (hash.toNat / 16 ^ (15 - index)) % 16
    UInt8.ofNat (if digit < 10 then 48 + digit else 87 + digit)

def sourceHash (source : ByteString) : ByteString := hexadecimal (Debug.HashBuilder.value source)

inductive ArtifactKind where
  | invalid
  | behaviorTree
  | stateMachine
  deriving DecidableEq

structure BehaviorNodeTable where
  id : ByteString
  type : ByteString
  name : ByteString
  position : EditorPosition
  children : List ByteString
  parameters : List (ByteString × ByteString)

/-- The root table of a buffer. -/
structure BehaviorArtifact where
  formatVersion : UInt32 := behaviorArtifactFormatVersion
  schemaVersion : UInt32
  compilerVersion : UInt32
  kind : ArtifactKind
  sourceHash : ByteString
  documentId : ByteString
  entryId : ByteString
  behaviorNodes : List BehaviorNodeTable := []
  hfsmStates : List HfsmStateDocument
  hfsmTransitions : List HfsmTransitionDocument
  runtimeXml : ByteString := []

namespace EditorPosition

/-- FlatBuffers leaves a double equal to its default out of the table. -/
def stored (position : EditorPosition) : EditorPosition :=
  ⟨Protocol.readBack position.x, Protocol.readBack position.y⟩

end EditorPosition

def HfsmStateDocument.stored (state : HfsmStateDocument) : HfsmStateDocument :=
  { state with position := state.position.stored }

def BehaviorNodeTable.stored (node : BehaviorNodeTable) : BehaviorNodeTable :=
  { node with position := node.position.stored }

namespace BehaviorArtifact

def stored (artifact : BehaviorArtifact) : BehaviorArtifact :=
  { artifact with
    behaviorNodes := artifact.behaviorNodes.map BehaviorNodeTable.stored
    hfsmStates := artifact.hfsmStates.map HfsmStateDocument.stored }

/-- The root table, a node or state with its position, the parameters and the transitions. -/
def tables (artifact : BehaviorArtifact) : Nat :=
  1 + (artifact.behaviorNodes.map fun node => 2 + node.parameters.length).sum +
    2 * artifact.hfsmStates.length + artifact.hfsmTransitions.length

end BehaviorArtifact

/-- The FlatBuffers runtime: the buffer of a finished builder, and what the accessors and the
verifier make of a buffer. -/
structure ArtifactBuffers where
  finish : BehaviorArtifact → List UInt8
  hasIdentifier : List UInt8 → Bool
  /-- The checks of the verifier other than the number of tables. -/
  wellFormed : List UInt8 → Bool
  getRoot : List UInt8 → BehaviorArtifact

/-- Texts and integers are preserved; doubles equal to their default are read as the default. -/
structure ArtifactBuffers.Faithful (buffers : ArtifactBuffers) : Prop where
  nonempty_finish : ∀ artifact, buffers.finish artifact ≠ []
  identifier_finish : ∀ artifact, buffers.hasIdentifier (buffers.finish artifact) = true
  wellFormed_finish : ∀ artifact, buffers.wellFormed (buffers.finish artifact) = true
  getRoot_finish : ∀ artifact, buffers.getRoot (buffers.finish artifact) = artifact.stored

/-- The default limit of `flatbuffers::Verifier`. -/
def verifierMaxTables : Nat := 1000000

def verifyArtifact (buffers : ArtifactBuffers) (bytes : List UInt8) : Bool :=
  buffers.wellFormed bytes && decide ((buffers.getRoot bytes).tables ≤ verifierMaxTables)

namespace HfsmDocument

/-- The table of `compile_document`. -/
def artifact (document : HfsmDocument) (source : ByteString) : BehaviorArtifact where
  schemaVersion := behaviorDocumentSchemaVersion
  compilerVersion := behaviorCompilerVersion
  kind := .stateMachine
  sourceHash := Tooling.sourceHash source
  documentId := document.machineId
  entryId := document.initialState
  hfsmStates := document.states
  hfsmTransitions := document.transitions

/-- `none` when an exception leaves the call. -/
def compile (buffers : ArtifactBuffers) (dump : JsonDump) (document : HfsmDocument) :
    Option (List UInt8) :=
  if valid document.validate then
    (document.canonicalJson dump).map fun source => buffers.finish (document.artifact source)
  else
    some []

end HfsmDocument

structure ArtifactHeader where
  type : ByteString := []
  schemaVersion : UInt32 := 0
  sourceHash : ByteString := []
  compilerVersion : UInt32 := 1

structure CompiledBehaviorArtifact where
  header : ArtifactHeader := {}
  kind : ArtifactKind := .behaviorTree
  documentId : ByteString := []
  entryId : ByteString := []
  runtimeXml : ByteString := []
  behaviorTree : BehaviorTreeDocument := { treeId := [], root := [], nodes := [] }
  hfsm : HfsmDocument := { machineId := [], initialState := [], states := [], transitions := [] }

/-- The state machine of a root table. -/
def BehaviorArtifact.machine (source : BehaviorArtifact) : HfsmDocument where
  schemaVersion := source.schemaVersion
  machineId := source.documentId
  initialState := source.entryId
  states := source.hfsmStates
  transitions := source.hfsmTransitions

/-- The artifact that the loader fills in. -/
def BehaviorArtifact.loaded (source : BehaviorArtifact) : CompiledBehaviorArtifact where
  header := {
    type := utf8 "geoworld.state_machine"
    schemaVersion := source.schemaVersion
    sourceHash := source.sourceHash
    compilerVersion := source.compilerVersion }
  kind := .stateMachine
  documentId := source.documentId
  entryId := source.entryId
  runtimeXml := source.runtimeXml
  hfsm := source.machine

/-- `load_behavior_artifact` for a state machine, which leaves the artifact as it is when the
buffer or its versions are refused. `none` when an exception leaves the call. -/
def loadBehaviorArtifact (buffers : ArtifactBuffers) (dump : JsonDump) (bytes : List UInt8)
    (artifact : CompiledBehaviorArtifact) :
    Option (DocumentValidation × CompiledBehaviorArtifact) :=
  if bytes.isEmpty || !buffers.hasIdentifier bytes || !verifyArtifact buffers bytes then
    some (addError .artifact [] (utf8 "制品不是有效的 GeoWorld 行为制品"), artifact)
  else
    let source := buffers.getRoot bytes
    if source.formatVersion ≠ behaviorArtifactFormatVersion ∨
        source.schemaVersion ≠ behaviorDocumentSchemaVersion ∨
        source.compilerVersion ≠ behaviorCompilerVersion ∨ source.kind = .behaviorTree then
      some (addError .artifact [] (utf8 "制品版本或类型不兼容"), artifact)
    else
      (source.machine.canonicalJson dump).map fun text =>
        (source.machine.validate ++
          (if source.sourceHash ≠ sourceHash text then
            addError .artifact source.documentId (utf8 "制品 source hash 校验失败") else []), source.loaded)

section Loading

variable {buffers : ArtifactBuffers} {dump : JsonDump} {document : HfsmDocument}
variable {bytes : List UInt8}

/-- The document with its positions as FlatBuffers gives them back. -/
def HfsmDocument.stored (document : HfsmDocument) : HfsmDocument :=
  { document with states := document.states.map HfsmStateDocument.stored }

/-- A compiled document is valid, and its buffer is that of its table. -/
theorem HfsmDocument.compile_some (compiled : document.compile buffers dump = some bytes)
    (nonempty : bytes ≠ []) : valid document.validate = true ∧
      ∃ source, document.canonicalJson dump = some source ∧
        bytes = buffers.finish (document.artifact source) := by
  unfold HfsmDocument.compile at compiled
  split at compiled
  · rename_i accepted
    obtain ⟨source, dumped, rfl⟩ := Option.map_eq_some_iff.mp compiled
    exact ⟨accepted, source, dumped, rfl⟩
  · exact absurd (Option.some.inj compiled).symm nonempty

theorem HfsmDocument.artifact_tables (document : HfsmDocument) (source : ByteString) :
    (document.artifact source).stored.tables =
      1 + 2 * document.states.length + document.transitions.length := by
  simp [BehaviorArtifact.stored, BehaviorArtifact.tables, HfsmDocument.artifact]

/-- What becomes of the buffer of a document of the version. -/
theorem load_finish (faithful : buffers.Faithful) (source : ByteString)
    (version : document.schemaVersion = behaviorDocumentSchemaVersion)
    (artifact : CompiledBehaviorArtifact) :
    ∃ loaded : CompiledBehaviorArtifact, loaded.hfsm = document.stored ∧
      loadBehaviorArtifact buffers dump (buffers.finish (document.artifact source)) artifact =
        if 1 + 2 * document.states.length + document.transitions.length ≤ verifierMaxTables then
          (document.stored.canonicalJson dump).map fun text =>
            (document.stored.validate ++
              (if sourceHash source ≠ sourceHash text then
                addError .artifact document.machineId (utf8 "制品 source hash 校验失败") else []),
            loaded)
        else
          some (addError .artifact [] (utf8 "制品不是有效的 GeoWorld 行为制品"), artifact) := by
  have machine_eq : (document.artifact source).stored.machine = document.stored := by
    simp [BehaviorArtifact.machine, BehaviorArtifact.stored, HfsmDocument.artifact,
      HfsmDocument.stored, version]
  have kept : (buffers.finish (document.artifact source)).isEmpty = false := by
    simpa using faithful.nonempty_finish (document.artifact source)
  refine ⟨(document.artifact source).stored.loaded, machine_eq, ?_⟩
  rw [loadBehaviorArtifact, verifyArtifact, faithful.getRoot_finish, faithful.identifier_finish,
    faithful.wellFormed_finish, kept, document.artifact_tables source, ← machine_eq]
  by_cases few : 1 + 2 * document.states.length + document.transitions.length ≤ verifierMaxTables
  · simp only [few, decide_true, if_true]
    rfl
  · simp only [few, decide_false, if_false]
    rfl

end Loading

end GeoWorld.Tooling
