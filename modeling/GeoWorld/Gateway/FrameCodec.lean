import Mathlib
import GeoWorld.Projection.Frame
import GeoWorld.Protocol.ServerEncoder

/-!
From projection frames to bytes: the conversion to wire structures, and the
encoder of the hot path, which builds the same tables straight from the
projection types. The two are written twice in the source, function by
function, and so they are here.
-/

namespace GeoWorld.Gateway

open WorldModel Library
open Protocol (Building ProtocolLimits)
open Protocol.Builder

/-- The ordinals of the two enumerations agree. -/
def toWireLifecycle : LifecycleState → Protocol.Lifecycle
  | .staged => .staged
  | .active => .active
  | .suspended => .suspended
  | .retired => .retired

def toWireFrequency : Projection.FrequencyClass → Protocol.FrequencyClass
  | .onChange => .onChange
  | .slow => .slow
  | .fast => .fast

def toWireLeaveReason : Projection.LeaveReason → Protocol.LeaveReason
  | .outOfArea => .outOfArea
  | .notRelevant => .notRelevant
  | .destroyed => .destroyed
  | .policyChanged => .policyChanged

/-- The ordinal that the direct encoder casts. -/
def leaveReasonCode : Projection.LeaveReason → UInt8
  | .outOfArea => 0
  | .notRelevant => 1
  | .destroyed => 2
  | .policyChanged => 3

@[simp] theorem toWireLifecycle_code (lifecycle : LifecycleState) :
    (toWireLifecycle lifecycle).code = lifecycle.code := by
  cases lifecycle <;> rfl

@[simp] theorem toWireFrequency_code (frequency : Projection.FrequencyClass) :
    (toWireFrequency frequency).code = frequency.code := by
  cases frequency <;> rfl

@[simp] theorem toWireLeaveReason_code (reason : Projection.LeaveReason) :
    (toWireLeaveReason reason).code = leaveReasonCode reason := by
  cases reason <;> rfl

/-- The attributes of a relation do not reach the wire. -/
def toWireRelation (relation : Relation) : Protocol.WireRelation where
  type := relation.type
  targetWid := relation.target

def toWireEntity (entity : Projection.ProjectedEntity) : Protocol.WireEntity where
  wid := entity.wid
  fid := entity.fid
  version := entity.version
  position := ⟨entity.position.x, entity.position.y, entity.position.z⟩
  semanticType := entity.semanticType
  geometryRef := entity.geometryRef
  lifecycle := toWireLifecycle entity.lifecycle
  properties := entity.properties
  state := entity.state
  relations := entity.relations.map toWireRelation
  capabilities := entity.capabilities
  frequency := toWireFrequency entity.metadata.frequency
  priority := entity.metadata.priority
  visibilityTags := entity.metadata.visibilityTags

def toWireEnter (enter : Projection.EntityEnter) : Protocol.WireEnter :=
  ⟨enter.wid, enter.fid, toWireEntity enter.entity⟩

def toWireUpdate (update : Projection.EntityUpdate) : Protocol.WireUpdate :=
  ⟨update.wid, update.fid, toWireEntity update.entity⟩

def toWireLeave (leave : Projection.EntityLeave) : Protocol.WireLeave :=
  ⟨leave.wid, leave.fid, toWireLeaveReason leave.reason⟩

/-- The unsigned simulation time is cast to the signed field of the wire. -/
def toWireHeader (header : Projection.FrameHeader) : Protocol.WireHeader where
  streamEpoch := header.streamEpoch
  streamSequence := header.streamSequence
  snapshotId := header.snapshotId
  baselineSnapshotId := header.baselineSnapshotId
  tick := header.tick
  simulationTimeUs := header.simulationTimeUs.toInt64

def toWireFrame : Projection.StateFrame → Protocol.WireFrame
  | .keyframe keyframe =>
    .keyframe
      { toWireHeader keyframe.toFrameHeader with
        entities := keyframe.entities.map toWireEnter }
  | .delta delta =>
    .delta
      { toWireHeader delta.toFrameHeader with
        enters := delta.enters.map toWireEnter
        updates := delta.updates.map toWireUpdate
        leaves := delta.leaves.map toWireLeave }

def directTextWithinLimits (text : ByteString) (limits : ProtocolLimits) : Prop :=
  text.length ≤ limits.maxStringBytes

instance (text : ByteString) (limits : ProtocolLimits) :
    Decidable (directTextWithinLimits text limits) :=
  inferInstanceAs (Decidable (_ ≤ _))

def directEncodeValue (limits : ProtocolLimits) : Value →
    Building (Handle Protocol.Tables.PropertyValue)
  | .integer value => createIntValue value
  | .real bits => createDoubleValue bits
  | .boolean value => createBoolValue value
  | .text text => do
    require (directTextWithinLimits text limits)
    createStringValue (← createSharedString text)

def directEncodeProperty (limits : ProtocolLimits) (entry : ByteString × Value) :
    Building (Handle Protocol.Tables.PropertyEntry) := do
  require (directTextWithinLimits entry.1 limits)
  let payload ← directEncodeValue limits entry.2
  createPropertyEntry (← createSharedString entry.1) payload

def directEncodeBag (bag : PropertyBag) (limits : ProtocolLimits) :
    Building (List (Handle Protocol.Tables.PropertyEntry)) := do
  require (bag.size ≤ limits.maxPropertiesPerEntity)
  bag.toList.mapM (directEncodeProperty limits)

def directEncodeString (limits : ProtocolLimits) (text : ByteString) :
    Building (Handle ByteString) := do
  require (directTextWithinLimits text limits)
  createSharedString text

def directEncodeStrings (source : List ByteString) (limits : ProtocolLimits) :
    Building (List (Handle ByteString)) :=
  source.mapM (directEncodeString limits)

def directEncodeRelation (limits : ProtocolLimits) (relation : Relation) :
    Building (Handle Protocol.Tables.RelationEntry) := do
  require (directTextWithinLimits relation.type limits)
  createRelationEntry (← createSharedString relation.type) relation.target

/-- The offset lists are cleared on entry, so none is left from the last entity. -/
def directEncodeEntity (limits : ProtocolLimits) (entity : Projection.ProjectedEntity) :
    Building (Handle Protocol.Tables.ProjectedEntity) := do
  require (directTextWithinLimits entity.semanticType limits ∧
    directTextWithinLimits entity.geometryRef limits ∧
    entity.relations.length ≤ limits.maxRelationsPerEntity)
  let properties ← directEncodeBag entity.properties limits
  let state ← directEncodeBag entity.state limits
  let relations ← entity.relations.mapM (directEncodeRelation limits)
  let capabilities ← directEncodeStrings entity.capabilities limits
  let visibilityTags ← directEncodeStrings entity.metadata.visibilityTags limits
  let position ← createVec3Ecef entity.position.x entity.position.y entity.position.z
  createProjectedEntity entity.wid entity.fid entity.version position
    (← createSharedString entity.semanticType)
    (← createString entity.geometryRef)
    entity.lifecycle.code
    (← createVector properties) (← createVector state)
    (← createVector relations) (← createVector capabilities)
    entity.metadata.frequency.code entity.metadata.priority
    (← createVector visibilityTags)

def directEncodeEnter (limits : ProtocolLimits) (enter : Projection.EntityEnter) :
    Building (Handle Protocol.Tables.EntityEnter) := do
  createEntityEnter enter.wid enter.fid (← directEncodeEntity limits enter.entity)

def directEncodeUpdate (limits : ProtocolLimits) (update : Projection.EntityUpdate) :
    Building (Handle Protocol.Tables.EntityUpdate) := do
  createEntityUpdate update.wid update.fid (← directEncodeEntity limits update.entity)

def directEncodeEnters (enters : List Projection.EntityEnter) (limits : ProtocolLimits) :
    Building (List (Handle Protocol.Tables.EntityEnter)) :=
  enters.mapM (directEncodeEnter limits)

def directEncodeLeave (leave : Projection.EntityLeave) :
    Building (Handle Protocol.Tables.EntityLeave) :=
  createEntityLeave leave.wid leave.fid (leaveReasonCode leave.reason)

def directEncodeKeyframe (keyframe : Projection.Keyframe) (limits : ProtocolLimits) :
    Building (Handle Protocol.Tables.WorldStreamFrame) := do
  require (keyframe.entities.length ≤ limits.maxEntitiesPerFrame)
  let entities ← directEncodeEnters keyframe.entities limits
  let frame ← createKeyframeFrame
    { streamEpoch := keyframe.streamEpoch
      streamSequence := keyframe.streamSequence
      snapshotId := keyframe.snapshotId
      baselineSnapshotId := keyframe.baselineSnapshotId
      tick := keyframe.tick
      simulationTimeUs := keyframe.simulationTimeUs.toInt64 } (← createVector entities)
  createWorldStreamFrame Protocol.dataSchemaVersion .keyframe frame

def directEncodeDelta (delta : Projection.Delta) (limits : ProtocolLimits) :
    Building (Handle Protocol.Tables.WorldStreamFrame) := do
  require (delta.enters.length + delta.updates.length + delta.leaves.length ≤
    limits.maxEntitiesPerFrame)
  let enters ← directEncodeEnters delta.enters limits
  let updates ← delta.updates.mapM (directEncodeUpdate limits)
  let leaves ← delta.leaves.mapM directEncodeLeave
  let frame ← createDeltaFrame
    { streamEpoch := delta.streamEpoch
      streamSequence := delta.streamSequence
      snapshotId := delta.snapshotId
      baselineSnapshotId := delta.baselineSnapshotId
      tick := delta.tick
      simulationTimeUs := delta.simulationTimeUs.toInt64 } (← createVector enters)
    (← createVector updates) (← createVector leaves)
  createWorldStreamFrame Protocol.dataSchemaVersion .delta frame

def encodeStateFrameInto (frame : Projection.StateFrame) (limits : ProtocolLimits) :
    Option Protocol.Finished :=
  Protocol.finishFrame <|
    match frame with
    | .keyframe keyframe => directEncodeKeyframe keyframe limits
    | .delta delta => directEncodeDelta delta limits

theorem directEncodeValue_eq (limits : ProtocolLimits) (value : Value) :
    directEncodeValue limits value = Protocol.encodeValue limits value := by
  cases value <;> rfl

theorem directEncodeBag_eq (bag : PropertyBag) (limits : ProtocolLimits) :
    directEncodeBag bag limits = Protocol.encodeBag bag limits := by
  have entries : directEncodeProperty limits = Protocol.encodeProperty limits := by
    funext entry
    unfold directEncodeProperty Protocol.encodeProperty
    rw [directEncodeValue_eq]
    rfl
  unfold directEncodeBag Protocol.encodeBag
  rw [entries]

theorem directEncodeStrings_eq (source : List ByteString) (limits : ProtocolLimits) :
    directEncodeStrings source limits = Protocol.encodeStrings source limits := rfl

/-- The wire relation holds just what the direct loop reads. -/
theorem directEncodeRelations_eq (relations : List Relation) (limits : ProtocolLimits) :
    relations.mapM (directEncodeRelation limits) =
      (relations.map toWireRelation).mapM (Protocol.encodeRelation limits) := by
  rw [List.mapM_map]
  rfl

theorem directEncodeEntity_eq (limits : ProtocolLimits)
    (entity : Projection.ProjectedEntity) :
    directEncodeEntity limits entity =
      Protocol.encodeEntity limits (toWireEntity entity) := by
  have bound : entity.relations.length = (toWireEntity entity).relations.length :=
    (List.length_map ..).symm
  have limit : (require (directTextWithinLimits entity.semanticType limits ∧
      directTextWithinLimits entity.geometryRef limits ∧
      entity.relations.length ≤ limits.maxRelationsPerEntity) : Building Unit) =
      require (Protocol.textWithinLimits (toWireEntity entity).semanticType limits ∧
        Protocol.textWithinLimits (toWireEntity entity).geometryRef limits ∧
        (toWireEntity entity).relations.length ≤ limits.maxRelationsPerEntity) :=
    require_congr (by rw [bound]; rfl)
  unfold directEncodeEntity Protocol.encodeEntity
  rw [limit]
  simp only [toWireEntity, directEncodeBag_eq, directEncodeStrings_eq,
    directEncodeRelations_eq, toWireLifecycle_code, toWireFrequency_code]

theorem directEncodeEnters_eq (enters : List Projection.EntityEnter)
    (limits : ProtocolLimits) :
    directEncodeEnters enters limits =
      Protocol.encodeEnters (enters.map toWireEnter) limits := by
  have each : directEncodeEnter limits = Protocol.encodeEnter limits ∘ toWireEnter := by
    funext enter
    simp only [directEncodeEnter, Protocol.encodeEnter, Function.comp, toWireEnter,
      directEncodeEntity_eq]
  unfold directEncodeEnters Protocol.encodeEnters
  rw [each, List.mapM_map]

theorem directEncodeUpdates_eq (updates : List Projection.EntityUpdate)
    (limits : ProtocolLimits) :
    updates.mapM (directEncodeUpdate limits) =
      (updates.map toWireUpdate).mapM (Protocol.encodeUpdate limits) := by
  have each : directEncodeUpdate limits = Protocol.encodeUpdate limits ∘ toWireUpdate := by
    funext update
    simp only [directEncodeUpdate, Protocol.encodeUpdate, Function.comp, toWireUpdate,
      directEncodeEntity_eq]
  rw [each, List.mapM_map]

theorem directEncodeLeaves_eq (leaves : List Projection.EntityLeave) :
    leaves.mapM directEncodeLeave =
      (leaves.map toWireLeave).mapM Protocol.encodeLeave := by
  have each : directEncodeLeave = Protocol.encodeLeave ∘ toWireLeave := by
    funext leave
    simp only [directEncodeLeave, Protocol.encodeLeave, Function.comp, toWireLeave,
      toWireLeaveReason_code]
  rw [each, List.mapM_map]

/-- The direct encoder refuses what the wire path refuses, and otherwise
issues the same builder calls in the same order with the same arguments. -/
theorem direct_encoder_eq_wire_path (frame : Projection.StateFrame)
    (limits : ProtocolLimits) :
    encodeStateFrameInto frame limits =
      Protocol.encodeServerFrameInto (toWireFrame frame) limits := by
  unfold encodeStateFrameInto Protocol.encodeServerFrameInto
  apply congrArg Protocol.finishFrame
  cases frame with
  | keyframe keyframe =>
    have limit : (require (keyframe.entities.length ≤ limits.maxEntitiesPerFrame) :
        Building Unit) = require ((keyframe.entities.map toWireEnter).length ≤
          limits.maxEntitiesPerFrame) :=
      require_congr (by rw [List.length_map])
    simp only [Protocol.encodeServerFrameRoot, toWireFrame, directEncodeKeyframe,
      Protocol.encodeKeyframe, directEncodeEnters_eq, limit, toWireHeader]
  | delta delta =>
    have limit : (require (delta.enters.length + delta.updates.length +
        delta.leaves.length ≤ limits.maxEntitiesPerFrame) : Building Unit) =
        require ((delta.enters.map toWireEnter).length +
          (delta.updates.map toWireUpdate).length +
          (delta.leaves.map toWireLeave).length ≤ limits.maxEntitiesPerFrame) :=
      require_congr (by rw [List.length_map, List.length_map, List.length_map])
    simp only [Protocol.encodeServerFrameRoot, toWireFrame, directEncodeDelta,
      Protocol.encodeDelta, directEncodeEnters_eq, directEncodeUpdates_eq,
      directEncodeLeaves_eq, limit, toWireHeader]

end GeoWorld.Gateway
