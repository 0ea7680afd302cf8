import Mathlib
import GeoWorld.Protocol.StreamBuilder

/-!
The encoder of server frames. C++ leaves the order of nested argument calls
open; here they run from left to right.
-/

namespace GeoWorld.Protocol

open WorldModel Library Builder

def encodeValue (limits : ProtocolLimits) : WireValue →
    Building (Handle Tables.PropertyValue)
  | .integer value => createIntValue value
  | .real bits => createDoubleValue bits
  | .boolean value => createBoolValue value
  | .text text => do
    require (textWithinLimits text limits)
    createStringValue (← createSharedString text)

/-- The body of the loop of `encode_bag`. -/
def encodeProperty (limits : ProtocolLimits) (entry : ByteString × WireValue) :
    Building (Handle Tables.PropertyEntry) := do
  require (textWithinLimits entry.1 limits)
  let payload ← encodeValue limits entry.2
  createPropertyEntry (← createSharedString entry.1) payload

def encodeBag (bag : WireAttributes) (limits : ProtocolLimits) :
    Building (List (Handle Tables.PropertyEntry)) := do
  require (bag.size ≤ limits.maxPropertiesPerEntity)
  bag.toList.mapM (encodeProperty limits)

def encodeString (limits : ProtocolLimits) (text : ByteString) :
    Building (Handle ByteString) := do
  require (textWithinLimits text limits)
  createSharedString text

def encodeStrings (source : List ByteString) (limits : ProtocolLimits) :
    Building (List (Handle ByteString)) :=
  source.mapM (encodeString limits)

/-- The body of the relation loop of `encode_entity`. -/
def encodeRelation (limits : ProtocolLimits) (relation : WireRelation) :
    Building (Handle Tables.RelationEntry) := do
  require (textWithinLimits relation.type limits)
  createRelationEntry (← createSharedString relation.type) relation.targetWid

def encodeEntity (limits : ProtocolLimits) (entity : WireEntity) :
    Building (Handle Tables.ProjectedEntity) := do
  require (textWithinLimits entity.semanticType limits ∧
    textWithinLimits entity.geometryRef limits ∧
    entity.relations.length ≤ limits.maxRelationsPerEntity)
  let properties ← encodeBag entity.properties limits
  let state ← encodeBag entity.state limits
  let relations ← entity.relations.mapM (encodeRelation limits)
  let capabilities ← encodeStrings entity.capabilities limits
  let visibilityTags ← encodeStrings entity.visibilityTags limits
  let position ← createVec3Ecef entity.position.x entity.position.y entity.position.z
  createProjectedEntity entity.wid entity.fid entity.version position
    (← createSharedString entity.semanticType)
    -- The geometry path is unique to its entity; sharing it would save nothing.
    (← createString entity.geometryRef)
    entity.lifecycle.code
    (← createVector properties) (← createVector state)
    (← createVector relations) (← createVector capabilities)
    entity.frequency.code entity.priority (← createVector visibilityTags)

def encodeEnter (limits : ProtocolLimits) (enter : WireEnter) :
    Building (Handle Tables.EntityEnter) := do
  createEntityEnter enter.wid enter.fid (← encodeEntity limits enter.entity)

def encodeUpdate (limits : ProtocolLimits) (update : WireUpdate) :
    Building (Handle Tables.EntityUpdate) := do
  createEntityUpdate update.wid update.fid (← encodeEntity limits update.entity)

def encodeEnters (enters : List WireEnter) (limits : ProtocolLimits) :
    Building (List (Handle Tables.EntityEnter)) :=
  enters.mapM (encodeEnter limits)

def encodeLeave (leave : WireLeave) : Building (Handle Tables.EntityLeave) :=
  createEntityLeave leave.wid leave.fid leave.reason.code

def encodeKeyframe (keyframe : WireKeyframe) (limits : ProtocolLimits) :
    Building (Handle Tables.WorldStreamFrame) := do
  require (keyframe.entities.length ≤ limits.maxEntitiesPerFrame)
  let entities ← encodeEnters keyframe.entities limits
  let frame ← createKeyframeFrame keyframe.toWireHeader (← createVector entities)
  createWorldStreamFrame dataSchemaVersion .keyframe frame

def encodeDelta (delta : WireDelta) (limits : ProtocolLimits) :
    Building (Handle Tables.WorldStreamFrame) := do
  require (delta.enters.length + delta.updates.length + delta.leaves.length ≤
    limits.maxEntitiesPerFrame)
  let enters ← encodeEnters delta.enters limits
  let updates ← delta.updates.mapM (encodeUpdate limits)
  let leaves ← delta.leaves.mapM encodeLeave
  let frame ← createDeltaFrame delta.toWireHeader (← createVector enters)
    (← createVector updates) (← createVector leaves)
  createWorldStreamFrame dataSchemaVersion .delta frame

def encodeReceipt (receipt : WireCommandReceipt) (limits : ProtocolLimits) :
    Building (Handle Tables.CommandReceipt) := do
  require (textWithinLimits receipt.errorCode limits)
  createCommandReceipt receipt.clientSequence receipt.status.code
    (← createString receipt.errorCode)

def encodeError (error : WireProtocolError) (limits : ProtocolLimits) :
    Building (Handle Tables.ProtocolError) := do
  require (textWithinLimits error.code limits ∧ textWithinLimits error.message limits)
  createProtocolError (← createString error.code) (← createString error.message)

/-- The handle stays null when its branch is not taken. -/
def payloadWhen {α : Type} (selected : Prop) [Decidable selected]
    (program : Building (Handle α)) : Building (Option (Handle α)) :=
  if selected then some <$> program else pure none

/-- Only the payload its kind selects is written. -/
def encodeReliable (reliable : WireReliable) (limits : ProtocolLimits) :
    Building (Handle Tables.WorldStreamFrame) := do
  let receipt ← payloadWhen (reliable.kind = .commandReceipt)
    (encodeReceipt reliable.receipt limits)
  let error ← payloadWhen (reliable.kind = .protocolError)
    (encodeError reliable.error limits)
  let frame ← createReliableEvent reliable.kind.code receipt error
  createWorldStreamFrame dataSchemaVersion .reliable frame

def encodeHeartbeat (heartbeat : WireHeartbeat) :
    Building (Handle Tables.WorldStreamFrame) := do
  let frame ← createHeartbeatFrame heartbeat.serverTick heartbeat.latestSnapshotId
  createWorldStreamFrame dataSchemaVersion .heartbeat frame

def encodeServerFrameRoot (frame : WireFrame) (limits : ProtocolLimits) :
    Building (Handle Tables.WorldStreamFrame) :=
  match frame with
  | .keyframe keyframe => encodeKeyframe keyframe limits
  | .delta delta => encodeDelta delta limits
  | .reliable reliable => encodeReliable reliable limits
  | .heartbeat heartbeat => encodeHeartbeat heartbeat

/-- `builder.Reset()`, the calls, and the finish with the root they return. -/
def finishFrame (program : Building (Handle Tables.WorldStreamFrame)) : Option Finished :=
  (program []).map fun built => ⟨built.2, built.1⟩

def encodeServerFrameInto (frame : WireFrame) (limits : ProtocolLimits) :
    Option Finished :=
  finishFrame (encodeServerFrameRoot frame limits)

end GeoWorld.Protocol
