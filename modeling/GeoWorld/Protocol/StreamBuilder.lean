import Mathlib
import GeoWorld.Library.CallTrace
import GeoWorld.Protocol.Wire

/-!
The tables of the data-stream schema as their accessors show them, and the
builder calls that make them. The builder itself is not modelled: a run is the
list of calls it received, each argument that is an offset given by the
position of the call that returned it.
-/

namespace GeoWorld.Protocol

open WorldModel Library

namespace Tables

inductive PropertyValue where
  | none
  | intValue (value : Int64)
  | doubleValue (value : UInt64)
  | boolValue (value : Bool)
  | stringValue (value : Option ByteString)

/-- The tag of the union. -/
def PropertyValue.code : PropertyValue → UInt8
  | none => 0
  | intValue _ => 1
  | doubleValue _ => 2
  | boolValue _ => 3
  | stringValue _ => 4

structure PropertyEntry where
  key : Option ByteString
  value : PropertyValue

structure RelationEntry where
  type : Option ByteString
  targetWid : UInt64

structure Vec3Ecef where
  x : UInt64
  y : UInt64
  z : UInt64

structure ProjectedEntity where
  wid : WorldId
  fid : FeatureId
  version : UInt64
  position : Option Vec3Ecef
  semanticType : Option ByteString
  geometryRef : Option ByteString
  lifecycle : UInt8
  properties : Option (List PropertyEntry)
  state : Option (List PropertyEntry)
  relations : Option (List RelationEntry)
  capabilities : Option (List ByteString)
  frequency : UInt8
  priority : UInt32
  visibilityTags : Option (List ByteString)

structure EntityEnter where
  wid : WorldId
  fid : FeatureId
  entity : Option ProjectedEntity

structure EntityUpdate where
  wid : WorldId
  fid : FeatureId
  entity : Option ProjectedEntity

structure EntityLeave where
  wid : WorldId
  fid : FeatureId
  reason : UInt8

structure KeyframeFrame extends WireHeader where
  entities : Option (List EntityEnter)

structure DeltaFrame extends WireHeader where
  enters : Option (List EntityEnter)
  updates : Option (List EntityUpdate)
  leaves : Option (List EntityLeave)

structure CommandReceipt where
  clientSequence : UInt64
  status : UInt8
  errorCode : Option ByteString

structure ProtocolError where
  code : Option ByteString
  message : Option ByteString

structure ReliableEvent where
  kind : UInt8
  receipt : Option CommandReceipt
  error : Option ProtocolError

structure HeartbeatFrame where
  serverTick : UInt64
  latestSnapshotId : UInt64

inductive ServerFrame where
  | none
  | keyframe (frame : KeyframeFrame)
  | delta (frame : DeltaFrame)
  | reliable (frame : ReliableEvent)
  | heartbeat (frame : HeartbeatFrame)

def ServerFrame.code : ServerFrame → UInt8
  | none => 0
  | keyframe _ => 1
  | delta _ => 2
  | reliable _ => 3
  | heartbeat _ => 4

structure WorldStreamFrame where
  schemaVersion : UInt32
  frame : ServerFrame

end Tables

/-- The builder calls of the two encoders, with their arguments. -/
inductive Call where
  | createString (text : ByteString)
  | createSharedString (text : ByteString)
  | createIntValue (value : Int64)
  | createDoubleValue (value : UInt64)
  | createBoolValue (value : Bool)
  | createStringValue (value : Nat)
  | createPropertyEntry (key : Nat) (valueType : UInt8) (value : Nat)
  | createRelationEntry (type : Nat) (targetWid : UInt64)
  | createVector (elements : List Nat)
  | createVec3Ecef (x y z : UInt64)
  | createProjectedEntity (wid : WorldId) (fid : FeatureId) (version : UInt64)
      (position semanticType geometryRef : Nat) (lifecycle : UInt8)
      (properties state relations capabilities : Nat) (frequency : UInt8)
      (priority : UInt32) (visibilityTags : Nat)
  | createEntityEnter (wid : WorldId) (fid : FeatureId) (entity : Nat)
  | createEntityUpdate (wid : WorldId) (fid : FeatureId) (entity : Nat)
  | createEntityLeave (wid : WorldId) (fid : FeatureId) (reason : UInt8)
  | createKeyframeFrame (header : WireHeader) (entities : Nat)
  | createDeltaFrame (header : WireHeader) (enters updates leaves : Nat)
  | createCommandReceipt (clientSequence : UInt64) (status : UInt8) (errorCode : Nat)
  | createProtocolError (code message : Nat)
  | createReliableEvent (kind : UInt8) (receipt error : Option Nat)
  | createHeartbeatFrame (serverTick latestSnapshotId : UInt64)
  | createWorldStreamFrame (schemaVersion : UInt32) (frameType : UInt8) (frame : Nat)
  deriving DecidableEq

abbrev Building (α : Type) := Issuing Call α

/-- The bit pattern of `-0.0`. -/
def negativeZero : UInt64 := 0x8000000000000000

/-- A double field comparing equal to its default `0.0` is left out of the
table, and its accessor returns the default. -/
def readBack (bits : UInt64) : UInt64 :=
  if bits = negativeZero then 0 else bits

namespace Builder

def createString (text : ByteString) : Building (Handle ByteString) :=
  issue (.createString text) text

def createSharedString (text : ByteString) : Building (Handle ByteString) :=
  issue (.createSharedString text) text

def createIntValue (value : Int64) : Building (Handle Tables.PropertyValue) :=
  issue (.createIntValue value) (.intValue value)

def createDoubleValue (value : UInt64) : Building (Handle Tables.PropertyValue) :=
  issue (.createDoubleValue value) (.doubleValue (readBack value))

def createBoolValue (value : Bool) : Building (Handle Tables.PropertyValue) :=
  issue (.createBoolValue value) (.boolValue value)

def createStringValue (value : Handle ByteString) :
    Building (Handle Tables.PropertyValue) :=
  issue (.createStringValue value.offset) (.stringValue (some value.target))

def createPropertyEntry (key : Handle ByteString) (value : Handle Tables.PropertyValue) :
    Building (Handle Tables.PropertyEntry) :=
  issue (.createPropertyEntry key.offset value.target.code value.offset)
    ⟨some key.target, value.target⟩

def createRelationEntry (type : Handle ByteString) (targetWid : UInt64) :
    Building (Handle Tables.RelationEntry) :=
  issue (.createRelationEntry type.offset targetWid) ⟨some type.target, targetWid⟩

def createVector {α : Type} (elements : List (Handle α)) : Building (Handle (List α)) :=
  issue (.createVector (elements.map Handle.offset)) (elements.map Handle.target)

def createVec3Ecef (x y z : UInt64) : Building (Handle Tables.Vec3Ecef) :=
  issue (.createVec3Ecef x y z) ⟨readBack x, readBack y, readBack z⟩

def createProjectedEntity (wid : WorldId) (fid : FeatureId) (version : UInt64)
    (position : Handle Tables.Vec3Ecef) (semanticType geometryRef : Handle ByteString)
    (lifecycle : UInt8) (properties state : Handle (List Tables.PropertyEntry))
    (relations : Handle (List Tables.RelationEntry))
    (capabilities : Handle (List ByteString)) (frequency : UInt8) (priority : UInt32)
    (visibilityTags : Handle (List ByteString)) :
    Building (Handle Tables.ProjectedEntity) :=
  issue (.createProjectedEntity wid fid version position.offset semanticType.offset
      geometryRef.offset lifecycle properties.offset state.offset relations.offset
      capabilities.offset frequency priority visibilityTags.offset)
    { wid, fid, version, position := some position.target
      semanticType := some semanticType.target
      geometryRef := some geometryRef.target, lifecycle
      properties := some properties.target, state := some state.target
      relations := some relations.target, capabilities := some capabilities.target
      frequency, priority, visibilityTags := some visibilityTags.target }

def createEntityEnter (wid : WorldId) (fid : FeatureId)
    (entity : Handle Tables.ProjectedEntity) : Building (Handle Tables.EntityEnter) :=
  issue (.createEntityEnter wid fid entity.offset) ⟨wid, fid, some entity.target⟩

def createEntityUpdate (wid : WorldId) (fid : FeatureId)
    (entity : Handle Tables.ProjectedEntity) : Building (Handle Tables.EntityUpdate) :=
  issue (.createEntityUpdate wid fid entity.offset) ⟨wid, fid, some entity.target⟩

def createEntityLeave (wid : WorldId) (fid : FeatureId) (reason : UInt8) :
    Building (Handle Tables.EntityLeave) :=
  issue (.createEntityLeave wid fid reason) ⟨wid, fid, reason⟩

def createKeyframeFrame (header : WireHeader)
    (entities : Handle (List Tables.EntityEnter)) :
    Building (Handle Tables.KeyframeFrame) :=
  issue (.createKeyframeFrame header entities.offset) ⟨header, some entities.target⟩

def createDeltaFrame (header : WireHeader) (enters : Handle (List Tables.EntityEnter))
    (updates : Handle (List Tables.EntityUpdate))
    (leaves : Handle (List Tables.EntityLeave)) : Building (Handle Tables.DeltaFrame) :=
  issue (.createDeltaFrame header enters.offset updates.offset leaves.offset)
    ⟨header, some enters.target, some updates.target, some leaves.target⟩

def createCommandReceipt (clientSequence : UInt64) (status : UInt8)
    (errorCode : Handle ByteString) : Building (Handle Tables.CommandReceipt) :=
  issue (.createCommandReceipt clientSequence status errorCode.offset)
    ⟨clientSequence, status, some errorCode.target⟩

def createProtocolError (code message : Handle ByteString) :
    Building (Handle Tables.ProtocolError) :=
  issue (.createProtocolError code.offset message.offset)
    ⟨some code.target, some message.target⟩

def createReliableEvent (kind : UInt8) (receipt : Option (Handle Tables.CommandReceipt))
    (error : Option (Handle Tables.ProtocolError)) :
    Building (Handle Tables.ReliableEvent) :=
  issue (.createReliableEvent kind (receipt.map Handle.offset) (error.map Handle.offset))
    ⟨kind, receipt.map Handle.target, error.map Handle.target⟩

def createHeartbeatFrame (serverTick latestSnapshotId : UInt64) :
    Building (Handle Tables.HeartbeatFrame) :=
  issue (.createHeartbeatFrame serverTick latestSnapshotId) ⟨serverTick, latestSnapshotId⟩

def createWorldStreamFrame {α : Type} (schemaVersion : UInt32)
    (member : α → Tables.ServerFrame) (frame : Handle α) :
    Building (Handle Tables.WorldStreamFrame) :=
  issue (.createWorldStreamFrame schemaVersion (member frame.target).code frame.offset)
    ⟨schemaVersion, member frame.target⟩

end Builder

/-- The buffer a finished builder hands out: its calls and the root table. -/
structure Finished where
  calls : List Call
  root : Handle Tables.WorldStreamFrame

end GeoWorld.Protocol
