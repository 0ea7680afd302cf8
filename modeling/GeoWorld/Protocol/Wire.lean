import Mathlib
import GeoWorld.WorldModel.Object

/-!
The wire structures of the data stream, free of any transport. A relation
carries its type and target and no attributes. `schema::Value` and the wire
value are one variant type, and so are the two property maps.
-/

namespace GeoWorld.Protocol

open WorldModel

abbrev WireValue := Value

abbrev WireAttributes := PropertyBag

inductive Lifecycle where
  | staged
  | active
  | suspended
  | retired
  deriving DecidableEq

inductive FrequencyClass where
  | onChange
  | slow
  | fast
  deriving DecidableEq

/-- Diagnostic only; a leave deletes whatever its reason. -/
inductive LeaveReason where
  | outOfArea
  | notRelevant
  | destroyed
  | policyChanged
  deriving DecidableEq

inductive ReceiptStatus where
  | unspecified
  | accepted
  | applied
  | rejected
  | duplicate
  | durableAccepted
  deriving DecidableEq

inductive ReliableKind where
  | unspecified
  | commandReceipt
  | protocolError
  | event
  deriving DecidableEq

def Lifecycle.code : Lifecycle → UInt8
  | staged => 0
  | active => 1
  | suspended => 2
  | retired => 3

def FrequencyClass.code : FrequencyClass → UInt8
  | onChange => 0
  | slow => 1
  | fast => 2

def LeaveReason.code : LeaveReason → UInt8
  | outOfArea => 0
  | notRelevant => 1
  | destroyed => 2
  | policyChanged => 3

def ReceiptStatus.code : ReceiptStatus → UInt8
  | unspecified => 0
  | accepted => 1
  | applied => 2
  | rejected => 3
  | duplicate => 4
  | durableAccepted => 5

def ReliableKind.code : ReliableKind → UInt8
  | unspecified => 0
  | commandReceipt => 1
  | protocolError => 2
  | event => 3

/-- The decoder's bound check on an enumeration and the cast after it. -/
def Lifecycle.ofCode : UInt8 → Option Lifecycle
  | 0 => some staged
  | 1 => some active
  | 2 => some suspended
  | 3 => some retired
  | _ => none

def FrequencyClass.ofCode : UInt8 → Option FrequencyClass
  | 0 => some onChange
  | 1 => some slow
  | 2 => some fast
  | _ => none

def LeaveReason.ofCode : UInt8 → Option LeaveReason
  | 0 => some outOfArea
  | 1 => some notRelevant
  | 2 => some destroyed
  | 3 => some policyChanged
  | _ => none

def ReceiptStatus.ofCode : UInt8 → Option ReceiptStatus
  | 0 => some unspecified
  | 1 => some accepted
  | 2 => some applied
  | 3 => some rejected
  | 4 => some duplicate
  | 5 => some durableAccepted
  | _ => none

def ReliableKind.ofCode : UInt8 → Option ReliableKind
  | 0 => some unspecified
  | 1 => some commandReceipt
  | 2 => some protocolError
  | 3 => some event
  | _ => none

@[simp] theorem Lifecycle.ofCode_code (lifecycle : Lifecycle) :
    ofCode lifecycle.code = some lifecycle := by
  cases lifecycle <;> rfl

@[simp] theorem FrequencyClass.ofCode_code (frequency : FrequencyClass) :
    ofCode frequency.code = some frequency := by
  cases frequency <;> rfl

@[simp] theorem LeaveReason.ofCode_code (reason : LeaveReason) :
    ofCode reason.code = some reason := by
  cases reason <;> rfl

@[simp] theorem ReceiptStatus.ofCode_code (status : ReceiptStatus) :
    ofCode status.code = some status := by
  cases status <;> rfl

@[simp] theorem ReliableKind.ofCode_code (kind : ReliableKind) :
    ofCode kind.code = some kind := by
  cases kind <;> rfl

/-- Doubles are carried as their bit patterns, as in the world. -/
structure WireVec3 where
  x : UInt64
  y : UInt64
  z : UInt64
  deriving DecidableEq

structure WireRelation where
  type : ByteString
  targetWid : UInt64
  deriving DecidableEq

structure WireEntity where
  wid : WorldId
  fid : FeatureId
  version : UInt64
  position : WireVec3
  semanticType : ByteString
  geometryRef : ByteString
  lifecycle : Lifecycle
  properties : WireAttributes
  state : WireAttributes
  relations : List WireRelation
  capabilities : List ByteString
  frequency : FrequencyClass
  priority : UInt32
  visibilityTags : List ByteString
  deriving DecidableEq

structure WireEnter where
  wid : WorldId
  fid : FeatureId
  entity : WireEntity
  deriving DecidableEq

/-- Carries the complete latest projection of its entity. -/
structure WireUpdate where
  wid : WorldId
  fid : FeatureId
  entity : WireEntity
  deriving DecidableEq

structure WireLeave where
  wid : WorldId
  fid : FeatureId
  reason : LeaveReason
  deriving DecidableEq

/-- The fields shared by keyframes and deltas. -/
structure WireHeader where
  streamEpoch : Nat
  streamSequence : Nat
  snapshotId : Nat
  baselineSnapshotId : Nat
  tick : UInt64
  simulationTimeUs : Int64
  deriving DecidableEq

structure WireKeyframe extends WireHeader where
  entities : List WireEnter
  deriving DecidableEq

structure WireDelta extends WireHeader where
  enters : List WireEnter
  updates : List WireUpdate
  leaves : List WireLeave
  deriving DecidableEq

structure WireCommandReceipt where
  clientSequence : UInt64 := 0
  status : ReceiptStatus := .unspecified
  errorCode : ByteString := []
  deriving DecidableEq

structure WireProtocolError where
  code : ByteString := []
  message : ByteString := []
  deriving DecidableEq

/-- `kind` says which of the two payloads counts. -/
structure WireReliable where
  kind : ReliableKind := .unspecified
  receipt : WireCommandReceipt := {}
  error : WireProtocolError := {}
  deriving DecidableEq

structure WireHeartbeat where
  serverTick : UInt64
  latestSnapshotId : UInt64
  deriving DecidableEq

inductive WireFrame where
  | keyframe (frame : WireKeyframe)
  | delta (frame : WireDelta)
  | reliable (frame : WireReliable)
  | heartbeat (frame : WireHeartbeat)
  deriving DecidableEq

/-- The bounds on protocol input, with the baseline values. -/
structure ProtocolLimits where
  maxFrameBytes : Nat := 8 * 1024 * 1024
  maxStringBytes : Nat := 64 * 1024
  maxPropertiesPerEntity : Nat := 256
  maxRelationsPerEntity : Nat := 256
  maxEntitiesPerFrame : Nat := 100000
  verifierMaxDepth : Nat := 64
  verifierMaxTables : Nat := 1000000
  deriving DecidableEq

def dataSchemaVersion : UInt32 := 1

/-- `text_within_limits`. -/
def textWithinLimits (text : ByteString) (limits : ProtocolLimits) : Prop :=
  text.length ≤ limits.maxStringBytes

instance (text : ByteString) (limits : ProtocolLimits) :
    Decidable (textWithinLimits text limits) :=
  inferInstanceAs (Decidable (_ ≤ _))

end GeoWorld.Protocol
