import Mathlib
import GeoWorld.Projection.Frame
import GeoWorld.Projection.SpatialIndex

/-!
Per-connection projection state: feature ids of the current stream epoch, the
view the server believes the client has, the acknowledged view, and the records
of frames that were sent but not yet acknowledged.
-/

namespace GeoWorld.Projection

open WorldModel

abbrev ConnectionId := UInt64

def ConnectionId.valid (id : ConnectionId) : Bool := id != 0

def connectionIdHash (id : ConnectionId) : UInt64 :=
  id ^^^ (id >>> 32)

structure Subscription where
  area : Option Aabb := none
  follow : Option WorldId := none
  followRadiusMeters : UInt64 := 0
  deriving DecidableEq

structure TrackedEntity where
  fid : FeatureId := 0
  entityHash : UInt64 := 0
  frequency : FrequencyClass := .onChange
  lastSentTick : UInt64 := 0
  deriving DecidableEq

inductive SentOpKind where
  | enter
  | update
  | leave
  deriving DecidableEq

structure SentOp where
  kind : SentOpKind
  wid : WorldId
  fid : FeatureId
  entityHash : UInt64
  deriving DecidableEq

/-- `sizeof(SentOp)` on the supported 64-bit targets. -/
def sentOpBytes : Nat := 32

structure SentFrameRecord where
  snapshotId : Nat
  ops : List SentOp
  bytes : Nat
  deriving DecidableEq

inductive EpochResetReason where
  | none
  | reconnect
  | fidExhausted
  deriving DecidableEq

structure ConnectionProjection where
  id : ConnectionId
  subscription : Subscription := {}
  streamEpoch : Nat := 1
  streamSequence : Nat := 0
  epochSnapshotFloor : Nat := 0
  lastEpochResetReason : EpochResetReason := .none
  nextFid : FeatureId := 1
  fidByWid : WidMap FeatureId := ∅
  widByFid : Std.ExtTreeMap FeatureId WorldId compare := ∅
  currentView : WidMap TrackedEntity := ∅
  ackedView : WidMap TrackedEntity := ∅
  ackedBaseline : Nat := 0
  policyVersion : Nat := 0
  needsKeyframe : Bool := true
  lastKeyframeTick : UInt64 := 0
  nextKeyframeTick : UInt64 := 0
  unackedRecords : List SentFrameRecord := []
  unackedBytes : Nat := 0
  unackedWidCounts : WidMap Nat := ∅
  ackedDirty : List WorldId := []
  deriving DecidableEq

namespace ConnectionProjection

def nextStreamSequence (connection : ConnectionProjection) : Nat :=
  connection.streamSequence + 1

def setSubscription (connection : ConnectionProjection) (subscription : Subscription) :
    ConnectionProjection :=
  { connection with subscription := subscription, needsKeyframe := true }

def allocateFid (connection : ConnectionProjection) : FeatureId × ConnectionProjection :=
  (connection.nextFid, { connection with nextFid := connection.nextFid + 1 })

def fidCount (connection : ConnectionProjection) : Nat :=
  connection.fidByWid.size

def mapFid (connection : ConnectionProjection) (wid : WorldId) (fid : FeatureId) :
    ConnectionProjection :=
  { connection with
    fidByWid := connection.fidByWid.insert wid fid
    widByFid := connection.widByFid.insert fid wid }

def fidOf (connection : ConnectionProjection) (wid : WorldId) : Option FeatureId :=
  connection.fidByWid[wid]?

/-- The mapped id of `wid`, allocated and recorded when there is none yet. -/
def ensureFid (connection : ConnectionProjection) (wid : WorldId) :
    FeatureId × ConnectionProjection :=
  match connection.fidOf wid with
  | some fid => (fid, connection)
  | none =>
    let (fid, connection) := connection.allocateFid
    (fid, connection.mapFid wid fid)

def countWids (counts : WidMap Nat) (ops : List SentOp) : WidMap Nat :=
  ops.foldl (fun counts op => counts.insert op.wid ((counts[op.wid]?).getD 0 + 1)) counts

def recordSent (connection : ConnectionProjection) (snapshotId : Nat) (ops : List SentOp) :
    ConnectionProjection :=
  let record : SentFrameRecord := ⟨snapshotId, ops, ops.length * sentOpBytes⟩
  { connection with
    unackedBytes := connection.unackedBytes + record.bytes
    unackedWidCounts := countWids connection.unackedWidCounts ops
    unackedRecords := connection.unackedRecords ++ [record] }

def advanceStreamSequence (connection : ConnectionProjection) : ConnectionProjection :=
  { connection with streamSequence := connection.streamSequence + 1 }

def releaseWid (counts : WidMap Nat) (wid : WorldId) : WidMap Nat :=
  match counts[wid]? with
  | none => counts
  | some count => if count - 1 = 0 then counts.erase wid else counts.insert wid (count - 1)

def releaseRecordWids (counts : WidMap Nat) (record : SentFrameRecord) : WidMap Nat :=
  record.ops.foldl (fun counts op => releaseWid counts op.wid) counts

/-- Removes the oldest record, which is `record`, leaving `rest`. -/
def popRecord (connection : ConnectionProjection) (record : SentFrameRecord)
    (rest : List SentFrameRecord) : ConnectionProjection :=
  { connection with
    unackedBytes := connection.unackedBytes - record.bytes
    unackedWidCounts := releaseRecordWids connection.unackedWidCounts record
    unackedRecords := rest }

def evictLoop (maxFrames maxBytes : Nat) :
    List SentFrameRecord → ConnectionProjection → Bool × ConnectionProjection
  | [], connection => (false, connection)
  | record :: rest, connection =>
    if rest.length + 1 > maxFrames ∨ connection.unackedBytes > maxBytes then
      let wasUnacked := decide (record.snapshotId > connection.ackedBaseline)
      let (evicted, connection) :=
        evictLoop maxFrames maxBytes rest (connection.popRecord record rest)
      (wasUnacked || evicted, connection)
    else
      (false, connection)

/-- The flag says whether an unacknowledged record was lost. -/
def evictUnacked (connection : ConnectionProjection) (maxFrames maxBytes : Nat) :
    Bool × ConnectionProjection :=
  evictLoop maxFrames maxBytes connection.unackedRecords connection

def dropLoop (snapshotId : Nat) :
    List SentFrameRecord → ConnectionProjection → ConnectionProjection
  | [], connection => connection
  | record :: rest, connection =>
    if record.snapshotId ≤ snapshotId then
      dropLoop snapshotId rest (connection.popRecord record rest)
    else
      connection

def dropRecordsThrough (connection : ConnectionProjection) (snapshotId : Nat) :
    ConnectionProjection :=
  dropLoop snapshotId connection.unackedRecords connection

def resetEpoch (connection : ConnectionProjection) (reason : EpochResetReason)
    (snapshotFloor : Nat) : ConnectionProjection :=
  { connection with
    streamEpoch := connection.streamEpoch + 1
    streamSequence := 0
    epochSnapshotFloor := snapshotFloor
    lastEpochResetReason := reason
    nextFid := 1
    fidByWid := ∅
    widByFid := ∅
    currentView := ∅
    ackedView := ∅
    ackedBaseline := 0
    needsKeyframe := true
    unackedRecords := []
    unackedBytes := 0
    unackedWidCounts := ∅
    ackedDirty := [] }

/-- One recorded operation applied to the acknowledged view: an enter or update
overwrites fid and hash and leaves the other fields of an existing entry. -/
def applySentOp (view : WidMap TrackedEntity) (op : SentOp) : WidMap TrackedEntity :=
  match op.kind with
  | .leave => view.erase op.wid
  | _ => view.insert op.wid
      { (view[op.wid]?).getD {} with fid := op.fid, entityHash := op.entityHash }

/-- The records replayed by an acknowledgement: the leading ones up to `snapshotId`. -/
def replayedOps (records : List SentFrameRecord) (snapshotId : Nat) : List SentOp :=
  (records.takeWhile fun record => record.snapshotId ≤ snapshotId).flatMap (·.ops)

/-- `ProjectionEngine::acknowledge` on the connection it found. -/
def acknowledge (connection : ConnectionProjection) (snapshotId : Nat) :
    AckResult × ConnectionProjection :=
  if snapshotId ≤ connection.epochSnapshotFloor then
    (.errorEpochMismatch, connection)
  else if snapshotId ≤ connection.ackedBaseline then
    (.duplicateIgnored, connection)
  else if connection.unackedRecords.any (fun record => record.snapshotId = snapshotId) then
    let ops := replayedOps connection.unackedRecords snapshotId
    let replayed := { connection with
      ackedView := ops.foldl applySentOp connection.ackedView
      ackedDirty := connection.ackedDirty ++ ops.map SentOp.wid
      ackedBaseline := snapshotId }
    (.accepted, replayed.dropRecordsThrough snapshotId)
  else
    (.errorUnknownSnapshot, connection)

end ConnectionProjection

end GeoWorld.Projection
