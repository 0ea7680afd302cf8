import Mathlib
import GeoWorld.Projection.Engine

/-!
Frame construction for one connection (`build_frame`), and the public operations
of the engine. A build reads the global state and the world and changes only the
slot of its connection.
-/

namespace GeoWorld.Projection

open WorldModel

namespace ProjectionEngine

def frameHeader (engine : ProjectionEngine) (connection : ConnectionProjection)
    (tick : UInt64) (baseline : Nat) : FrameHeader where
  streamEpoch := connection.streamEpoch
  streamSequence := connection.nextStreamSequence
  snapshotId := engine.latestSnapshotId
  baselineSnapshotId := baseline
  tick := tick
  simulationTimeUs := tick * UInt64.ofNat engine.config.tickDtMicroseconds

structure KeyframeScan where
  connection : ConnectionProjection
  entities : List EntityEnter := []
  ops : List SentOp := []
  nextView : WidMap TrackedEntity := ∅

def keyframeEnter (engine : ProjectionEngine) (tick : UInt64) (scan : KeyframeScan)
    (wid : WorldId) : KeyframeScan :=
  match engine.globalView[wid]? with
  | none => scan
  | some state =>
    let (fid, connection) := scan.connection.ensureFid wid
    { connection := connection
      entities := scan.entities ++ [⟨wid, fid, { state.projected with fid := fid }⟩]
      ops := scan.ops ++ [⟨.enter, wid, fid, state.hash⟩]
      nextView := scan.nextView.insertIfNew wid
        ⟨fid, state.hash, state.projected.metadata.frequency, tick⟩ }

/-- The acknowledged entities a keyframe drops, recorded as leaves. -/
def keyframeLeaves (acked : WidMap TrackedEntity) (visible : List WorldId) : List SentOp :=
  (acked.toList.filter fun entry => entry.1 ∉ visible).map fun entry =>
    ⟨.leave, entry.1, entry.2.fid, 0⟩

/-- `record_sent`, `advance_stream_sequence` and eviction, common to both kinds of frame. -/
def commitFrame (engine : ProjectionEngine) (connection : ConnectionProjection)
    (ops : List SentOp) : ConnectionProjection :=
  let connection := (connection.recordSent engine.latestSnapshotId ops).advanceStreamSequence
  let (evicted, connection) :=
    connection.evictUnacked engine.config.maxUnackedFrames engine.config.maxUnackedBytes
  if evicted then { connection with needsKeyframe := true } else connection

def buildKeyframe (engine : ProjectionEngine) (connection : ConnectionProjection)
    (visible : List WorldId) (forced : Bool) (tick : UInt64) :
    Keyframe × ConnectionProjection :=
  let header := engine.frameHeader connection tick 0
  let scan := visible.foldl (engine.keyframeEnter tick) { connection := connection }
  let ops := (scan.ops ++ keyframeLeaves connection.ackedView visible).insertionSort
    fun lhs rhs => lhs.wid ≤ rhs.wid
  let phase := if forced then
      connectionIdHash connection.id % engine.keyframeIntervalTicks
    else 0
  let connection := { scan.connection with
    currentView := scan.nextView
    ackedDirty := []
    needsKeyframe := false
    lastKeyframeTick := tick
    nextKeyframeTick := tick + engine.keyframeIntervalTicks - phase
    policyVersion := engine.policy.version }
  ({ header with entities := scan.entities }, engine.commitFrame connection ops)

/-- The variables of the delta loop. -/
structure DeltaScan where
  connection : ConnectionProjection
  enters : List EntityEnter := []
  updates : List EntityUpdate := []
  leaves : List EntityLeave := []
  ops : List SentOp := []
  frameOps : WidMap TrackedEntity := ∅
  frameLeaves : WidMap FeatureId := ∅
  throttlePending : WidSet := ∅

/-- Why `wid` leaves: gone from the world, irrelevant, or out of the area. -/
def leaveReason (engine : ProjectionEngine) (connection : ConnectionProjection)
    (bounds : Option Aabb) (world : World) (wid : WorldId) : LeaveReason :=
  match world.find wid, bounds, engine.relevanceFilter with
  | none, _, _ => .destroyed
  | some object, some _, some relevant =>
    if relevant connection.id object then .outOfArea else .notRelevant
  | some _, _, _ => .outOfArea

def pushLeave (engine : ProjectionEngine) (bounds : Option Aabb) (world : World)
    (scan : DeltaScan) (wid : WorldId) (tracked : TrackedEntity) : DeltaScan :=
  { scan with
    frameLeaves := scan.frameLeaves.insertIfNew wid tracked.fid
    leaves := scan.leaves ++
      [⟨wid, tracked.fid, engine.leaveReason scan.connection bounds world wid⟩]
    ops := scan.ops ++ [⟨.leave, wid, tracked.fid, 0⟩] }

def updateFrequencyHz (engine : ProjectionEngine) (frequency : FrequencyClass) : Nat :=
  match frequency with
  | .fast => engine.config.dataFrequencyHz
  | .slow => engine.config.slowFrequencyHz
  | .onChange => engine.config.dataFrequencyHz

def lastSentTick (view : WidMap TrackedEntity) (wid : WorldId) : UInt64 :=
  match view[wid]? with
  | some tracked => tracked.lastSentTick
  | none => 0

/-- An update of this frequency class is held back at `tick`. -/
def Throttled (engine : ProjectionEngine) (previousView : WidMap TrackedEntity)
    (tick : UInt64) (wid : WorldId) (frequency : FrequencyClass) : Prop :=
  frequency ≠ .onChange ∧
  tick - lastSentTick previousView wid < engine.intervalTicks (engine.updateFrequencyHz frequency)

instance (engine : ProjectionEngine) (previousView : WidMap TrackedEntity) (tick : UInt64)
    (wid : WorldId) (frequency : FrequencyClass) :
    Decidable (engine.Throttled previousView tick wid frequency) :=
  inferInstanceAs (Decidable (_ ∧ _))

def processVisibleWid (engine : ProjectionEngine) (acked previousView : WidMap TrackedEntity)
    (tick : UInt64) (scan : DeltaScan) (wid : WorldId) : DeltaScan :=
  match engine.globalView[wid]? with
  | none => scan
  | some state =>
    match acked[wid]? with
    | none =>
      let (fid, connection) := scan.connection.ensureFid wid
      { scan with
        connection := connection
        enters := scan.enters ++ [⟨wid, fid, { state.projected with fid := fid }⟩]
        frameOps := scan.frameOps.insertIfNew wid
          ⟨fid, state.hash, state.projected.metadata.frequency, tick⟩
        ops := scan.ops ++ [⟨.enter, wid, fid, state.hash⟩] }
    | some entry =>
      let frequency := state.projected.metadata.frequency
      if entry.entityHash = state.hash then
        scan
      else if engine.Throttled previousView tick wid frequency then
        { scan with throttlePending := scan.throttlePending.insert wid }
      else
        { scan with
          updates := scan.updates ++
            [⟨wid, entry.fid, { state.projected with fid := entry.fid }⟩]
          frameOps := scan.frameOps.insertIfNew wid
            { entry with
              entityHash := state.hash
              frequency := frequency
              lastSentTick := tick }
          ops := scan.ops ++ [⟨.update, wid, entry.fid, state.hash⟩] }

/-- The ids common to two ascending lists. -/
def mergeCommon : List WorldId → List WorldId → List WorldId
  | [], _ => []
  | changed :: rest, seen =>
    match seen.dropWhile (· < changed) with
    | [] => []
    | head :: tail =>
      if head = changed then changed :: mergeCommon rest tail
      else mergeCommon rest (head :: tail)

/-- The ids the cached path looks at: unacknowledged operations, throttled ids and
changed visible ids, ascending and each once. -/
def candidates (engine : ProjectionEngine) (connection : ConnectionProjection)
    (pendingCandidates : WidSet) (visible : List WorldId) : List WorldId :=
  ((connection.unackedWidCounts.keys ++ pendingCandidates.toList ++
    mergeCommon engine.tickChangedWids visible).insertionSort (· ≤ ·)).dedup

/-- One candidate of the cached path. -/
def processCandidate (engine : ProjectionEngine) (bounds : Option Aabb) (world : World)
    (acked previousView : WidMap TrackedEntity) (visible : List WorldId) (tick : UInt64)
    (scan : DeltaScan) (wid : WorldId) : DeltaScan :=
  if wid ∈ visible then
    engine.processVisibleWid acked previousView tick scan wid
  else
    match acked[wid]? with
    | none => scan
    | some tracked => engine.pushLeave bounds world scan wid tracked

/-- The delta loop when the visible set came from the cache. -/
def scanCandidates (engine : ProjectionEngine) (connection : ConnectionProjection)
    (bounds : Option Aabb) (world : World) (pendingCandidates : WidSet)
    (visible : List WorldId) (tick : UInt64) : DeltaScan :=
  (engine.candidates connection pendingCandidates visible).foldl
    (engine.processCandidate bounds world connection.ackedView connection.currentView
      visible tick)
    { connection := connection }

/-- The delta loop over all visible ids, then all acknowledged ids not visible. -/
def scanAll (engine : ProjectionEngine) (connection : ConnectionProjection)
    (bounds : Option Aabb) (world : World) (visible : List WorldId) (tick : UInt64) :
    DeltaScan :=
  let scan := visible.foldl
    (engine.processVisibleWid connection.ackedView connection.currentView tick)
    { connection := connection }
  connection.ackedView.toList.foldl (fun scan entry =>
    if entry.1 ∈ visible then scan
    else engine.pushLeave bounds world scan entry.1 entry.2) scan

/-- The order in which updates are kept when a frame is saturated. -/
def trimBefore (lhs rhs : EntityUpdate) : Prop :=
  if lhs.entity.metadata.priority ≠ rhs.entity.metadata.priority then
    rhs.entity.metadata.priority < lhs.entity.metadata.priority
  else
    lhs.fid ≤ rhs.fid

instance : DecidableRel trimBefore := fun lhs rhs =>
  inferInstanceAs (Decidable
    (if lhs.entity.metadata.priority ≠ rhs.entity.metadata.priority then _ else _))

def keptUpdates (engine : ProjectionEngine) (scan : DeltaScan) : List EntityUpdate :=
  (scan.updates.insertionSort trimBefore).take engine.config.maxUpdatesPerFrame

/-- The record of an update that was not kept. Updates are told apart by feature id. -/
def lostUpdate (engine : ProjectionEngine) (scan : DeltaScan) (op : SentOp) : Bool :=
  decide (op.kind = .update) &&
    decide (op.fid ∉ (engine.keptUpdates scan).map EntityUpdate.fid)

/-- `frame_ops[op.wid] = acked.at(op.wid)`. -/
def revertOp (acked frameOps : WidMap TrackedEntity) (op : SentOp) : WidMap TrackedEntity :=
  match acked[op.wid]? with
  | some tracked => frameOps.insert op.wid tracked
  | none => frameOps

/-- Keeps `maxUpdatesPerFrame` updates; a dropped one loses its record and its entry
falls back to the acknowledged value. -/
def trimUpdates (engine : ProjectionEngine) (acked : WidMap TrackedEntity)
    (scan : DeltaScan) : DeltaScan :=
  if scan.updates.length > engine.config.maxUpdatesPerFrame then
    let ops := scan.ops.insertionSort fun lhs rhs => lhs.wid ≤ rhs.wid
    { scan with
      updates := engine.keptUpdates scan
      ops := ops.filter fun op => !engine.lostUpdate scan op
      frameOps := (ops.filter (engine.lostUpdate scan)).foldl (revertOp acked) scan.frameOps }
  else
    scan

/-- `view[wid] = acked.at(wid)`, or removal when nothing was acknowledged. -/
def revertToAcked (acked : WidMap TrackedEntity) (view : WidMap TrackedEntity)
    (wid : WorldId) : WidMap TrackedEntity :=
  match acked[wid]? with
  | none => view.erase wid
  | some tracked => view.insert wid tracked

/-- The in-place convergence of the current view after the operations of a delta. -/
def convergeView (connection : ConnectionProjection) (frameOps : WidMap TrackedEntity)
    (frameLeaves : WidMap FeatureId) : WidMap TrackedEntity :=
  let touched wid := frameOps.contains wid || frameLeaves.contains wid
  let view := connection.ackedDirty.foldl (fun view wid =>
    if touched wid || connection.unackedWidCounts.contains wid then view
    else revertToAcked connection.ackedView view wid) connection.currentView
  let view := connection.unackedWidCounts.keys.foldl (fun view wid =>
    if touched wid then view else revertToAcked connection.ackedView view wid) view
  let view := frameOps.toList.foldl (fun view entry => view.insert entry.1 entry.2) view
  frameLeaves.keys.foldl (fun view wid => view.erase wid) view

/-- The sorted lists of a delta that is going to be sent. -/
def sealDelta (header : FrameHeader) (scan : DeltaScan) : Delta :=
  { header with
    leaves := scan.leaves.insertionSort fun lhs rhs => lhs.fid ≤ rhs.fid
    enters := scan.enters.insertionSort fun lhs rhs => lhs.wid ≤ rhs.wid
    updates := scan.updates.insertionSort fun lhs rhs => lhs.fid ≤ rhs.fid }

/-- The part of the delta branch after the candidate loop. `none` when there is
nothing to send; the connection is then left as the loop left it. -/
def finishDelta (engine : ProjectionEngine) (connection : ConnectionProjection)
    (tick : UInt64) (scan : DeltaScan) : Option Delta × ConnectionProjection :=
  if scan.enters.isEmpty && scan.updates.isEmpty && scan.leaves.isEmpty then
    (none, scan.connection)
  else
    let header := engine.frameHeader connection tick connection.ackedBaseline
    let scan := engine.trimUpdates connection.ackedView scan
    let view := convergeView scan.connection scan.frameOps scan.frameLeaves
    let converged := { scan.connection with currentView := view, ackedDirty := [] }
    (some (sealDelta header scan), engine.commitFrame converged scan.ops)

/-- The choices `build_frame` makes before it starts on a frame. -/
structure FramePlan where
  bounds : Option Aabb
  visible : List WorldId
  cache : VisibleCache
  fromCache : Bool
  connection : ConnectionProjection
  forced : Bool
  periodic : Bool

def unmappedCount (connection : ConnectionProjection) (visible : List WorldId) : Nat :=
  visible.countP fun wid => (connection.fidOf wid).isNone

/-- The epoch has no room for the ids that are about to be mapped. -/
def FidsExhausted (engine : ProjectionEngine) (connection : ConnectionProjection)
    (result : VisibleResult) : Prop :=
  connection.fidCount +
    (if result.fromCache then 0 else unmappedCount connection result.visible) >
      engine.config.maxFeatureIdsPerEpoch

instance (engine : ProjectionEngine) (connection : ConnectionProjection)
    (result : VisibleResult) : Decidable (engine.FidsExhausted connection result) :=
  inferInstanceAs (Decidable (_ > _))

/-- Running out of feature ids resets the epoch inside the build. -/
def planFrame (engine : ProjectionEngine) (world : World) (tick : UInt64) (slot : Slot) :
    FramePlan :=
  let connection := slot.connection
  let bounds := engine.resolveBounds connection
  let result := engine.resolveVisible connection slot.visibleCache bounds world
  { bounds := bounds
    visible := result.visible
    cache := result.cache
    fromCache := result.fromCache
    connection := if engine.FidsExhausted connection result then
        connection.resetEpoch .fidExhausted engine.latestSnapshotId
      else connection
    forced := connection.needsKeyframe ||
      decide (connection.policyVersion ≠ engine.policy.version) ||
      decide (engine.FidsExhausted connection result)
    periodic := engine.keyframeDue connection tick }

/-- The candidate loop the plan calls for. -/
def scanDelta (engine : ProjectionEngine) (world : World) (tick : UInt64)
    (pendingCandidates : WidSet) (plan : FramePlan) : DeltaScan :=
  if plan.fromCache then
    engine.scanCandidates plan.connection plan.bounds world pendingCandidates plan.visible tick
  else
    engine.scanAll plan.connection plan.bounds world plan.visible tick

def buildFrame (engine : ProjectionEngine) (world : World) (tick : UInt64) (slot : Slot) :
    Option StateFrame × Slot :=
  let plan := engine.planFrame world tick slot
  if plan.forced || plan.periodic then
    let (frame, connection) :=
      engine.buildKeyframe plan.connection plan.visible plan.forced tick
    (some (.keyframe frame),
      { slot with connection := connection, visibleCache := plan.cache, throttlePending := ∅ })
  else
    let scan := engine.scanDelta world tick slot.throttlePending plan
    let (frame, connection) := engine.finishDelta plan.connection tick scan
    (frame.map .delta,
      { slot with
        connection := connection
        visibleCache := plan.cache
        throttlePending := scan.throttlePending })

def buildSlot (engine : ProjectionEngine) (world : World) (tick : UInt64) (slot : Slot) :
    Slot :=
  let (frame, slot) := engine.buildFrame world tick slot
  { slot with pendingFrame := some frame }

/-- `on_projection`; `none` when it would read through a dangling pointer. -/
def onProjection (engine : ProjectionEngine) (world : World) (tick : UInt64) :
    Option ProjectionEngine :=
  (engine.refreshGlobalView world tick).map fun refreshed =>
    { refreshed with
      connections := refreshed.connections.map fun _ slot =>
        refreshed.buildSlot world tick slot }

def addConnection (engine : ProjectionEngine) (id : ConnectionId)
    (subscription : Subscription) : Bool × ProjectionEngine :=
  if !id.valid || engine.connections.contains id then
    (false, engine)
  else
    let connection := ({ id := id } : ConnectionProjection).setSubscription subscription
    (true, { engine with
      connections := engine.connections.insert id { connection := connection } })

def removeConnection (engine : ProjectionEngine) (id : ConnectionId) :
    Bool × ProjectionEngine :=
  (engine.connections.contains id,
    { engine with connections := engine.connections.erase id })

/-- An operation on one connection; `false` when there is no such connection. -/
def modifyConnection (engine : ProjectionEngine) (id : ConnectionId)
    (change : ConnectionProjection → ConnectionProjection) : Bool × ProjectionEngine :=
  match engine.connections[id]? with
  | none => (false, engine)
  | some slot =>
    (true, { engine with
      connections := engine.connections.insert id
        { slot with connection := change slot.connection } })

def updateSubscription (engine : ProjectionEngine) (id : ConnectionId)
    (subscription : Subscription) : Bool × ProjectionEngine :=
  engine.modifyConnection id (·.setSubscription subscription)

def resetStreamEpoch (engine : ProjectionEngine) (id : ConnectionId) :
    Bool × ProjectionEngine :=
  engine.modifyConnection id (·.resetEpoch .reconnect engine.latestSnapshotId)

def scheduleKeyframe (engine : ProjectionEngine) (id : ConnectionId) :
    Bool × ProjectionEngine :=
  engine.modifyConnection id ({ · with needsKeyframe := true })

def nextFrame (engine : ProjectionEngine) (id : ConnectionId) :
    Option StateFrame × ProjectionEngine :=
  match engine.connections[id]? with
  | none => (none, engine)
  | some slot =>
    (slot.pendingFrame.join,
      { engine with
        connections := engine.connections.insert id { slot with pendingFrame := none } })

def acknowledge (engine : ProjectionEngine) (id : ConnectionId) (snapshotId : Nat) :
    AckResult × ProjectionEngine :=
  match engine.connections[id]? with
  | none => (.errorUnknownSnapshot, engine)
  | some slot =>
    let (result, connection) := slot.connection.acknowledge snapshotId
    (result, { engine with
      connections := engine.connections.insert id { slot with connection := connection } })

def changePolicy (engine : ProjectionEngine) (change : PolicyChange) : ProjectionEngine :=
  { engine with policy := change.apply engine.policy }

def setRelevanceFilter (engine : ProjectionEngine) (filter : Option RelevanceFilter) :
    ProjectionEngine :=
  { engine with relevanceFilter := filter }

end ProjectionEngine

/-- The public operations of the engine. -/
inductive EngineEvent where
  | onProjection (world : World) (tick : UInt64)
  | addConnection (id : ConnectionId) (subscription : Subscription)
  | removeConnection (id : ConnectionId)
  | updateSubscription (id : ConnectionId) (subscription : Subscription)
  | resetStreamEpoch (id : ConnectionId)
  | scheduleKeyframe (id : ConnectionId)
  | nextFrame (id : ConnectionId)
  | acknowledge (id : ConnectionId) (snapshotId : Nat)
  | changePolicy (change : PolicyChange)
  | setRelevanceFilter (filter : Option RelevanceFilter)

/-- One operation; `none` is undefined behaviour of the source. -/
def ProjectionEngine.step (engine : ProjectionEngine) :
    EngineEvent → Option ProjectionEngine
  | .onProjection world tick => engine.onProjection world tick
  | .addConnection id subscription => some (engine.addConnection id subscription).2
  | .removeConnection id => some (engine.removeConnection id).2
  | .updateSubscription id subscription => some (engine.updateSubscription id subscription).2
  | .resetStreamEpoch id => some (engine.resetStreamEpoch id).2
  | .scheduleKeyframe id => some (engine.scheduleKeyframe id).2
  | .nextFrame id => some (engine.nextFrame id).2
  | .acknowledge id snapshotId => some (engine.acknowledge id snapshotId).2
  | .changePolicy change => some (engine.changePolicy change)
  | .setRelevanceFilter filter => some (engine.setRelevanceFilter filter)

/-- Conversions at a scene whose objects all stand at the origin of the local frame. -/
def originGeometry : Geometry where
  ecefToEnu _ := ⟨0, 0, 0⟩
  cellX _ := 0
  cellY _ := 0
  minimumCorner bounds := bounds.minimum
  maximumCorner bounds := bounds.maximum
  boundsAround center _ := ⟨center, center⟩
  roundedIntervalTicks hz := UInt64.ofNat ((2000000 + 20000 * hz) / (2 * 20000 * hz))

/-- An object at the origin, whose ECEF position is (6378137, 0, 0). -/
def originObject (id : WorldId) : WorldObject :=
  { id := id, position := ⟨0x415854A640000000, 0, 0⟩ }

def originArea : Subscription :=
  { area := some ⟨⟨0, 0, 0⟩, ⟨0, 0, 0⟩⟩ }

def originConfig : ProjectionConfig :=
  { geometry := originGeometry }

/-- The world that holds object 2 alone. -/
def originWorld : World :=
  (World.insert {} (originObject 2)).2

/-- Object 1 has joined object 2. -/
def originWorldBoth : World :=
  (originWorld.insert (originObject 1)).2

end GeoWorld.Projection
