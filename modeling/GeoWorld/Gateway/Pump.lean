import Mathlib
import GeoWorld.Gateway.InboundAck
import GeoWorld.Projection.ParallelProjection

/-!
The pump of the gateway: it takes the frames of the connections, encodes them,
on a thread pool if one was injected, and queues the bytes. With it, runs of an
engine and a gateway that share a pool, against runs without one.
-/

namespace GeoWorld.Gateway

open WorldModel Library Projection Foundation

structure QueuedFrame where
  snapshotId : Nat
  baselineSnapshotId : Nat
  isKeyframe : Bool
  bytes : ByteString
  deriving DecidableEq

structure StateQueue where
  maxBytes : Nat
  bytes : Nat := 0
  resyncRequired : Bool := false
  frames : List QueuedFrame := []
  deriving DecidableEq

namespace StateQueue

/-- Drops frames from the front while the queue is too large, but for the last one. -/
def trim (queue : StateQueue) : List QueuedFrame → Nat → Bool → StateQueue
  | first :: second :: rest, bytes, resync =>
    if bytes > queue.maxBytes then
      trim queue (second :: rest) (bytes - first.bytes.length) true
    else { queue with frames := first :: second :: rest, bytes, resyncRequired := resync }
  | frames, bytes, resync => { queue with frames, bytes, resyncRequired := resync }

/-- A keyframe replaces everything, a delta the deltas of its baseline. -/
def push (queue : StateQueue) (frame : QueuedFrame) : StateQueue :=
  let stays (existing : QueuedFrame) : Bool :=
    !frame.isKeyframe &&
      (existing.isKeyframe || existing.baselineSnapshotId ≠ frame.baselineSnapshotId)
  let kept := queue.frames.filter stays
  let dropped := ((queue.frames.filter fun existing => !stays existing).map
    fun existing => existing.bytes.length).sum
  let bytes := if frame.isKeyframe then 0 else queue.bytes - dropped
  queue.trim (kept ++ [frame]) (bytes + frame.bytes.length) queue.resyncRequired

end StateQueue

structure ReliableQueue where
  maxBytes : Nat
  bytes : Nat := 0
  frames : List ByteString := []
  deriving DecidableEq

def ReliableQueue.push (queue : ReliableQueue) (bytes : ByteString) : Bool × ReliableQueue :=
  if queue.bytes + bytes.length > queue.maxBytes then (false, queue)
  else (true, { queue with
    bytes := queue.bytes + bytes.length
    frames := queue.frames ++ [bytes] })

/-- A connection with its queues. -/
structure StreamState extends ConnectionState where
  stateQueue : StateQueue
  reliableQueue : ReliableQueue
  lastHeartbeatTick : UInt64 := 0
  deriving DecidableEq

structure PumpConfig where
  ackTimeoutSeconds : UInt64 := 10
  heartbeatIntervalSeconds : UInt64 := 1

abbrev FrameEncoder := StateFrame → ByteString

abbrev HeartbeatEncoder := UInt64 → Nat → ByteString

/-- The part of `GatewayCore` that the pump reads and writes. -/
structure PumpCore where
  config : PumpConfig := {}
  engine : ProjectionEngine
  frameEncoder : Option FrameEncoder := none
  heartbeatEncoder : Option HeartbeatEncoder := none
  connections : Std.ExtTreeMap ConnectionId StreamState compare := ∅
  lastPumpTick : UInt64 := 0
  lastPumpKeyframeCount : Nat := 0

/-- One slot of the arrays the pump fills: the frame taken, and its encoding. The kind is 0
for no frame, 1 for a keyframe and 2 for a delta. -/
structure PumpSlot where
  connection : ConnectionId
  frame : Option StateFrame
  kind : Nat := 0
  baseline : Nat := 0
  encoded : ByteString := []

namespace PumpCore

def setState (core : PumpCore) (connection : ConnectionId) (state : StreamState) : PumpCore :=
  { core with connections := core.connections.insert connection state }

/-- The first section, for one connection: a resync asks for a keyframe, and the pending
frame is taken. -/
def takeFrame (acc : PumpCore × List PumpSlot) (entry : ConnectionId × StreamState) :
    PumpCore × List PumpSlot :=
  let (core, slots) := acc
  let (connection, state) := entry
  if state.mustDisconnect then (core, slots)
  else
    let core := if state.stateQueue.resyncRequired then
        let queue := { state.stateQueue with resyncRequired := false }
        { core with engine := (core.engine.scheduleKeyframe connection).2 }.setState connection
          { state with stateQueue := queue }
      else core
    let (frame, engine) := core.engine.nextFrame connection
    ({ core with engine := engine }, slots ++ [⟨connection, frame, 0, 0, []⟩])

/-- `encode_range`: the frame is destroyed once it is encoded. -/
def encodeSlot (encoder : Option FrameEncoder) (_ : Nat) (slot : PumpSlot) : PumpSlot :=
  match slot.frame with
  | none => slot
  | some frame =>
    { slot with
      frame := none
      kind := match frame with
        | .keyframe _ => 1
        | .delta _ => 2
      baseline := match frame with
        | .keyframe _ => 0
        | .delta delta => delta.baselineSnapshotId
      encoded := match encoder with
        | some encode => encode frame
        | none => slot.encoded }

/-- The second section. -/
def encodeSlots (encoder : Option FrameEncoder) (pool : Option ThreadPool)
    (schedule : Schedule) (slots : List PumpSlot) : List PumpSlot :=
  let sequential := (List.range slots.length).foldl (visit (encodeSlot encoder)) slots
  match pool with
  | none => sequential
  | some pool =>
    if 1 < slots.length then
      pool.run schedule slots.length (visit (encodeSlot encoder)) slots
    else sequential

def ticksOf (core : PumpCore) (seconds : UInt64) : UInt64 :=
  seconds * 1000000 / UInt64.ofNat core.engine.config.tickDtMicroseconds

/-- The third section, for one connection. -/
def queueSlot (tick : UInt64) (core : PumpCore) (slot : PumpSlot) : PumpCore :=
  match core.connections[slot.connection]? with
  | none => core
  | some state =>
    if state.mustDisconnect then core
    else
      let queued : QueuedFrame :=
        ⟨core.engine.latestSnapshotId, slot.baseline, slot.kind = 1, slot.encoded⟩
      let (core, state) :=
        if slot.kind ≠ 0 ∧ core.frameEncoder.isSome then
          ({ core with
              lastPumpKeyframeCount :=
                core.lastPumpKeyframeCount + if slot.kind = 1 then 1 else 0 },
            { state with stateQueue := state.stateQueue.push queued })
        else
          match core.heartbeatEncoder with
          | some encode =>
            if slot.kind = 0 ∧ tick - state.lastHeartbeatTick ≥
                core.ticksOf core.config.heartbeatIntervalSeconds then
              (core, { state with
                lastHeartbeatTick := tick
                reliableQueue := (state.reliableQueue.push
                  (encode tick core.engine.latestSnapshotId)).2 })
            else (core, state)
          | none => (core, state)
      let late := state.lastAckTick ≠ 0 ∧
        tick - state.lastAckTick > core.ticksOf core.config.ackTimeoutSeconds
      let state := if late then
          { state with toConnectionState := state.markDisconnect .slowClient }
        else state
      core.setState slot.connection state

/-- The slots of a pump before they are encoded. -/
def takeFrames (core : PumpCore) (tick : UInt64) : PumpCore × List PumpSlot :=
  core.connections.toList.foldl takeFrame ({ core with lastPumpTick := tick }, [])

def pump (core : PumpCore) (pool : Option ThreadPool) (schedule : Schedule)
    (tick : UInt64) : PumpCore :=
  let (taken, slots) := core.takeFrames tick
  (encodeSlots core.frameEncoder pool schedule slots).foldl (queueSlot tick)
    { taken with lastPumpKeyframeCount := 0 }

end PumpCore

open PumpCore

/-- What happens to an engine and its gateway: an operation of the engine, a pump, or
anything else the gateway does with its connections. Ticks and pumps come with the order in
which the pool runs their tasks. -/
inductive ServerEvent where
  | engine (event : EngineEvent) (first second : Schedule)
  | pump (tick : UInt64) (schedule : Schedule)
  | serve (change : Std.ExtTreeMap ConnectionId StreamState compare →
      Std.ExtTreeMap ConnectionId StreamState compare)

/-- One step with the pool injected into both; `none` where the source reads through a
dangling or null pointer. -/
def PumpCore.step (pool : Option ThreadPool) (core : PumpCore) : ServerEvent → Option PumpCore
  | .engine (.onProjection world tick) first second =>
    (core.engine.onProjectionWith pool first second world tick).map fun engine =>
      { core with engine := engine }
  | .engine event _ _ =>
    (core.engine.step event).map fun engine => { core with engine := engine }
  | .pump tick schedule => some (core.pump pool schedule tick)
  | .serve change => some { core with connections := change core.connections }

def PumpCore.run (pool : Option ThreadPool) (core : PumpCore) (events : List ServerEvent) :
    Option PumpCore :=
  events.foldlM (PumpCore.step pool) core

end GeoWorld.Gateway
