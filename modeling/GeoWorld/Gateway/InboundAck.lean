import Mathlib
import GeoWorld.Gateway.Types
import GeoWorld.Projection.AckWindow

/-!
Acknowledgements arriving at the gateway (`GatewayCore::inbound_ack`). An error of
the engine marks the connection for disconnection, so whether a client survives
acknowledging what it was sent is decided by the window of its connection.
-/

namespace GeoWorld.Gateway

open WorldModel Library Projection

/-- `GatewayCore::ConnectionState`, without its queues. -/
structure ConnectionState where
  lastAckTick : UInt64 := 0
  mustDisconnect : Bool := false
  disconnectReason : GatewayError := .none
  deriving DecidableEq

def ConnectionState.markDisconnect (state : ConnectionState) (reason : GatewayError) :
    ConnectionState :=
  { state with mustDisconnect := true, disconnectReason := reason }

/-- The part of `GatewayCore` that serves streams. -/
structure GatewayStreams where
  engine : ProjectionEngine
  connections : Std.ExtTreeMap ConnectionId ConnectionState compare := ∅
  lastPumpTick : UInt64 := 0

namespace GatewayStreams

def setState (gateway : GatewayStreams) (connection : ConnectionId) (state : ConnectionState) :
    GatewayStreams :=
  { gateway with connections := gateway.connections.insert connection state }

def inboundAck (gateway : GatewayStreams) (connection : ConnectionId)
    (streamEpoch snapshotId : Nat) : Bool × GatewayStreams :=
  match gateway.connections[connection]? with
  | none => (false, gateway)
  | some state =>
    if (gateway.engine.connections[connection]?).map
        (fun slot => slot.connection.streamEpoch) ≠ some streamEpoch then
      (false, gateway.setState connection (state.markDisconnect .epochMismatch))
    else
      let (result, engine) := gateway.engine.acknowledge connection snapshotId
      let gateway := { gateway with engine := engine }
      match result with
      | .errorEpochMismatch =>
        (false, gateway.setState connection (state.markDisconnect .epochMismatch))
      | .errorUnknownSnapshot =>
        (false, gateway.setState connection (state.markDisconnect .ackUnknown))
      | .accepted =>
        (true, gateway.setState connection { state with lastAckTick := gateway.lastPumpTick })
      | .duplicateIgnored => (true, gateway)

end GatewayStreams

/-- Acknowledging a frame taken in the current epoch succeeds and leaves the connection
unmarked if it was. -/
def AckKeepsClient (id : ConnectionId) (log : TakenLog) : Prop :=
  ∀ gateway : GatewayStreams, gateway.engine = log.engine →
    ∀ state, gateway.connections[id]? = some state →
    ∀ epoch, TakenLog.epochOf id log.engine = some epoch →
    ∀ snapshotId ∈ log.taken, (gateway.inboundAck id epoch snapshotId).1 = true ∧
      ((gateway.inboundAck id epoch snapshotId).2.connections[id]?).map
        ConnectionState.mustDisconnect = some state.mustDisconnect

theorem ackKeepsClient_of_taken {id : ConnectionId} {log : TakenLog}
    (taken : TakenAcknowledgeable id log) : AckKeepsClient id log := by
  intro gateway same state found epoch current snapshotId member
  have answer := taken snapshotId member
  unfold GatewayStreams.inboundAck
  have matching : ¬ (gateway.engine.connections[id]?).map
      (fun slot => slot.connection.streamEpoch) ≠ some epoch := by
    rw [same]
    exact not_not.mpr current
  rw [← same] at answer
  simp only [found, if_neg matching]
  rcases answer with accepted | duplicate
  · simp [accepted, GatewayStreams.setState]
  · simp [duplicate, found]

/-- In every run whose builds fit and whose frames are taken in the epoch they were built
in, every taken frame can be acknowledged, and the gateway keeps the client. -/
theorem taken_frames_acknowledgeable (config : ProjectionConfig) (policy : ProjectionPolicy)
    (id : ConnectionId) {events : List EngineEvent} {log : TakenLog}
    (run : GuardedRun (TakenLog.Step id) (KeepsWindow id)
      { engine := { config := config, policy := policy } } events log) :
    TakenAcknowledgeable id log ∧ AckKeepsClient id log := by
  have inv := takenLogInv_of_run config policy id run
  have taken := takenAcknowledgeable_of_window inv.window
  exact ⟨taken, ackKeepsClient_of_taken taken⟩

/-- A first frame that fits, taken in its epoch. -/
def fittingEvents : List EngineEvent :=
  [.addConnection 7 originArea, .onProjection originWorld 1, .nextFrame 7]

def originTaken : TakenLog :=
  { engine := { config := originConfig } }

def keepsWindowCheck (log : TakenLog) : EngineEvent → Bool
  | .onProjection world tick =>
    match log.engine.refreshGlobalView world tick with
    | none => true
    | some refreshed =>
      (refreshed.connections[(7 : ConnectionId)]?).all fun slot =>
        decide (¬ refreshed.FidsExhausted slot.connection (refreshed.resolveVisible
          slot.connection slot.visibleCache (refreshed.resolveBounds slot.connection) world)) &&
        (refreshed.recordedOps world tick slot).all fun ops =>
          decide (slot.connection.unackedRecords.length + 1 ≤
            refreshed.config.maxUnackedFrames) &&
          decide (slot.connection.unackedBytes + ops.length * sentOpBytes ≤
            refreshed.config.maxUnackedBytes)
  | .nextFrame _ =>
    (log.engine.connections[(7 : ConnectionId)]?).all fun slot =>
      slot.pendingFrame.join.all fun frame =>
        decide (frame.header.streamEpoch = slot.connection.streamEpoch)
  | _ => true

theorem keepsWindowCheck_sound (log : TakenLog) (event : EngineEvent)
    (passed : keepsWindowCheck log event = true) : KeepsWindow 7 log event := by
  cases event with
  | onProjection world tick =>
    intro refreshed slot refresh found
    simp only [keepsWindowCheck, refresh, found, Option.all_some, Bool.and_eq_true,
      decide_eq_true_eq] at passed
    refine ⟨passed.1, fun ops recorded => ?_⟩
    rw [Option.mem_def.mp recorded] at passed
    simpa only [Option.all_some, Bool.and_eq_true, decide_eq_true_eq] using passed.2
  | nextFrame other =>
    intro _ slot frame found waiting
    simpa only [keepsWindowCheck, found, waiting, Option.all_some, Option.join_some,
      decide_eq_true_eq] using passed
  | _ => trivial

theorem taken_frames_acknowledgeable_first :
    ∃ log, runLabels (TakenLog.step 7) originTaken fittingEvents = some log ∧
      log.taken = [1] ∧ TakenAcknowledgeable 7 log ∧ AckKeepsClient 7 log := by
  have computed : (runLabels (fun log event =>
      if keepsWindowCheck log event then log.step 7 event else none) originTaken
        fittingEvents).map TakenLog.taken = some [1] := by
    decide +kernel
  obtain ⟨log, reached, taken⟩ := Option.map_eq_some_iff.mp computed
  have run := GuardedRun.of_checked keepsWindowCheck_sound reached
  exact ⟨log, run.computed, taken, taken_frames_acknowledgeable originConfig {} 7 run⟩

/-- Room for one feature id: the build of the second world resets the epoch, and the
floor it sets is the id of its own keyframe. -/
def crowdedConfig : ProjectionConfig :=
  { originConfig with maxFeatureIdsPerEpoch := 1 }

def crowdedEvents : List EngineEvent :=
  [.addConnection 7 originArea, .onProjection originWorld 1, .nextFrame 7, .acknowledge 7 1,
    .onProjection ((originWorld.erase 2).2.insert (originObject 1)).2 2, .nextFrame 7]

/-- The keyframe that opens the new epoch cannot be acknowledged. -/
theorem taken_frames_acknowledgeable_fails :
    ¬ ∀ (config : ProjectionConfig) (policy : ProjectionPolicy) (id : ConnectionId)
      (events : List EngineEvent) (log : TakenLog),
      AnyRun (TakenLog.Step id) { engine := { config := config, policy := policy } }
        events log → TakenAcknowledgeable id log := by
  intro claim
  have computed : (runLabels (TakenLog.step 7) { engine := { config := crowdedConfig } }
      crowdedEvents).map (fun log => (log.taken, (log.engine.acknowledge 7 2).1)) =
        some ([2], .errorEpochMismatch) := by
    decide +kernel
  obtain ⟨log, reached, shape⟩ := Option.map_eq_some_iff.mp computed
  simp only [Prod.mk.injEq] at shape
  obtain ⟨taken, answer⟩ := shape
  have run : AnyRun (TakenLog.Step 7) { engine := { config := crowdedConfig } } _ log :=
    GuardedRun.of_runLabels reached fun _ _ => trivial
  have acknowledgeable := claim crowdedConfig {} 7 crowdedEvents log run 2 (by simp [taken])
  rw [answer] at acknowledgeable
  rcases acknowledgeable with impossible | impossible <;> cases impossible

end GeoWorld.Gateway
