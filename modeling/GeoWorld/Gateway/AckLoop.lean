import Mathlib
import GeoWorld.Client.ThinClient
import GeoWorld.Gateway.InboundAck
import GeoWorld.Gateway.RemoteReplica

/-!
The gateway and a thin client with the two byte streams between them. Frames and acknowledgements
may be on their way in any number, and the client pauses and resumes as it likes.
-/

namespace GeoWorld.Gateway

open WorldModel Library
open Projection (ConnectionId ProjectionEngine EngineEvent TakenLog KeepsWindow)
open Protocol (StreamBuffers ControlBuffers WireAck)
open Client (ThinConnection ThinSetup ThinEvent)

/-- What both ends are configured with; the server's limits admit an acknowledgement. -/
structure LoopSetup extends StreamSetup where
  controls : ControlBuffers
  controlsFaithful : controls.Faithful
  largestMessage : Nat
  admits : ∀ ack, Protocol.ControlWithin controls (ThinConnection.ackBytes controls ack) (.ack ack)
    serverLimits

abbrev LoopSetup.thin (setup : LoopSetup) : ThinSetup :=
  ⟨setup.buffers, setup.controls, setup.largestMessage⟩

/-- `taken` are the ids of the frames taken in the current epoch. -/
structure AckLoop (setup : LoopSetup) where
  gateway : GatewayStreams
  taken : List Nat := []
  toClient : List setup.thin.frames.Buffer := []
  client : ThinConnection setup.thin := {}
  toServer : List setup.thin.controls.Buffer := []

def takesFrame {setup : ThinSetup} : ThinEvent setup → Bool
  | .readDone (some _) => true
  | _ => false

inductive AckLoopEvent (setup : LoopSetup) where
  | server (event : EngineEvent)
  | deliver
  | client (event : ThinEvent setup.thin)
  | arrive

namespace AckLoop

variable (setup : LoopSetup) (id : ConnectionId)

def log {setup : LoopSetup} (loop : AckLoop setup) : TakenLog := ⟨loop.gateway.engine, loop.taken⟩

/-- An operation of the client, with what it has written since on its way to the server. -/
def clientStep {setup : LoopSetup} (loop : AckLoop setup) (event : ThinEvent setup.thin) :
    Option (AckLoop setup) :=
  (loop.client.step event).map fun client =>
    { loop with
      client := client
      toServer := loop.toServer ++ client.delivered.drop loop.client.delivered.length }

/-- The client reads a frame only by `deliver`. A frame that cannot be encoded and an
acknowledgement that cannot be decoded end the connection. -/
def step (loop : AckLoop setup) : AckLoopEvent setup → Option (AckLoop setup)
  | .server event =>
    (loop.log.step id event).bind fun log =>
      let served := { loop with
        gateway := { loop.gateway with engine := log.engine }
        taken := log.taken }
      match takenFrame loop.gateway.engine id event with
      | none => some served
      | some frame => (encodeStateFrameInto frame setup.serverLimits).map fun finished =>
        { served with toClient := loop.toClient ++ [setup.buffers.finish finished] }
  | .deliver =>
    match loop.toClient with
    | [] => none
    | bytes :: rest => { loop with toClient := rest }.clientStep (.readDone (some bytes))
  | .client event => if takesFrame event then none else loop.clientStep event
  | .arrive =>
    match loop.toServer with
    | [] => none
    | bytes :: rest =>
      match Protocol.decodeClientControl setup.controls bytes setup.serverLimits with
      | .ok (.ack ack) => some { loop with
          gateway := (loop.gateway.inboundAck id ack.streamEpoch ack.snapshotId).2
          toServer := rest }
      | _ => none

abbrev Step (before : AckLoop setup) (event : AckLoopEvent setup) (after : AckLoop setup) : Prop :=
  before.step setup id event = some after

/-- Builds fit, and the connection keeps its epoch. -/
def Calm {setup : LoopSetup} (loop : AckLoop setup) : AckLoopEvent setup → Prop
  | .server event => KeepsWindow id loop.log event ∧
      ∀ epoch, TakenLog.epochOf id loop.gateway.engine = some epoch →
        ∀ engine, loop.gateway.engine.step event = some engine →
          TakenLog.epochOf id engine = some epoch
  | _ => True

/-- An acknowledgement of a frame that was taken in the current epoch. -/
def Good {setup : LoopSetup} (loop : AckLoop setup) (ack : WireAck) : Prop :=
  TakenLog.epochOf id loop.gateway.engine = some ack.streamEpoch ∧ ack.snapshotId ∈ loop.taken

structure LoopInv {setup : LoopSetup} (loop : AckLoop setup) : Prop where
  log_inv : Projection.TakenLogInv id loop.log
  client : loop.client.Sound
  on_way : ∀ bytes ∈ loop.toClient ++ loop.client.read, ∀ ack,
    ThinConnection.stateAck setup.buffers bytes = some ack → loop.Good id ack
  back : ∀ bytes ∈ loop.toServer, ∃ ack,
    bytes = ThinConnection.ackBytes setup.controls ack ∧ loop.Good id ack
  kept : (loop.gateway.connections[id]?).map ConnectionState.mustDisconnect = some false

variable {setup : LoopSetup} {id : ConnectionId} {loop after : AckLoop setup}

theorem Good.mono {ack : WireAck} (good : loop.Good id ack)
    (epoch : TakenLog.epochOf id after.gateway.engine = TakenLog.epochOf id loop.gateway.engine)
    (taken : loop.taken ⊆ after.taken) : after.Good id ack :=
  ⟨epoch.trans good.1, taken good.2⟩

/-- The bytes of a taken frame call for the acknowledgement of that frame. -/
theorem stateAck_encoded {frame : Projection.StateFrame} {finished : Protocol.Finished}
    (encoded : encodeStateFrameInto frame setup.serverLimits = some finished) :
    ThinConnection.stateAck setup.buffers (setup.buffers.finish finished) =
      some ⟨frame.header.streamEpoch, frame.header.snapshotId⟩ := by
  have wire : Protocol.encodeServerFrame setup.toStreamSetup.buffers (toWireFrame frame)
      setup.serverLimits = some (setup.toStreamSetup.buffers.finish finished) :=
    RemoteLink.encoded_frame encoded
  obtain ⟨long, identified, -, built⟩ := Protocol.encodeServerFrame_some setup.faithful wire
  rw [ThinConnection.stateAck_of_root (not_lt.mpr long) identified built.decoded]
  cases frame <;> rfl

/-- What the client writes is an acknowledgement of a frame it read. -/
theorem written_good {client : ThinConnection setup.thin} (sound : client.Sound)
    (read : ∀ bytes ∈ client.read, ∀ ack,
      ThinConnection.stateAck setup.buffers bytes = some ack → loop.Good id ack) :
    ∀ bytes ∈ client.delivered, ∃ ack,
      bytes = ThinConnection.ackBytes setup.controls ack ∧ loop.Good id ack := by
  intro bytes member
  have queued : bytes ∈ client.delivered ++ client.writeQueue ++ [] :=
    List.mem_append_left _ (List.mem_append_left _ member)
  rw [sound.acks] at queued
  obtain ⟨ack, owed, rfl⟩ := List.mem_map.mp queued
  obtain ⟨frame, inside, called⟩ := List.mem_filterMap.mp owed
  exact ⟨ack, rfl, read frame inside ack called⟩

/-- An operation of the client that reads only what was on its way keeps the invariant. -/
theorem clientStep_inv (toClient : List setup.thin.frames.Buffer) {event : ThinEvent setup.thin}
    (inv : loop.LoopInv id)
    (fewer : ∀ client, loop.client.step event = some client →
      ∀ bytes ∈ toClient ++ client.read, bytes ∈ loop.toClient ++ loop.client.read)
    (stepped : { loop with toClient := toClient }.clientStep event = some after) :
    after.LoopInv id := by
  obtain ⟨client, moved, rfl⟩ := Option.map_eq_some_iff.mp stepped
  have sound := inv.client.step moved
  have on_way : ∀ bytes ∈ toClient ++ client.read, ∀ ack,
      ThinConnection.stateAck setup.buffers bytes = some ack → loop.Good id ack :=
    fun bytes inside => inv.on_way bytes (fewer client moved bytes inside)
  refine ⟨inv.log_inv, sound, on_way, fun bytes member => ?_, inv.kept⟩
  rcases List.mem_append.mp member with old | fresh
  · exact inv.back bytes old
  · exact written_good sound (fun frame inside => on_way frame (List.mem_append_right _ inside))
      bytes (List.mem_of_mem_drop fresh)

theorem streamEpoch_acknowledge (connection : Projection.ConnectionProjection) (snapshotId : Nat) :
    (connection.acknowledge snapshotId).2.streamEpoch = connection.streamEpoch := by
  by_cases accepted : (connection.acknowledge snapshotId).1 = .accepted
  · obtain ⟨-, -, -, _, _, result, -⟩ :=
      Projection.acknowledge_accepted accepted
    rw [result]
  · rw [Projection.acknowledge_rejected accepted]

theorem epochOf_acknowledge (id : ConnectionId) (engine : ProjectionEngine) (snapshotId : Nat) :
    TakenLog.epochOf id (engine.acknowledge id snapshotId).2 = TakenLog.epochOf id engine := by
  unfold TakenLog.epochOf ProjectionEngine.acknowledge
  cases found : engine.connections[id]? with
  | none => rw [found]
  | some slot =>
    simp only [lookup_insert_self, Option.map_some, streamEpoch_acknowledge]

/-- The gateway takes the acknowledgement of a frame taken in the current epoch. -/
theorem inboundAck_good (inv : loop.LoopInv id) {ack : WireAck} (good : loop.Good id ack) :
    (loop.gateway.inboundAck id ack.streamEpoch ack.snapshotId).1 = true ∧
      (loop.gateway.inboundAck id ack.streamEpoch ack.snapshotId).2.engine =
        (loop.gateway.engine.acknowledge id ack.snapshotId).2 ∧
      ((loop.gateway.inboundAck id ack.streamEpoch ack.snapshotId).2.connections[id]?).map
        ConnectionState.mustDisconnect = some false := by
  obtain ⟨state, found, unmarked⟩ := Option.map_eq_some_iff.mp inv.kept
  have matching : ¬ (loop.gateway.engine.connections[id]?).map
      (fun slot => slot.connection.streamEpoch) ≠ some ack.streamEpoch := not_not.mpr good.1
  have answer : (loop.gateway.engine.acknowledge id ack.snapshotId).1 = .accepted ∨
      (loop.gateway.engine.acknowledge id ack.snapshotId).1 = .duplicateIgnored :=
    Projection.takenAcknowledgeable_of_window inv.log_inv.window ack.snapshotId good.2
  unfold GatewayStreams.inboundAck
  simp only [found, if_neg matching]
  rcases answer with accepted | duplicate
  · simp [accepted, GatewayStreams.setState, unmarked]
  · simp [duplicate, found, unmarked]

theorem arrive_inv (inv : loop.LoopInv id)
    (stepped : loop.step setup id .arrive = some after) : after.LoopInv id := by
  cases waiting : loop.toServer with
  | nil =>
    simp only [step, waiting] at stepped
    cases stepped
  | cons bytes rest =>
    obtain ⟨ack, rfl, good⟩ := inv.back bytes (by simp [waiting])
    simp only [step, waiting, ThinConnection.decode_ackBytes setup.controlsFaithful
      (setup.admits ack), Option.some.injEq] at stepped
    subst stepped
    obtain ⟨-, engine, kept⟩ := inboundAck_good inv good
    have epoch := epochOf_acknowledge id loop.gateway.engine ack.snapshotId
    have logged : TakenLog.Step id loop.log (.acknowledge id ack.snapshotId)
        ⟨(loop.gateway.engine.acknowledge id ack.snapshotId).2, loop.taken⟩ := by
      simp only [TakenLog.Step, TakenLog.step, log, ProjectionEngine.step, Option.map_some, epoch,
        if_true, TakenLog.takenBy, List.append_nil]
    have moved : loop.gateway.engine.step (.acknowledge id ack.snapshotId) =
        some (loop.gateway.engine.acknowledge id ack.snapshotId).2 := rfl
    have still : ∀ other, loop.Good id other → AckLoop.Good id ({ loop with
        gateway := (loop.gateway.inboundAck id ack.streamEpoch ack.snapshotId).2
        toServer := rest } : AckLoop setup) other := fun other before =>
      before.mono ((congrArg (TakenLog.epochOf id) engine).trans epoch) (List.Subset.refl _)
    refine ⟨?_, inv.client, fun bytes inside other called => still other
      (inv.on_way bytes inside other called), fun bytes inside => ?_, kept⟩
    · unfold log
      rw [engine]
      exact ⟨inv.log_inv.engine_inv.step moved,
        Projection.windowInvAt_step inv.log_inv.engine_inv
          (show KeepsWindow id loop.log (.acknowledge id ack.snapshotId) from trivial)
          inv.log_inv.window logged⟩
    · obtain ⟨other, same, before⟩ := inv.back bytes (by simp [waiting, inside])
      exact ⟨other, same, still other before⟩

/-- A step in which the connection keeps its epoch adds the ids that it takes to the log. -/
theorem logged_calm {event : EngineEvent} {log : TakenLog} (calm : loop.Calm id (.server event))
    (logged : loop.log.step id event = some log) {epoch : Nat}
    (current : TakenLog.epochOf id loop.gateway.engine = some epoch) :
    TakenLog.epochOf id log.engine = some epoch ∧
      log.taken = loop.taken ++ TakenLog.takenBy id loop.gateway.engine event := by
  obtain ⟨engine, moved, rfl⟩ := Option.map_eq_some_iff.mp logged
  have same := calm.2 epoch current engine moved
  exact ⟨same, if_pos (same.trans current.symm)⟩

theorem server_inv {event : EngineEvent} (inv : loop.LoopInv id)
    (calm : loop.Calm id (.server event))
    (stepped : loop.step setup id (.server event) = some after) : after.LoopInv id := by
  obtain ⟨log, logged, sent⟩ := Option.bind_eq_some_iff.mp stepped
  obtain ⟨engine, moved, named⟩ := Option.map_eq_some_iff.mp logged
  have log_inv : Projection.TakenLogInv id log := by
    subst named
    exact ⟨inv.log_inv.engine_inv.step moved,
      Projection.windowInvAt_step inv.log_inv.engine_inv calm.1 inv.log_inv.window logged⟩
  have still : ∀ next : AckLoop setup, next.log = log → ∀ ack, loop.Good id ack →
      next.Good id ack := by
    rintro next rfl ack good
    obtain ⟨epoch, taken⟩ := logged_calm calm logged good.1
    refine good.mono (epoch.trans good.1.symm) ?_
    change loop.taken ⊆ next.log.taken
    rw [taken]
    exact List.subset_append_left _ _
  have back : ∀ next : AckLoop setup, next.log = log → ∀ bytes ∈ loop.toServer, ∃ ack,
      bytes = ThinConnection.ackBytes setup.controls ack ∧ next.Good id ack :=
    fun next same bytes inside => by
      obtain ⟨ack, called, good⟩ := inv.back bytes inside
      exact ⟨ack, called, still next same ack good⟩
  cases taken : takenFrame loop.gateway.engine id event with
  | none =>
    simp only [taken, Option.some.injEq] at sent
    subst sent
    exact ⟨log_inv, inv.client, fun bytes inside ack called => still _ rfl ack
      (inv.on_way bytes inside ack called), back _ rfl, inv.kept⟩
  | some frame =>
    simp only [taken] at sent
    obtain ⟨finished, encoded, rfl⟩ := Option.map_eq_some_iff.mp sent
    refine ⟨log_inv, inv.client, fun bytes inside ack called => ?_, back _ rfl, inv.kept⟩
    rw [List.append_assoc, List.mem_append, List.mem_append] at inside
    rcases inside with old_frame | fresh | read
    · exact still _ rfl ack (inv.on_way bytes (List.mem_append_left _ old_frame) ack called)
    · obtain rfl := List.mem_singleton.mp fresh
      rw [stateAck_encoded encoded, Option.some.injEq] at called
      subst called
      obtain ⟨rfl, old, found, waiting, -⟩ := RemoteLink.taken_slot
        (show ({ engine := loop.gateway.engine } : RemoteLink setup.buffers).engine.step event =
          some engine from moved) taken
      have current : TakenLog.epochOf id loop.gateway.engine = some frame.header.streamEpoch := by
        rw [TakenLog.epochOf, found, calm.1 rfl old frame found waiting]
        rfl
      have own : frame.header.snapshotId ∈
          TakenLog.takenBy id loop.gateway.engine (.nextFrame id) := by
        rw [Projection.takenBy_nextFrame found, waiting]
        simp
      obtain ⟨epoch, more⟩ := logged_calm calm logged current
      refine ⟨epoch, ?_⟩
      change frame.header.snapshotId ∈ log.taken
      rw [more]
      exact List.mem_append_right _ own
    · exact still _ rfl ack (inv.on_way bytes (List.mem_append_right _ read) ack called)

theorem step_inv {event : AckLoopEvent setup} (inv : loop.LoopInv id) (calm : loop.Calm id event)
    (stepped : loop.step setup id event = some after) : after.LoopInv id := by
  cases event with
  | server event => exact server_inv inv calm stepped
  | deliver =>
    cases waiting : loop.toClient with
    | nil =>
      simp only [step, waiting] at stepped
      cases stepped
    | cons bytes rest =>
      simp only [step, waiting] at stepped
      refine clientStep_inv rest inv (fun client moved frame inside => ?_) stepped
      rw [waiting]
      rcases ThinConnection.read_step moved with same | ⟨taken, named, more⟩
      · rw [same] at inside
        exact List.mem_cons_of_mem _ inside
      · obtain rfl := Option.some.inj (ThinEvent.readDone.inj named)
        rw [more] at inside
        simp only [List.mem_append, List.mem_cons, List.not_mem_nil, or_false] at inside ⊢
        tauto
  | client event =>
    rw [step] at stepped
    split at stepped
    · cases stepped
    · rename_i untaken
      refine clientStep_inv loop.toClient inv (fun client moved frame inside => ?_) stepped
      rcases ThinConnection.read_step moved with same | ⟨taken, rfl, -⟩
      · rwa [same] at inside
      · exact absurd rfl untaken
  | arrive => exact arrive_inv inv stepped

def start (setup : LoopSetup) (id : ConnectionId) (config : Projection.ProjectionConfig)
    (policy : Projection.ProjectionPolicy) : AckLoop setup where
  gateway :=
    { engine := { config := config, policy := policy }
      connections := (∅ : Std.ExtTreeMap ConnectionId ConnectionState compare).insert id {} }

theorem inv_start (setup : LoopSetup) (id : ConnectionId) (config : Projection.ProjectionConfig)
    (policy : Projection.ProjectionPolicy) : (start setup id config policy).LoopInv id where
  log_inv := Projection.takenLogInv_of_run config policy id (.nil _)
  client := ThinConnection.sound_start
  on_way bytes inside := by cases inside
  back bytes inside := by cases inside
  kept := by
    rw [start, lookup_insert_self]
    rfl

/-- Runtimes that keep the tables. -/
def traceLoop : LoopSetup :=
  { RemoteLink.traceSetup with
    controls := Protocol.rootBuffers
    controlsFaithful := Protocol.rootBuffers_faithful
    largestMessage := 8 * 1024 * 1024
    admits := ThinConnection.rootBuffers_admit }

def calmCheck (loop : AckLoop traceLoop) : AckLoopEvent traceLoop → Bool
  | .server event => keepsWindowCheck loop.log event &&
      match TakenLog.epochOf 7 loop.gateway.engine, loop.gateway.engine.step event with
      | some epoch, some engine => decide (TakenLog.epochOf 7 engine = some epoch)
      | _, _ => true
  | _ => true

theorem calmCheck_sound (loop : AckLoop traceLoop) (event : AckLoopEvent traceLoop)
    (checked : calmCheck loop event = true) : loop.Calm 7 event := by
  cases event with
  | server event =>
    obtain ⟨fits, same⟩ := Bool.and_eq_true_iff.mp checked
    refine ⟨keepsWindowCheck_sound loop.log event fits, fun epoch current engine moved => ?_⟩
    simpa only [current, moved, decide_eq_true_eq] using same
  | _ => trivial

end AckLoop

end GeoWorld.Gateway
