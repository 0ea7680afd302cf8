import Mathlib
import GeoWorld.Projection.SentFrames

/-!
The frames that are built for one connection while it exists, each with the connection it
was built from.
-/

namespace GeoWorld.Projection

open WorldModel Library ConnectionProjection ProjectionEngine

def StateFrame.updates : StateFrame → List EntityUpdate
  | .keyframe _ => []
  | .delta content => content.updates

/-- A frame and what it was built from: the refreshed engine and the slot before. -/
structure BuiltFrame where
  engine : ProjectionEngine
  world : World
  tick : UInt64
  slot : Slot
  frame : StateFrame

namespace BuiltFrame

def time (built : BuiltFrame) : Nat :=
  built.tick.toNat

def before (built : BuiltFrame) : ConnectionProjection :=
  built.slot.connection

def plan (built : BuiltFrame) : FramePlan :=
  built.engine.planFrame built.world built.tick built.slot

/-- The slot with the frame built. -/
def after (built : BuiltFrame) : Slot :=
  built.engine.buildSlot built.world built.tick built.slot

end BuiltFrame

/-- The frame that a build of this slot sends. -/
def frameBuilt (engine : ProjectionEngine) (world : World) (tick : UInt64) (slot : Slot) :
    Option BuiltFrame :=
  (engine.buildFrame world tick slot).1.map fun frame => ⟨engine, world, tick, slot, frame⟩

structure FrameLog where
  engine : ProjectionEngine
  built : List BuiltFrame := []
  /-- The last projection. -/
  lastTick : Option UInt64 := none

namespace FrameLog

/-- The frame that is built for `id` in this operation. -/
def builtBy (id : ConnectionId) (engine : ProjectionEngine) : EngineEvent → List BuiltFrame
  | .onProjection world tick =>
    ((engine.refreshGlobalView world tick).bind fun refreshed =>
      (refreshed.connections[id]?).bind (frameBuilt refreshed world tick)).toList
  | _ => []

def tickAfter (last : Option UInt64) : EngineEvent → Option UInt64
  | .onProjection _ tick => some tick
  | _ => last

/-- A connection that is added again starts over. -/
def step (id : ConnectionId) (log : FrameLog) (event : EngineEvent) : Option FrameLog :=
  (log.engine.step event).map fun engine =>
    { engine := engine
      built :=
        if (log.engine.connections[id]?).isSome ∧ (engine.connections[id]?).isSome then
          log.built ++ builtBy id log.engine event
        else []
      lastTick := tickAfter log.lastTick event }

abbrev Step (id : ConnectionId) (before : FrameLog) (event : EngineEvent) (after : FrameLog) :
    Prop :=
  before.step id event = some after

def initial (config : ProjectionConfig) (policy : ProjectionPolicy) : FrameLog where
  engine := { config := config, policy := policy }

variable {id : ConnectionId} {log after : FrameLog} {event : EngineEvent}

theorem step_engine (step : log.step id event = some after) :
    log.engine.step event = some after.engine := by
  obtain ⟨engine, stepped, rfl⟩ := Option.map_eq_some_iff.mp step
  exact stepped

theorem step_lastTick (step : log.step id event = some after) :
    after.lastTick = tickAfter log.lastTick event := by
  obtain ⟨engine, -, rfl⟩ := Option.map_eq_some_iff.mp step
  rfl

theorem built_absent (step : log.step id event = some after)
    (absent : ¬ ((log.engine.connections[id]?).isSome ∧
      (after.engine.connections[id]?).isSome)) : after.built = [] := by
  obtain ⟨engine, -, rfl⟩ := Option.map_eq_some_iff.mp step
  exact if_neg absent

theorem tickAfter_other (other : ∀ world tick, event ≠ .onProjection world tick)
    (last : Option UInt64) : tickAfter last event = last := by
  cases event with
  | onProjection world tick => exact absurd rfl (other world tick)
  | _ => rfl

theorem builtBy_other (other : ∀ world tick, event ≠ .onProjection world tick)
    (engine : ProjectionEngine) : builtBy id engine event = [] := by
  cases event with
  | onProjection world tick => exact absurd rfl (other world tick)
  | _ => rfl

theorem builtBy_projection {engine refreshed : ProjectionEngine} {world : World} {tick : UInt64}
    {slot : Slot} (refresh : engine.refreshGlobalView world tick = some refreshed)
    (found : refreshed.connections[id]? = some slot) :
    builtBy id engine (.onProjection world tick) =
      (frameBuilt refreshed world tick slot).toList := by
  simp only [builtBy, refresh, Option.bind_some, found]

/-- How the slot of the connection and its frames come about in one operation. -/
inductive Advance (id : ConnectionId) (log : FrameLog) : EngineEvent → Slot → List BuiltFrame →
    Prop where
  | built {world : World} {tick : UInt64} {refreshed : ProjectionEngine} {slot : Slot}
      (refresh : log.engine.refreshGlobalView world tick = some refreshed)
      (found : log.engine.connections[id]? = some slot)
      (kept : refreshed.connections[id]? = some slot) :
      Advance id log (.onProjection world tick) (refreshed.buildSlot world tick slot)
        (log.built ++ (frameBuilt refreshed world tick slot).toList)
  | changed {event : EngineEvent} {slot : Slot}
      (other : ∀ world tick, event ≠ .onProjection world tick)
      (found : log.engine.connections[id]? = some slot) :
      Advance id log event (slotEffect log.engine.latestSnapshotId id slot event) log.built
  | created {subscription : Subscription} (absent : log.engine.connections[id]? = none) :
      Advance id log (.addConnection id subscription) (freshSlot id subscription) []

theorem advance_of_step (inv : EngineInv log.engine) (step : log.step id event = some after)
    {slot : Slot} (found : after.engine.connections[id]? = some slot) :
    Advance id log event slot after.built := by
  obtain ⟨engine, stepped, rfl⟩ := Option.map_eq_some_iff.mp step
  simp only at found ⊢
  cases slotStep_of_step stepped found with
  | @built world tick refreshed old refresh found_old =>
    obtain ⟨-, steps⟩ := refreshGlobalView_step inv.global_inv refresh
    have found_before : log.engine.connections[id]? = some old := by
      rw [steps.connections_eq] at found_old
      exact found_old
    rw [found_before, found, builtBy_projection refresh found_old]
    exact .built refresh found_before found_old
  | @changed _ old other found_old =>
    rw [found_old, found, builtBy_other other, List.append_nil]
    exact .changed other found_old
  | created absent =>
    rw [absent]
    exact .created absent

/-- The frame came out of a build from sound state. -/
structure Genuine (built : BuiltFrame) : Prop where
  ready : BuildReady built.engine built.slot
  sent : frameBuilt built.engine built.world built.tick built.slot = some built

structure GenuineInv (log : FrameLog) : Prop where
  engine_inv : EngineInv log.engine
  genuine : ∀ built ∈ log.built, Genuine built

theorem GenuineInv.step (inv : GenuineInv log) (step : log.step id event = some after) :
    GenuineInv after := by
  refine ⟨inv.engine_inv.step (step_engine step), ?_⟩
  cases found : after.engine.connections[id]? with
  | none =>
    obtain ⟨engine, -, rfl⟩ := Option.map_eq_some_iff.mp step
    simp only at found ⊢
    rw [if_neg (by simp [found])]
    simp
  | some slot =>
    have advance := advance_of_step inv.engine_inv step found
    revert advance
    generalize after.built = list
    intro advance
    cases advance with
    | @built world tick refreshed old refresh _ kept =>
      intro entry member
      rcases List.mem_append.mp member with earlier | here
      · exact inv.genuine entry earlier
      · have sent := Option.mem_toList.mp here
        obtain ⟨frame, -, shape⟩ := Option.map_eq_some_iff.mp sent
        have ready := inv.engine_inv.buildReady refresh kept
        subst shape
        exact ⟨ready, sent⟩
    | changed => exact inv.genuine
    | created => simp

/-- In every run the log holds only frames that were built from sound state. -/
theorem genuine_run {config : ProjectionConfig} {policy : ProjectionPolicy}
    {events : List EngineEvent} (run : AnyRun (Step id) (.initial config policy) events log) :
    ∀ built ∈ log.built, Genuine built := by
  have start : GenuineInv (initial config policy) :=
    ⟨EngineInv.initial config policy, by simp [initial]⟩
  exact (run.invariant start fun _ _ _ _ step inv => inv.step step).genuine

/-- Ticks increase by one. -/
def Consecutive (log : FrameLog) : EngineEvent → Prop
  | .onProjection _ tick => ∀ last ∈ log.lastTick, tick.toNat = last.toNat + 1
  | _ => True

def isConsecutive (log : FrameLog) : EngineEvent → Bool
  | .onProjection _ tick => log.lastTick.all fun last => tick.toNat == last.toNat + 1
  | _ => true

theorem consecutive_of_check (check : log.isConsecutive event = true) : log.Consecutive event := by
  cases event with
  | onProjection world tick =>
    intro last isLast
    simp only [isConsecutive, Option.all_eq_true, beq_iff_eq] at check
    exact check last isLast
  | _ => trivial

end FrameLog

section Step

variable {engine after : ProjectionEngine} {event : EngineEvent}

theorem modifyConnection_frame (engine : ProjectionEngine) (id : ConnectionId)
    (change : ConnectionProjection → ConnectionProjection) :
    ∃ connections, (engine.modifyConnection id change).2 =
      { engine with connections := connections } := by
  unfold modifyConnection
  cases engine.connections[id]? with
  | none => exact ⟨engine.connections, rfl⟩
  | some slot => exact ⟨_, rfl⟩

/-- No operation changes the configuration, and only one changes the policy. -/
theorem settings_of_step (inv : EngineInv engine) (step : engine.step event = some after) :
    after.config = engine.config ∧ engine.policy.version ≤ after.policy.version ∧
      ∀ change, event = .changePolicy change →
        engine.policy.version < after.policy.version := by
  cases event with
  | onProjection world tick =>
    obtain ⟨refreshed, refresh, rfl⟩ := Option.map_eq_some_iff.mp step
    obtain ⟨-, steps⟩ := refreshGlobalView_step inv.global_inv refresh
    refine ⟨steps.config_eq, ?_, fun _ same => by cases same⟩
    simp only [steps.policy_eq]
    exact le_rfl
  | changePolicy change =>
    obtain rfl := Option.some.inj step
    refine ⟨rfl, ?_, fun _ _ => ?_⟩
    · simp [changePolicy]
    · simp [changePolicy]
  | setRelevanceFilter filter =>
    obtain rfl := Option.some.inj step
    exact ⟨rfl, le_rfl, fun _ same => by cases same⟩
  | addConnection id subscription =>
    obtain rfl := Option.some.inj step
    unfold addConnection
    split <;> exact ⟨rfl, le_rfl, fun _ same => by cases same⟩
  | removeConnection id =>
    obtain rfl := Option.some.inj step
    exact ⟨rfl, le_rfl, fun _ same => by cases same⟩
  | updateSubscription id subscription =>
    obtain rfl := Option.some.inj step
    obtain ⟨connections, frame⟩ := modifyConnection_frame engine id (·.setSubscription subscription)
    rw [updateSubscription, frame]
    exact ⟨rfl, le_rfl, fun _ same => by cases same⟩
  | resetStreamEpoch id =>
    obtain rfl := Option.some.inj step
    obtain ⟨connections, frame⟩ :=
      modifyConnection_frame engine id (·.resetEpoch .reconnect engine.latestSnapshotId)
    rw [resetStreamEpoch, frame]
    exact ⟨rfl, le_rfl, fun _ same => by cases same⟩
  | scheduleKeyframe id =>
    obtain rfl := Option.some.inj step
    obtain ⟨connections, frame⟩ :=
      modifyConnection_frame engine id ({ · with needsKeyframe := true })
    rw [scheduleKeyframe, frame]
    exact ⟨rfl, le_rfl, fun _ same => by cases same⟩
  | nextFrame id =>
    obtain rfl := Option.some.inj step
    unfold nextFrame
    cases engine.connections[id]? <;> exact ⟨rfl, le_rfl, fun _ same => by cases same⟩
  | acknowledge id snapshotId =>
    obtain rfl := Option.some.inj step
    unfold ProjectionEngine.acknowledge
    cases engine.connections[id]? <;> exact ⟨rfl, le_rfl, fun _ same => by cases same⟩

end Step

section DeltaBuild

variable {engine : ProjectionEngine} {world : World} {tick : UInt64} {slot : Slot}

/-- The connection with the operations of a delta in its current view. -/
def converged (scan : DeltaScan) : ConnectionProjection :=
  { scan.connection with
    currentView := convergeView scan.connection scan.frameOps scan.frameLeaves
    ackedDirty := [] }

/-- A build that ends in a delta, from its candidate loop to the commit. -/
structure DeltaBuild (engine : ProjectionEngine) (world : World) (tick : UInt64) (slot : Slot)
    (scan : DeltaScan) (delta : Delta) : Prop where
  undue : ¬ ((engine.planFrame world tick slot).forced ∨ (engine.planFrame world tick slot).periodic)
  same : (engine.planFrame world tick slot).connection = slot.connection
  loop : LoopResult
    (engine.widAction slot.connection (engine.planFrame world tick slot).visible tick)
    (engine.leaveReason slot.connection (engine.planFrame world tick slot).bounds world) tick
    slot.connection (loopWids engine slot.throttlePending (engine.planFrame world tick slot)) scan
  busy : ¬ (scan.enters.isEmpty && scan.updates.isEmpty && scan.leaves.isEmpty) = true
  content : delta = sealDelta (engine.frameHeader slot.connection tick slot.connection.ackedBaseline)
    (engine.trimUpdates slot.connection.ackedView scan)
  after : (engine.buildFrame world tick slot).2.connection =
    engine.commitFrame (converged (engine.trimUpdates slot.connection.ackedView scan))
      (engine.trimUpdates slot.connection.ackedView scan).ops

theorem deltaBuild (ready : BuildReady engine slot) {delta : Delta}
    (built : (engine.buildFrame world tick slot).1 = some (.delta delta)) :
    DeltaBuild engine world tick slot
      (engine.scanDelta world tick slot.throttlePending (engine.planFrame world tick slot))
      delta := by
  obtain ⟨distinct, -, -⟩ := ready.plan_sound world tick
  have result := scanDelta_result engine world tick slot.throttlePending distinct
  obtain ⟨build, builds⟩ : ∃ build, engine.buildFrame world tick slot = build := ⟨_, rfl⟩
  have shape := builds
  unfold buildFrame at shape
  simp only at shape
  split at shape
  · rw [builds, ← shape] at built
    cases built
  · next undue =>
    rw [Bool.or_eq_true] at undue
    obtain ⟨same, -⟩ := BuildReady.plan_unforced
      (Bool.eq_false_iff.mpr fun forced => undue (.inl forced))
    rw [same] at result
    obtain ⟨scan, scanned⟩ : ∃ scan, engine.scanDelta world tick slot.throttlePending
        (engine.planFrame world tick slot) = scan := ⟨_, rfl⟩
    rw [same, scanned] at shape
    rw [scanned] at result ⊢
    rw [builds, ← shape] at built
    obtain ⟨found, finished, inner⟩ := Option.map_eq_some_iff.mp built
    obtain rfl := StateFrame.delta.inj inner
    unfold finishDelta at finished shape
    split at finished
    · cases finished
    · next busy =>
      rw [if_neg busy] at shape
      refine ⟨undue, same, result, busy, (Option.some.inj finished).symm, ?_⟩
      rw [builds, ← shape]
      rfl

end DeltaBuild

/-- What operations other than `on_projection` leave alone in a connection. -/
theorem acknowledge_frame (connection : ConnectionProjection) (snapshotId : Nat) :
    ∃ acked dirty baseline records bytes counts, (connection.acknowledge snapshotId).2 =
      { connection with
        ackedView := acked
        ackedDirty := dirty
        ackedBaseline := baseline
        unackedRecords := records
        unackedBytes := bytes
        unackedWidCounts := counts } := by
  by_cases accepted : (connection.acknowledge snapshotId).1 = .accepted
  · obtain ⟨-, -, -, bytes, counts, result, -⟩ := acknowledge_accepted accepted
    exact ⟨_, _, _, _, _, _, result⟩
  · rw [acknowledge_rejected accepted]
    exact ⟨_, _, _, _, _, _, rfl⟩

end GeoWorld.Projection
