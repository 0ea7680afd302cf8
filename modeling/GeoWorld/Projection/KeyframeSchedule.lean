import Mathlib
import GeoWorld.Library.PeriodicTimer
import GeoWorld.Projection.WellFormedDelta

/-!
When keyframes are sent. A keyframe sets the tick at which the next one is due, one interval
later, or earlier by the phase of the connection when it was forced; what forces a keyframe
before that is pending until the next projection.
-/

namespace GeoWorld.Projection

open WorldModel Library ConnectionProjection ProjectionEngine

/-- How much sooner than one interval the keyframe after this one is due. -/
def keyframePhase (engine : ProjectionEngine) (connection : ConnectionProjection)
    (forced : Bool) : UInt64 :=
  if forced then connectionIdHash connection.id % engine.keyframeIntervalTicks else 0

/-- The build lost a record that was not acknowledged. -/
def BuiltFrame.evicts (built : BuiltFrame) : Bool :=
  decide (built.after.connection.unackedRecords.length ≤
    built.plan.connection.unackedRecords.length)

/-- The frames of a connection, and what its keyframes are measured against. -/
structure ScheduleLog where
  frames : FrameLog
  /-- Since the last projection the connection was added, resubscribed, moved to a new epoch or
  policy, or it lost a record in that projection. -/
  owed : Bool := true
  /-- What was built by the first projection after each of these. -/
  first : List (Option BuiltFrame) := []

namespace ScheduleLog

/-- What a keyframe has to follow, apart from the creation of the connection. -/
def asksKeyframe (id : ConnectionId) : EngineEvent → Bool
  | .updateSubscription other _ => decide (other = id)
  | .resetStreamEpoch other => decide (other = id)
  | .scheduleKeyframe other => decide (other = id)
  | .changePolicy _ => true
  | _ => false

def observe (id : ConnectionId) (log : ScheduleLog) (after : FrameLog) :
    EngineEvent → ScheduleLog
  | .onProjection world tick =>
    let built := (FrameLog.builtBy id log.frames.engine (.onProjection world tick)).head?
    { frames := after
      owed := built.any BuiltFrame.evicts
      first := if log.owed then log.first ++ [built] else log.first }
  | event => { log with frames := after, owed := log.owed || asksKeyframe id event }

/-- A connection that is added again starts over. -/
def step (id : ConnectionId) (log : ScheduleLog) (event : EngineEvent) : Option ScheduleLog :=
  (log.frames.step id event).map fun after =>
    if (log.frames.engine.connections[id]?).isSome ∧ (after.engine.connections[id]?).isSome then
      log.observe id after event
    else
      { (log.observe id after event) with owed := true, first := [] }

abbrev Step (id : ConnectionId) (before : ScheduleLog) (event : EngineEvent)
    (after : ScheduleLog) : Prop :=
  before.step id event = some after

def initial (config : ProjectionConfig) (policy : ProjectionPolicy) : ScheduleLog where
  frames := .initial config policy

def keyframes (log : ScheduleLog) : List BuiltFrame :=
  log.frames.built.filter fun built => built.frame.isKeyframe

end ScheduleLog

/-- The due time that a keyframe of `id` in this projection would set is a 64-bit tick. -/
def DueTimeFits (id : ConnectionId) (log : ScheduleLog) : EngineEvent → Prop
  | .onProjection world tick => ∀ refreshed ∈ log.frames.engine.refreshGlobalView world tick,
    ∀ slot ∈ refreshed.connections[id]?,
      let plan := refreshed.planFrame world tick slot
      plan.forced ∨ plan.periodic →
        tick.toNat + refreshed.keyframeIntervalTicks.toNat <
          2 ^ 64 + (keyframePhase refreshed plan.connection plan.forced).toNat
  | _ => True

def BuiltFrame.forced (built : BuiltFrame) : Bool :=
  built.plan.forced

/-- Keyframes come at least once in an interval, at its end when nothing forces them, and in
the next projection when something does. -/
structure KeyframesOnTime (interval : Nat) (log : ScheduleLog) : Prop where
  on_time : FiredOnTime interval BuiltFrame.time BuiltFrame.forced log.keyframes
  waited : ∀ last ∈ log.keyframes.getLast?, ∀ tick ∈ log.frames.lastTick,
    tick.toNat < last.tick.toNat + interval
  first_keyframe : ∀ built ∈ log.first, ∃ entry, built = some entry ∧
    entry.frame.isKeyframe = true
  epoch_keyframe : ∀ built ∈ log.frames.built,
    built.frame.header.streamEpoch ≠ built.before.streamEpoch → built.frame.isKeyframe = true

section Build

variable {engine : ProjectionEngine} {world : World} {tick : UInt64} {slot : Slot}

/-- A commit that shortens the records asks for a keyframe. -/
theorem commitFrame_needs {connection base : ConnectionProjection} {ops : List SentOp}
    {latest : Nat} (core : ConnectionCore latest connection)
    (next : engine.latestSnapshotId = latest + 1)
    (records : base.unackedRecords = connection.unackedRecords)
    (baseline : base.ackedBaseline = connection.ackedBaseline) :
    (engine.commitFrame base ops).needsKeyframe = true ∨
      connection.unackedRecords.length < (engine.commitFrame base ops).unackedRecords.length := by
  have window : ∀ record ∈ ((base.recordSent engine.latestSnapshotId
      ops).advanceStreamSequence).unackedRecords, base.ackedBaseline < record.snapshotId := by
    intro record member
    rw [baseline]
    rcases List.mem_append.mp member with earlier | last
    · exact (core.records_window record (records ▸ earlier)).1
    · obtain rfl := List.mem_singleton.mp last
      exact lt_of_le_of_lt core.baseline_le (by simp only; omega)
  have evicted := evictLoop_result engine.config.maxUnackedFrames engine.config.maxUnackedBytes _
    (base.recordSent engine.latestSnapshotId ops).advanceStreamSequence rfl window
  unfold commitFrame evictUnacked
  simp only
  rcases evicted with none_lost | ⟨kept, bytes, counts, -, lost⟩
  · right
    rw [none_lost]
    simp [recordSent, advanceStreamSequence, records]
  · left
    rw [lost]
    simp

theorem commitFrame_schedule (base : ConnectionProjection) (ops : List SentOp) :
    (engine.commitFrame base ops).nextKeyframeTick = base.nextKeyframeTick ∧
      (engine.commitFrame base ops).policyVersion = base.policyVersion := by
  obtain ⟨_, _, _, _, -, committed⟩ := commitFrame_frame engine base ops
  rw [committed]
  exact ⟨rfl, rfl⟩

/-- What a build does to the schedule of its connection. -/
structure Schedules (engine : ProjectionEngine) (plan : FramePlan) (tick : UInt64)
    (frame : Option StateFrame) (after : ConnectionProjection) : Prop where
  due : plan.forced ∨ plan.periodic → (∃ sent, frame = some sent ∧ sent.isKeyframe = true) ∧
    after.nextKeyframeTick = tick + engine.keyframeIntervalTicks -
      keyframePhase engine plan.connection plan.forced ∧
    after.policyVersion = engine.policy.version
  early : ¬ (plan.forced ∨ plan.periodic) →
    (∀ sent, frame = some sent → sent.isKeyframe = false) ∧
    after.nextKeyframeTick = plan.connection.nextKeyframeTick ∧
    after.policyVersion = plan.connection.policyVersion
  evicts : frame.isSome → after.needsKeyframe = true ∨
    plan.connection.unackedRecords.length < after.unackedRecords.length

theorem buildFrame_schedules (ready : BuildReady engine slot) :
    Schedules engine (engine.planFrame world tick slot) tick
      (engine.buildFrame world tick slot).1 (engine.buildFrame world tick slot).2.connection := by
  obtain ⟨distinct, -, -⟩ := ready.plan_sound world tick
  obtain ⟨latest, next, inv⟩ := ready.plan_connection world tick
  obtain ⟨plan, planned⟩ : ∃ plan, engine.planFrame world tick slot = plan := ⟨_, rfl⟩
  unfold buildFrame
  rw [planned] at distinct inv ⊢
  simp only
  split
  · next due =>
    rw [Bool.or_eq_true] at due
    obtain ⟨_, _, _, frame⟩ := ensureFids_frame plan.connection
      (plan.visible.filter fun wid => (engine.keyframeAction wid).isEnter)
    have same : (engine.keyframeScan plan.connection plan.visible tick).connection = _ :=
      ((engine.keyframeScan_result plan.connection tick distinct).connection_eq).trans frame
    rw [buildKeyframe_eq]
    refine ⟨fun _ => ⟨⟨_, rfl, rfl⟩, commitFrame_schedule _ _⟩, fun undue => absurd due undue,
      fun _ => ?_⟩
    refine commitFrame_needs inv.toConnectionCore next ?_ ?_
    · simp only [keyframeConnection, same]
    · simp only [keyframeConnection, same]
  · next undue =>
    rw [Bool.or_eq_true] at undue
    obtain ⟨_, _, _, frame⟩ := ensureFids_frame plan.connection
      ((loopWids engine slot.throttlePending plan).filter fun wid =>
        (engine.widAction plan.connection plan.visible tick wid).isEnter)
    have same := (scanDelta_result engine world tick slot.throttlePending
      distinct).connection_eq.trans frame
    obtain ⟨scan, scanned⟩ : ∃ scan, engine.scanDelta world tick slot.throttlePending plan = scan :=
      ⟨_, rfl⟩
    rw [scanned] at same ⊢
    unfold finishDelta
    split
    · refine ⟨fun due => absurd due undue, fun _ => ⟨fun sent nothing => ?_, ?_⟩, fun sent => ?_⟩
      · cases nothing
      · simp only [same, and_self]
      · exact absurd sent Bool.false_ne_true
    · refine ⟨fun due => absurd due undue, fun _ => ⟨fun sent shape => ?_, ?_⟩, fun _ => ?_⟩
      · obtain rfl := Option.some.inj shape
        rfl
      · refine ⟨(commitFrame_schedule _ _).1.trans ?_, (commitFrame_schedule _ _).2.trans ?_⟩
        · simp only [trimUpdates_connection, same]
        · simp only [trimUpdates_connection, same]
      · refine commitFrame_needs inv.toConnectionCore next ?_ ?_
        · simp only [trimUpdates_connection, same]
        · simp only [trimUpdates_connection, same]

/-- Only a keyframe of the engine clears what asks for one. -/
theorem slotEffect_schedule (latest : Nat) (id : ConnectionId) (event : EngineEvent) :
    (slotEffect latest id slot event).connection.nextKeyframeTick =
        slot.connection.nextKeyframeTick ∧
      (slotEffect latest id slot event).connection.policyVersion =
        slot.connection.policyVersion ∧
      (slot.connection.needsKeyframe = true →
        (slotEffect latest id slot event).connection.needsKeyframe = true) ∧
      (ScheduleLog.asksKeyframe id event = true → (∀ change, event ≠ .changePolicy change) →
        (slotEffect latest id slot event).connection.needsKeyframe = true) := by
  cases event with
  | updateSubscription other subscription =>
    by_cases same : other = id <;> simp [slotEffect, setSubscription, same, ScheduleLog.asksKeyframe]
  | resetStreamEpoch other =>
    by_cases same : other = id <;> simp [slotEffect, resetEpoch, same, ScheduleLog.asksKeyframe]
  | scheduleKeyframe other =>
    by_cases same : other = id <;> simp [slotEffect, same, ScheduleLog.asksKeyframe]
  | nextFrame other => by_cases same : other = id <;> simp [slotEffect, same, ScheduleLog.asksKeyframe]
  | acknowledge other snapshotId =>
    obtain ⟨_, _, _, _, _, _, frame⟩ := acknowledge_frame slot.connection snapshotId
    by_cases same : other = id <;> simp [slotEffect, frame, same, ScheduleLog.asksKeyframe]
  | changePolicy change => simp [slotEffect, ScheduleLog.asksKeyframe]
  | _ => simp [slotEffect, ScheduleLog.asksKeyframe]

end Build

/-- The schedule of a connection against the frames it was sent. -/
structure SlotSchedule (interval : UInt64) (log : ScheduleLog)
    (connection : ConnectionProjection) : Prop where
  policy_le : connection.policyVersion ≤ log.frames.engine.policy.version
  asked : log.owed = true → connection.needsKeyframe = true ∨
    connection.policyVersion ≠ log.frames.engine.policy.version
  armed : TimerArmed interval.toNat BuiltFrame.time BuiltFrame.forced log.keyframes
    (log.frames.lastTick.map UInt64.toNat) connection.nextKeyframeTick.toNat

structure ScheduleInv (id : ConnectionId) (interval : UInt64) (log : ScheduleLog) : Prop
    extends KeyframesOnTime interval.toNat log where
  engine_inv : EngineInv log.frames.engine
  interval_eq : log.frames.engine.keyframeIntervalTicks = interval
  slot_schedule : ∀ slot, log.frames.engine.connections[id]? = some slot →
    SlotSchedule interval log slot.connection

section Run

variable {id : ConnectionId} {interval : UInt64} {log after : ScheduleLog} {event : EngineEvent}

theorem keyframePhase_lt (engine : ProjectionEngine) (connection : ConnectionProjection)
    (forced : Bool) (positive : 0 < engine.keyframeIntervalTicks.toNat) :
    (keyframePhase engine connection forced).toNat < engine.keyframeIntervalTicks.toNat := by
  unfold keyframePhase
  split
  · rw [UInt64.toNat_mod]
    exact Nat.mod_lt _ positive
  · exact positive

/-- The due time a keyframe sets, when it is a 64-bit tick. -/
theorem dueTime_toNat {tick interval phase : UInt64} (below : phase.toNat < interval.toNat)
    (fits : tick.toNat + interval.toNat < 2 ^ 64 + phase.toNat) :
    (tick + interval - phase).toNat = tick.toNat + interval.toNat - phase.toNat := by
  have ticks := tick.toNat_lt
  have intervals := interval.toNat_lt
  rw [UInt64.toNat_sub, UInt64.toNat_add]
  omega

/-- Once a due time is set, a keyframe is due from then on. -/
theorem keyframeDue_iff {engine : ProjectionEngine} {connection : ConnectionProjection}
    {tick : UInt64} (set : 0 < connection.nextKeyframeTick.toNat) :
    engine.keyframeDue connection tick = true ↔
      connection.nextKeyframeTick.toNat ≤ tick.toNat := by
  have nonzero : connection.nextKeyframeTick ≠ 0 := by
    intro zero
    rw [zero] at set
    exact Nat.lt_irrefl 0 set
  rw [keyframeDue, if_pos nonzero, decide_eq_true_eq, ge_iff_le, UInt64.le_iff_toNat_le]

theorem planFrame_schedule {engine : ProjectionEngine} {world : World} {tick : UInt64}
    {slot : Slot} :
    (engine.planFrame world tick slot).connection.nextKeyframeTick =
        slot.connection.nextKeyframeTick ∧
      (engine.planFrame world tick slot).connection.policyVersion =
        slot.connection.policyVersion := by
  unfold planFrame
  simp only
  split <;> exact ⟨rfl, rfl⟩

/-- What a build adds to the keyframes. -/
def keyframeOf (built : Option BuiltFrame) : List BuiltFrame :=
  built.toList.filter fun entry => entry.frame.isKeyframe

section Project

variable {refreshed : ProjectionEngine} {world : World} {tick : UInt64} {slot : Slot}

/-- The keyframes of a connection stay on time through a build. -/
theorem build_onTime (ready : BuildReady refreshed slot)
    (positive : 0 < refreshed.keyframeIntervalTicks.toNat) {fired : List BuiltFrame}
    {now : Option Nat}
    (armed : TimerArmed refreshed.keyframeIntervalTicks.toNat BuiltFrame.time BuiltFrame.forced
      fired now slot.connection.nextKeyframeTick.toNat)
    (onTime : FiredOnTime refreshed.keyframeIntervalTicks.toNat BuiltFrame.time BuiltFrame.forced
      fired)
    (follows : ∀ current ∈ now, tick.toNat = current + 1)
    (fits : (refreshed.planFrame world tick slot).forced ∨
        (refreshed.planFrame world tick slot).periodic →
      tick.toNat + refreshed.keyframeIntervalTicks.toNat <
        2 ^ 64 + (keyframePhase refreshed (refreshed.planFrame world tick slot).connection
          (refreshed.planFrame world tick slot).forced).toNat) :
    FiredOnTime refreshed.keyframeIntervalTicks.toNat BuiltFrame.time BuiltFrame.forced
        (fired ++ keyframeOf (frameBuilt refreshed world tick slot)) ∧
      TimerArmed refreshed.keyframeIntervalTicks.toNat BuiltFrame.time BuiltFrame.forced
        (fired ++ keyframeOf (frameBuilt refreshed world tick slot)) (some tick.toNat)
        (refreshed.buildSlot world tick slot).connection.nextKeyframeTick.toNat := by
  have schedules := @buildFrame_schedules refreshed world tick slot ready
  have next_eq : (refreshed.buildSlot world tick slot).connection.nextKeyframeTick =
    (refreshed.buildFrame world tick slot).2.connection.nextKeyframeTick := rfl
  have due_iff : fired ≠ [] → ((refreshed.planFrame world tick slot).periodic = true ↔
      slot.connection.nextKeyframeTick.toNat ≤ tick.toNat) := by
    intro nonempty
    obtain ⟨last, isLast⟩ := Option.isSome_iff_exists.mp (List.getLast?_isSome.mpr nonempty)
    obtain ⟨current, -, later, -⟩ := armed last isLast
    exact keyframeDue_iff (Nat.zero_lt_of_lt later)
  by_cases due : (refreshed.planFrame world tick slot).forced ∨
      (refreshed.planFrame world tick slot).periodic
  · obtain ⟨⟨sent, built, keyframe⟩, next, -⟩ := schedules.due due
    have fires : keyframeOf (frameBuilt refreshed world tick slot) =
        [⟨refreshed, world, tick, slot, sent⟩] := by
      simp [keyframeOf, frameBuilt, built, keyframe]
    have below := keyframePhase_lt refreshed (refreshed.planFrame world tick slot).connection
      (refreshed.planFrame world tick slot).forced positive
    have value := dueTime_toNat below (fits due)
    rw [fires, next_eq, next, value]
    refine ⟨armed.fires onTime follows fun unforced nonempty => ?_, TimerArmed.rearm ?_ ?_ ?_⟩
    · refine (due_iff nonempty).mp (due.resolve_left fun forced => ?_)
      rw [BuiltFrame.forced, BuiltFrame.plan, forced] at unforced
      cases unforced
    · simp only [BuiltFrame.time]
      omega
    · simp only [BuiltFrame.time]
      omega
    · intro unforced
      have none : keyframePhase refreshed (refreshed.planFrame world tick slot).connection
          (refreshed.planFrame world tick slot).forced = 0 := by
        rw [BuiltFrame.forced, BuiltFrame.plan] at unforced
        rw [keyframePhase, unforced, if_neg Bool.false_ne_true]
      rw [none]
      rfl
  · obtain ⟨deltas, next, -⟩ := schedules.early due
    have waits : keyframeOf (frameBuilt refreshed world tick slot) = [] := by
      cases built : (refreshed.buildFrame world tick slot).1 with
      | none => simp [keyframeOf, frameBuilt, built]
      | some frame => simp [keyframeOf, frameBuilt, built, deltas frame built]
    rw [waits, List.append_nil, next_eq, next, planFrame_schedule.1]
    refine ⟨onTime, armed.wait fun nonempty => Nat.lt_of_not_le fun late => ?_⟩
    exact due (.inr ((due_iff nonempty).mpr late))

/-- What is owed is paid by the first build. -/
theorem build_forced (owed : slot.connection.needsKeyframe = true ∨
    slot.connection.policyVersion ≠ refreshed.policy.version) :
    (refreshed.planFrame world tick slot).forced = true := by
  unfold planFrame
  simp only [Bool.or_eq_true, decide_eq_true_eq]
  exact .inl owed

theorem build_epoch (ready : BuildReady refreshed slot) {entry : BuiltFrame}
    (built : frameBuilt refreshed world tick slot = some entry)
    (moved : entry.frame.header.streamEpoch ≠ entry.before.streamEpoch) :
    entry.frame.isKeyframe = true := by
  obtain ⟨sent, frame, rfl⟩ := Option.map_eq_some_iff.mp built
  have schedules := @buildFrame_schedules refreshed world tick slot ready
  by_cases due : (refreshed.planFrame world tick slot).forced ∨
      (refreshed.planFrame world tick slot).periodic
  · obtain ⟨other, built_other, keyframe⟩ := (schedules.due due).1
    obtain rfl := Option.some.inj (frame.symm.trans built_other)
    exact keyframe
  · refine absurd ?_ moved
    have unforced : (refreshed.planFrame world tick slot).forced = false :=
      Bool.eq_false_iff.mpr fun forced => due (.inl forced)
    have numbers := (@buildFrame_numbers refreshed tick slot world ready).sent sent frame
    rw [(BuildReady.plan_unforced unforced).1] at numbers
    exact numbers.1

end Project

/-- A projection that finds the connection keeps its keyframes on time. -/
theorem ScheduleInv.project (inv : ScheduleInv id interval log) (positive : 0 < interval.toNat)
    {world : World} {tick : UInt64} {refreshed : ProjectionEngine} {slot : Slot}
    (consecutive : log.frames.Consecutive (.onProjection world tick))
    (fits : DueTimeFits id log (.onProjection world tick))
    (refresh : log.frames.engine.refreshGlobalView world tick = some refreshed)
    (found : log.frames.engine.connections[id]? = some slot)
    (kept : refreshed.connections[id]? = some slot) {frames : FrameLog}
    (policy : frames.engine.policy = refreshed.policy) (ticked : frames.lastTick = some tick)
    (built : frames.built = log.frames.built ++ (frameBuilt refreshed world tick slot).toList) :
    KeyframesOnTime interval.toNat (log.observe id frames (.onProjection world tick)) ∧
      SlotSchedule interval (log.observe id frames (.onProjection world tick))
        (refreshed.buildSlot world tick slot).connection := by
  obtain ⟨-, steps⟩ := refreshGlobalView_step inv.engine_inv.global_inv refresh
  have ready := inv.engine_inv.buildReady refresh kept
  have schedule := inv.slot_schedule slot found
  have same : refreshed.keyframeIntervalTicks = interval := by
    rw [← inv.interval_eq, keyframeIntervalTicks, keyframeIntervalTicks, steps.config_eq]
    rfl
  have same_policy : refreshed.policy = log.frames.engine.policy := steps.policy_eq
  have follows : ∀ current ∈ log.frames.lastTick.map UInt64.toNat, tick.toNat = current + 1 := by
    intro current member
    obtain ⟨last, isLast, rfl⟩ := Option.map_eq_some_iff.mp member
    exact consecutive last isLast
  subst same
  obtain ⟨onTime, armed⟩ := build_onTime ready positive schedule.armed inv.on_time follows
    (fits refreshed refresh slot kept)
  have schedules := @buildFrame_schedules refreshed world tick slot ready
  have observed : FrameLog.builtBy id log.frames.engine (.onProjection world tick) =
      (frameBuilt refreshed world tick slot).toList := FrameLog.builtBy_projection refresh kept
  have head : (FrameLog.builtBy id log.frames.engine (.onProjection world tick)).head? =
      frameBuilt refreshed world tick slot := by
    rw [observed]
    cases frameBuilt refreshed world tick slot <;> rfl
  have keyframes : (log.observe id frames (.onProjection world tick)).keyframes =
      log.keyframes ++ keyframeOf (frameBuilt refreshed world tick slot) := by
    simp only [ScheduleLog.keyframes, ScheduleLog.observe, built, List.filter_append, keyframeOf]
  refine ⟨⟨?_, ?_, ?_, ?_⟩, ?_, ?_, ?_⟩
  · rw [keyframes]
    exact onTime
  · intro last isLast current isNow
    rw [keyframes] at isLast
    refine armed.waited isLast ?_
    obtain rfl := Option.some.inj (ticked.symm.trans isNow)
    rfl
  · intro build member
    simp only [ScheduleLog.observe, head] at member
    by_cases owed : log.owed = true
    · rw [if_pos owed] at member
      rcases List.mem_append.mp member with earlier | here
      · exact inv.first_keyframe build earlier
      · obtain rfl := List.mem_singleton.mp here
        have asked := schedule.asked owed
        rw [← same_policy] at asked
        obtain ⟨⟨sent, sends, keyframe⟩, -⟩ := schedules.due (.inl (build_forced asked))
        exact ⟨_, by rw [frameBuilt, sends, Option.map_some], keyframe⟩
    · rw [if_neg owed] at member
      exact inv.first_keyframe build member
  · intro entry member moved
    simp only [ScheduleLog.observe, built] at member
    rcases List.mem_append.mp member with earlier | here
    · exact inv.epoch_keyframe entry earlier moved
    · exact build_epoch ready (Option.mem_toList.mp here) moved
  · have after : (refreshed.buildSlot world tick slot).connection.policyVersion =
        (refreshed.buildFrame world tick slot).2.connection.policyVersion := rfl
    simp only [ScheduleLog.observe, policy, after]
    by_cases due : (refreshed.planFrame world tick slot).forced ∨
        (refreshed.planFrame world tick slot).periodic
    · exact (schedules.due due).2.2.le
    · rw [(schedules.early due).2.2, planFrame_schedule.2, same_policy]
      exact schedule.policy_le
  · intro owed
    simp only [ScheduleLog.observe, head, Option.any_eq_true_iff_get] at owed
    obtain ⟨sends, evicts⟩ := owed
    obtain ⟨sent, frame, shape⟩ :=
      Option.map_eq_some_iff.mp (Option.some_get sends).symm
    rw [← shape, BuiltFrame.evicts, decide_eq_true_eq] at evicts
    refine .inl ((schedules.evicts (by rw [frame]; rfl)).resolve_right fun longer => ?_)
    exact absurd longer (Nat.not_lt_of_le evicts)
  · rw [keyframes]
    simp only [ScheduleLog.observe, ticked]
    exact armed

/-- An operation that leaves the connection in place keeps its keyframes on time. -/
theorem ScheduleInv.change (inv : ScheduleInv id interval log) {frames : FrameLog} {slot : Slot}
    (other : ∀ world tick, event ≠ .onProjection world tick)
    (stepped : log.frames.step id event = some frames)
    (found : log.frames.engine.connections[id]? = some slot)
    (built : frames.built = log.frames.built) :
    KeyframesOnTime interval.toNat (log.observe id frames event) ∧
      SlotSchedule interval (log.observe id frames event)
        (slotEffect log.frames.engine.latestSnapshotId id slot event).connection := by
  obtain ⟨-, grows, changes⟩ :=
    settings_of_step inv.engine_inv (FrameLog.step_engine stepped)
  obtain ⟨next, version, needs, asks⟩ :=
    @slotEffect_schedule slot log.frames.engine.latestSnapshotId id event
  have schedule := inv.slot_schedule slot found
  have observed : log.observe id frames event =
      { log with
        frames := frames, owed := log.owed || ScheduleLog.asksKeyframe id event } := by
    cases event with
    | onProjection world tick => exact absurd rfl (other world tick)
    | _ => rfl
  have keyframes : (log.observe id frames event).keyframes = log.keyframes := by
    rw [observed]
    simp only [ScheduleLog.keyframes, built]
  have ticked : frames.lastTick = log.frames.lastTick :=
    (FrameLog.step_lastTick stepped).trans (FrameLog.tickAfter_other other _)
  refine ⟨⟨?_, ?_, ?_, ?_⟩, ?_, ?_, ?_⟩
  · rw [keyframes]
    exact inv.on_time
  · rw [keyframes, observed]
    simp only [ticked]
    exact inv.waited
  · rw [observed]
    exact inv.first_keyframe
  · rw [observed]
    simp only [built]
    exact inv.epoch_keyframe
  · rw [observed, version]
    exact schedule.policy_le.trans grows
  · rw [observed]
    intro owed
    by_cases policy : ∃ change, event = .changePolicy change
    · obtain ⟨change, same⟩ := policy
      right
      rw [version]
      exact ((schedule.policy_le).trans_lt (changes change same)).ne
    · rcases Bool.or_eq_true _ _ |>.mp owed with before | asked
      · rcases schedule.asked before with needed | outdated
        · exact .inl (needs needed)
        · right
          rw [version]
          exact ((lt_of_le_of_ne schedule.policy_le outdated).trans_le grows).ne
      · exact .inl (asks asked fun change same => policy ⟨change, same⟩)
  · rw [keyframes, observed, next]
    simp only [ticked]
    exact schedule.armed

theorem scheduleInv_step (inv : ScheduleInv id interval log) (positive : 0 < interval.toNat)
    (consecutive : log.frames.Consecutive event) (fits : DueTimeFits id log event)
    (step : log.step id event = some after) : ScheduleInv id interval after := by
  obtain ⟨frames, stepped, rfl⟩ := Option.map_eq_some_iff.mp step
  have engine_inv : EngineInv frames.engine := inv.engine_inv.step (FrameLog.step_engine stepped)
  obtain ⟨config, -⟩ := settings_of_step inv.engine_inv (FrameLog.step_engine stepped)
  have interval_eq : frames.engine.keyframeIntervalTicks = interval := by
    rw [← inv.interval_eq, keyframeIntervalTicks, keyframeIntervalTicks, config]
  have observed : (log.observe id frames event).frames = frames := by
    cases event <;> rfl
  by_cases present : (log.frames.engine.connections[id]?).isSome ∧
      (frames.engine.connections[id]?).isSome
  · rw [if_pos present]
    obtain ⟨slot, found⟩ := Option.isSome_iff_exists.mp present.2
    have both : KeyframesOnTime interval.toNat (log.observe id frames event) ∧
        SlotSchedule interval (log.observe id frames event) slot.connection := by
      have advance := FrameLog.advance_of_step inv.engine_inv stepped found
      revert advance
      generalize list : frames.built = built
      intro advance
      cases advance with
      | built refresh found_old kept =>
        refine inv.project positive consecutive fits refresh found_old kept ?_
          (FrameLog.step_lastTick stepped) list
        obtain ⟨refreshed, refresh', same⟩ :=
          Option.map_eq_some_iff.mp (FrameLog.step_engine stepped)
        obtain rfl := Option.some.inj (refresh.symm.trans refresh')
        rw [← same]
      | changed other found_old => exact inv.change other stepped found_old list
      | created absent =>
        rw [absent] at present
        exact absurd present.1 Bool.false_ne_true
    refine ⟨both.1, ?_, ?_, fun other present => ?_⟩
    · rw [observed]
      exact engine_inv
    · rw [observed]
      exact interval_eq
    · rw [observed] at present
      obtain rfl := Option.some.inj (present.symm.trans found)
      exact both.2
  · rw [if_neg present]
    have built := FrameLog.built_absent stepped present
    have keyframes : ({ (log.observe id frames event) with
        owed := true, first := [] } : ScheduleLog).keyframes = [] := by
      simp only [ScheduleLog.keyframes, observed, built, List.filter_nil]
    have fresh : ∀ slot, (log.observe id frames event).frames.engine.connections[id]? = some slot →
        slot.connection.policyVersion = 0 ∧ slot.connection.needsKeyframe = true := by
      intro slot found
      rw [observed] at found
      have gone : log.frames.engine.connections[id]? = none := by
        refine Option.not_isSome_iff_eq_none.mp fun before => present ⟨before, ?_⟩
        rw [found]
        rfl
      have advance := FrameLog.advance_of_step inv.engine_inv stepped found
      revert advance
      generalize frames.built = list
      intro advance
      cases advance with
      | built _ found_old =>
        rw [gone] at found_old
        cases found_old
      | changed _ found_old =>
        rw [gone] at found_old
        cases found_old
      | created => exact ⟨rfl, rfl⟩
    refine ⟨⟨?_, ?_, ?_, ?_⟩, ?_, ?_, fun slot found => ⟨?_, ?_, ?_⟩⟩
    · rw [keyframes]
      exact ⟨.nil, .nil⟩
    · rw [keyframes]
      simp
    · simp
    · simp only [observed, built]
      simp
    · simp only [observed]
      exact engine_inv
    · simp only [observed]
      exact interval_eq
    · rw [(fresh slot found).1]
      exact Nat.zero_le _
    · exact fun _ => .inl (fresh slot found).2
    · rw [keyframes]
      simp [TimerArmed]

/-- In every run with consecutive ticks whose due times fit, keyframes are on time. -/
theorem keyframes_on_time (config : ProjectionConfig) (policy : ProjectionPolicy)
    (id : ConnectionId) {events : List EngineEvent} {log : ScheduleLog}
    (positive : 0 < (FrameLog.initial config policy).engine.keyframeIntervalTicks.toNat)
    (run : GuardedRun (ScheduleLog.Step id)
      (fun log event => log.frames.Consecutive event ∧ DueTimeFits id log event)
      (.initial config policy) events log) :
    KeyframesOnTime (FrameLog.initial config policy).engine.keyframeIntervalTicks.toNat log := by
  have start : ScheduleInv id (FrameLog.initial config policy).engine.keyframeIntervalTicks
      (.initial config policy) := by
    refine ⟨⟨⟨.nil, .nil⟩, ?_, ?_, ?_⟩, EngineInv.initial config policy, rfl, fun slot found => ?_⟩
    · simp [ScheduleLog.initial, ScheduleLog.keyframes, FrameLog.initial]
    · simp [ScheduleLog.initial]
    · simp [ScheduleLog.initial, FrameLog.initial]
    · simp [ScheduleLog.initial, FrameLog.initial] at found
  exact (run.invariant start fun _ _ _ allowed step inv =>
    scheduleInv_step inv positive allowed.1 allowed.2 step).toKeyframesOnTime

def dueTimeFits (log : ScheduleLog) : EngineEvent → Bool
  | .onProjection world tick =>
    (log.frames.engine.refreshGlobalView world tick).all fun refreshed =>
      decide (tick.toNat + refreshed.keyframeIntervalTicks.toNat < 2 ^ 64)
  | _ => true

theorem dueTimeFits_of_check (check : dueTimeFits log event = true) :
    DueTimeFits id log event := by
  cases event with
  | onProjection world tick =>
    intro refreshed refresh slot _ plan _
    simp only [dueTimeFits, Option.all_eq_true, decide_eq_true_eq] at check
    exact Nat.lt_add_right _ (check refreshed refresh)
  | _ => trivial

/-- Two ticks between keyframes. -/
def brisk : ProjectionConfig :=
  { originConfig with keyframeIntervalSeconds := 1, tickDtMicroseconds := 500000 }

/-- Four projections from this tick on. -/
def fourTicks (tick : UInt64) : List EngineEvent :=
  [.addConnection 8 originArea, .onProjection originWorld tick,
    .onProjection originWorld (tick + 1), .onProjection originWorld (tick + 2),
    .onProjection originWorld (tick + 3)]

theorem brisk_computed :
    (runLabels (fun (log : ScheduleLog) event => if log.frames.isConsecutive event && dueTimeFits log event then
        log.step 8 event else none) (.initial brisk {}) (fourTicks 1)).map
      (fun log => log.keyframes.map BuiltFrame.time) = some [1, 3] := by
  decide +kernel

theorem keyframes_on_time_brisk : ∃ log : ScheduleLog,
    log.keyframes.map BuiltFrame.time = [1, 3] ∧ KeyframesOnTime 2 log := by
  obtain ⟨log, computed, times⟩ := Option.map_eq_some_iff.mp brisk_computed
  have sound : ∀ log event, (log.frames.isConsecutive event && dueTimeFits log event) = true →
      log.frames.Consecutive event ∧ DueTimeFits 8 log event := by
    intro log event check
    rw [Bool.and_eq_true] at check
    exact ⟨FrameLog.consecutive_of_check check.1, dueTimeFits_of_check check.2⟩
  exact ⟨log, times, keyframes_on_time brisk {} 8 (by decide) (.of_checked sound computed)⟩

theorem late_computed :
    (runLabels (fun (log : ScheduleLog) event => if log.frames.isConsecutive event then log.step 8 event else none)
        (.initial brisk {}) (fourTicks (0 - 4))).map
      (fun log => log.keyframes.map fun built => (built.time, built.forced)) =
        some [(2 ^ 64 - 4, true), (2 ^ 64 - 2, false), (2 ^ 64 - 1, false)] := by
  decide +kernel

/-- A due time past the last 64-bit tick comes around to the next tick. -/
theorem due_time_wraps : ¬ ∀ (config : ProjectionConfig) (policy : ProjectionPolicy)
    (id : ConnectionId) (events : List EngineEvent) (log : ScheduleLog),
    0 < (FrameLog.initial config policy).engine.keyframeIntervalTicks.toNat →
    GuardedRun (ScheduleLog.Step id) (fun log event => log.frames.Consecutive event)
      (.initial config policy) events log →
      KeyframesOnTime (FrameLog.initial config policy).engine.keyframeIntervalTicks.toNat log := by
  intro always
  obtain ⟨log, computed, keyframes⟩ := Option.map_eq_some_iff.mp late_computed
  have run : GuardedRun (ScheduleLog.Step 8) (fun log event => log.frames.Consecutive event)
      (.initial brisk {}) _ log :=
    .of_checked (fun _ _ check => FrameLog.consecutive_of_check check) computed
  have periodic := (always brisk {} 8 _ log (by decide) run).on_time.periodic
  have interval : (FrameLog.initial brisk {}).engine.keyframeIntervalTicks.toNat = 2 := by decide
  rw [interval] at periodic
  have chain : (log.keyframes.map fun built => (built.time, built.forced)).IsChain
      fun first second => first.2 = false → second.2 = false → second.1 = first.1 + 2 :=
    (List.isChain_map _).mpr periodic
  rw [keyframes] at chain
  revert chain
  decide

end Run

end GeoWorld.Projection
