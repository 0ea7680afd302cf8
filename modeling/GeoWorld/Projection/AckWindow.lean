import Mathlib
import GeoWorld.Projection.SentFrames

/-!
The window of snapshot ids a connection can acknowledge. An id is acknowledgeable
when it lies above the floor of the epoch and is either covered by the baseline or
still has its record. Three things shrink the window: an epoch reset raises the
floor, eviction drops records, and an accepted acknowledgement trades records for
the baseline. Only the last of them keeps every id inside.
-/

namespace GeoWorld.Projection

open WorldModel Library ConnectionProjection ProjectionEngine

/-- One engine and the ids of the frames taken for one connection in its current epoch. -/
structure TakenLog where
  engine : ProjectionEngine
  taken : List Nat := []

namespace TakenLog

def epochOf (id : ConnectionId) (engine : ProjectionEngine) : Option Nat :=
  (engine.connections[id]?).map fun slot => slot.connection.streamEpoch

/-- The frame `next_frame` returns for `id` in this operation. -/
def takenBy (id : ConnectionId) (engine : ProjectionEngine) : EngineEvent → List Nat
  | .nextFrame other =>
    if other = id then ((engine.nextFrame id).1.map fun frame => frame.header.snapshotId).toList
    else []
  | _ => []

def step (id : ConnectionId) (log : TakenLog) (event : EngineEvent) : Option TakenLog :=
  (log.engine.step event).map fun engine =>
    ⟨engine, if epochOf id engine = epochOf id log.engine then
      log.taken ++ takenBy id log.engine event else []⟩

abbrev Step (id : ConnectionId) (before : TakenLog) (event : EngineEvent) (after : TakenLog) :
    Prop :=
  before.step id event = some after

end TakenLog

/-- Every frame taken in the current epoch can be acknowledged without an error. -/
def TakenAcknowledgeable (id : ConnectionId) (log : TakenLog) : Prop :=
  ∀ snapshotId ∈ log.taken,
    (log.engine.acknowledge id snapshotId).1 = .accepted ∨
      (log.engine.acknowledge id snapshotId).1 = .duplicateIgnored

/-- The build has room for its feature ids, and its record fits beside the kept ones. -/
def BuildFits (engine : ProjectionEngine) (world : World) (tick : UInt64) (slot : Slot) : Prop :=
  ¬ engine.FidsExhausted slot.connection (engine.resolveVisible slot.connection
      slot.visibleCache (engine.resolveBounds slot.connection) world) ∧
  ∀ ops ∈ engine.recordedOps world tick slot,
    slot.connection.unackedRecords.length + 1 ≤ engine.config.maxUnackedFrames ∧
      slot.connection.unackedBytes + ops.length * sentOpBytes ≤ engine.config.maxUnackedBytes

/-- Builds for `id` fit, and a frame is not taken after the epoch it was built in. -/
def KeepsWindow (id : ConnectionId) (log : TakenLog) : EngineEvent → Prop
  | .onProjection world tick =>
    ∀ refreshed slot, log.engine.refreshGlobalView world tick = some refreshed →
      refreshed.connections[id]? = some slot → BuildFits refreshed world tick slot
  | .nextFrame other => other = id → ∀ slot frame, log.engine.connections[id]? = some slot →
      slot.pendingFrame = some (some frame) →
        frame.header.streamEpoch = slot.connection.streamEpoch
  | _ => True

def Acknowledgeable (connection : ConnectionProjection) (snapshotId : Nat) : Prop :=
  connection.epochSnapshotFloor < snapshotId ∧
    (snapshotId ≤ connection.ackedBaseline ∨
      ∃ record ∈ connection.unackedRecords, record.snapshotId = snapshotId)

theorem acknowledge_of_acknowledgeable {connection : ConnectionProjection} {snapshotId : Nat}
    (window : Acknowledgeable connection snapshotId) :
    (connection.acknowledge snapshotId).1 = .accepted ∨
      (connection.acknowledge snapshotId).1 = .duplicateIgnored := by
  obtain ⟨above_floor, known⟩ := window
  unfold ConnectionProjection.acknowledge
  rw [if_neg (not_le.mpr above_floor)]
  by_cases covered : snapshotId ≤ connection.ackedBaseline
  · rw [if_pos covered]
    exact Or.inr rfl
  · rw [if_neg covered]
    obtain ⟨record, member, same⟩ := known.resolve_left covered
    have found : (connection.unackedRecords.any fun record =>
        decide (record.snapshotId = snapshotId)) = true :=
      List.any_eq_true.mpr ⟨record, member, decide_eq_true same⟩
    rw [if_pos found]
    exact Or.inl rfl

/-- Acknowledging keeps every acknowledgeable id so. -/
theorem Acknowledgeable.acknowledge {connection : ConnectionProjection} {snapshotId : Nat}
    (window : Acknowledgeable connection snapshotId) (other : Nat) :
    Acknowledgeable (connection.acknowledge other).2 snapshotId := by
  by_cases accepted : (connection.acknowledge other).1 = .accepted
  · obtain ⟨-, advances, -, _, _, result, -⟩ := acknowledge_accepted accepted
    rw [result]
    refine ⟨window.1, ?_⟩
    rcases le_or_gt snapshotId other with reached | beyond
    · exact Or.inl reached
    · right
      rcases window.2 with covered | ⟨record, member, same⟩
      · exact absurd (covered.trans_lt advances) (not_lt.mpr beyond.le)
      · refine ⟨record, ?_, same⟩
        have dropped_reached : ∀ record ∈ connection.unackedRecords.takeWhile
            (fun record => decide (record.snapshotId ≤ other)), record.snapshotId ≤ other :=
          fun record dropped => of_decide_eq_true (List.mem_takeWhile_imp
            (p := fun record : SentFrameRecord => decide (record.snapshotId ≤ other)) dropped)
        rw [← List.takeWhile_append_dropWhile
          (p := fun record : SentFrameRecord => decide (record.snapshotId ≤ other))
          (l := connection.unackedRecords), List.mem_append] at member
        refine member.resolve_left fun dropped => ?_
        have reached := dropped_reached record dropped
        omega
  · rw [acknowledge_rejected accepted]
    exact window

/-- A record that fits is kept together with all the others. -/
theorem commitFrame_fits {engine : ProjectionEngine} {connection : ConnectionProjection}
    {ops : List SentOp}
    (frames : connection.unackedRecords.length + 1 ≤ engine.config.maxUnackedFrames)
    (bytes : connection.unackedBytes + ops.length * sentOpBytes ≤ engine.config.maxUnackedBytes) :
    engine.commitFrame connection ops =
      (connection.recordSent engine.latestSnapshotId ops).advanceStreamSequence := by
  have kept : ((connection.recordSent engine.latestSnapshotId
      ops).advanceStreamSequence.evictUnacked engine.config.maxUnackedFrames
        engine.config.maxUnackedBytes) =
      (false, (connection.recordSent engine.latestSnapshotId ops).advanceStreamSequence) := by
    have within : ∀ records : List SentFrameRecord, ∀ current : ConnectionProjection,
        records.length ≤ engine.config.maxUnackedFrames →
        current.unackedBytes ≤ engine.config.maxUnackedBytes →
        evictLoop engine.config.maxUnackedFrames engine.config.maxUnackedBytes records current =
          (false, current) := by
      intro records current few small
      cases records with
      | nil => rfl
      | cons record rest =>
        rw [List.length_cons] at few
        rw [evictLoop, if_neg]
        omega
    refine within _ _ ?_ bytes
    simpa [recordSent, advanceStreamSequence] using frames
  unfold ProjectionEngine.commitFrame
  simp only [kept, Bool.false_eq_true, if_false]

/-- The window of one slot: taken ids and the id of a waiting frame of this epoch. -/
structure WindowInv (latest : Nat) (slot : Slot) (taken : List Nat) : Prop where
  floor_le : slot.connection.epochSnapshotFloor ≤ latest
  taken_in : ∀ snapshotId ∈ taken, Acknowledgeable slot.connection snapshotId
  waiting_epoch : ∀ frame, slot.pendingFrame = some (some frame) →
    frame.header.streamEpoch ≤ slot.connection.streamEpoch
  waiting_in : ∀ frame, slot.pendingFrame = some (some frame) →
    frame.header.streamEpoch = slot.connection.streamEpoch →
      Acknowledgeable slot.connection frame.header.snapshotId

/-- A build that fits keeps the window and adds its own frame to it. -/
theorem buildSlot_window {engine : ProjectionEngine} {world : World} {tick : UInt64}
    {slot : Slot} {taken : List Nat} {latest : Nat} (ready : BuildReady engine slot)
    (next : engine.latestSnapshotId = latest + 1) (fits : BuildFits engine world tick slot)
    (inv : WindowInv latest slot taken) :
    WindowInv engine.latestSnapshotId (engine.buildSlot world tick slot) taken ∧
      (engine.buildSlot world tick slot).connection.streamEpoch =
        slot.connection.streamEpoch := by
  have stream : BuiltStream engine (engine.planFrame world tick slot).connection
      (engine.recordedOps world tick slot) (engine.buildFrame world tick slot).1
      (engine.buildFrame world tick slot).2.connection := buildFrame_stream ready
  have planned : (engine.planFrame world tick slot).connection = slot.connection := by
    unfold planFrame
    exact if_neg fits.1
  have room := fits.2
  rw [planned] at stream
  generalize engine.recordedOps world tick slot = recorded at room stream
  have floor := inv.floor_le
  unfold buildSlot
  simp only
  generalize (engine.buildFrame world tick slot).2 = after at stream
  generalize (engine.buildFrame world tick slot).1 = built at stream
  cases stream with
  | silent same_epoch same_floor same_baseline same_records =>
    refine ⟨⟨by rw [same_floor]; omega, fun snapshotId member => ?_, by simp, by simp⟩,
      same_epoch⟩
    have before := inv.taken_in snapshotId member
    unfold Acknowledgeable at before ⊢
    rw [same_floor, same_baseline, same_records]
    exact before
  | @sent connection base frame ops same_epoch same_floor same_baseline same_records same_bytes
      frame_epoch record committed =>
    obtain ⟨frames, bytes⟩ := room ops rfl
    rw [← same_records] at frames
    rw [← same_bytes] at bytes
    rw [commitFrame_fits frames bytes] at committed
    have epoch_eq : after.connection.streamEpoch = slot.connection.streamEpoch := by
      rw [committed]
      exact same_epoch
    have window : ∀ snapshotId, Acknowledgeable after.connection snapshotId ↔
        slot.connection.epochSnapshotFloor < snapshotId ∧
          (snapshotId ≤ slot.connection.ackedBaseline ∨
            ∃ record ∈ slot.connection.unackedRecords ++
              [⟨engine.latestSnapshotId, ops, ops.length * sentOpBytes⟩],
              record.snapshotId = snapshotId) := by
      intro snapshotId
      rw [committed, ← same_floor, ← same_baseline, ← same_records]
      rfl
    refine ⟨⟨?_, ?_, ?_, ?_⟩, epoch_eq⟩
    · rw [committed]
      exact (same_floor.trans_le floor).trans (by omega)
    · intro snapshotId member
      obtain ⟨above, known⟩ := inv.taken_in snapshotId member
      refine (window snapshotId).mpr ⟨above, known.imp_right ?_⟩
      rintro ⟨record, kept, same⟩
      exact ⟨record, List.mem_append_left _ kept, same⟩
    · intro other waiting
      obtain rfl := Option.some.inj (Option.some.inj waiting)
      rw [epoch_eq, frame_epoch]
    · intro other waiting _
      obtain rfl := Option.some.inj (Option.some.inj waiting)
      refine (window _).mpr ⟨?_, Or.inr ⟨_, List.mem_append_right _ (by simp), record.1.symm⟩⟩
      have latest_id : frame.header.snapshotId = engine.latestSnapshotId := record.1
      omega

theorem takenBy_nextFrame {id : ConnectionId} {engine : ProjectionEngine} {slot : Slot}
    (found : engine.connections[id]? = some slot) :
    TakenLog.takenBy id engine (.nextFrame id) =
      (slot.pendingFrame.join.map fun frame => frame.header.snapshotId).toList := by
  simp only [TakenLog.takenBy, if_true, ProjectionEngine.nextFrame, found]

/-- Only taking a frame for `id` adds an id. -/
theorem takenBy_other {id : ConnectionId} {engine : ProjectionEngine} {event : EngineEvent}
    (other : event ≠ .nextFrame id) : TakenLog.takenBy id engine event = [] := by
  cases event with
  | nextFrame target =>
    have different : target ≠ id := fun same => other (by rw [same])
    simp only [TakenLog.takenBy, different, if_false]
  | _ => rfl

namespace WindowInv

variable {latest : Nat} {slot : Slot} {taken : List Nat}

/-- A change that keeps epoch, waiting frame and floor and every acknowledgeable id. -/
theorem change (inv : WindowInv latest slot taken) {after : ConnectionProjection}
    (same_epoch : after.streamEpoch = slot.connection.streamEpoch)
    (same_floor : after.epochSnapshotFloor = slot.connection.epochSnapshotFloor)
    (keeps : ∀ snapshotId, Acknowledgeable slot.connection snapshotId →
      Acknowledgeable after snapshotId) :
    WindowInv latest { slot with connection := after } taken := by
  refine ⟨same_floor.trans_le inv.floor_le,
    fun snapshotId member => keeps snapshotId (inv.taken_in snapshotId member), ?_, ?_⟩
  · intro frame waiting
    rw [same_epoch]
    exact inv.waiting_epoch frame waiting
  · intro frame waiting current
    rw [same_epoch] at current
    exact keeps _ (inv.waiting_in frame waiting current)

theorem take (inv : WindowInv latest slot taken)
    (current : ∀ frame, slot.pendingFrame = some (some frame) →
      frame.header.streamEpoch = slot.connection.streamEpoch) :
    WindowInv latest { slot with pendingFrame := none }
      (taken ++ (slot.pendingFrame.join.map fun frame => frame.header.snapshotId).toList) := by
  refine ⟨inv.floor_le, fun snapshotId member => ?_, by simp, by simp⟩
  rcases List.mem_append.mp member with earlier | last
  · exact inv.taken_in snapshotId earlier
  · obtain ⟨frame, waiting, rfl⟩ :=
      Option.map_eq_some_iff.mp (Option.mem_toList.mp last)
    have waiting := Option.join_eq_some_iff.mp waiting
    exact inv.waiting_in frame waiting (current frame waiting)

theorem reset (inv : WindowInv latest slot taken) (reason : EpochResetReason) :
    WindowInv latest { slot with connection := slot.connection.resetEpoch reason latest } [] := by
  refine ⟨le_rfl, by simp, ?_, ?_⟩
  · intro frame waiting
    exact (inv.waiting_epoch frame waiting).trans (Nat.le_succ _)
  · intro frame waiting current
    have earlier := inv.waiting_epoch frame waiting
    simp only [resetEpoch] at current
    omega

end WindowInv

/-- An operation other than `on_projection` keeps the window, or starts an empty one. -/
theorem slotEffect_window {latest : Nat} {id : ConnectionId} {log : TakenLog} {slot : Slot}
    {event : EngineEvent} (found : log.engine.connections[id]? = some slot)
    (keeps : KeepsWindow id log event) (inv : WindowInv latest slot log.taken) :
    WindowInv latest (slotEffect latest id slot event)
      (if (slotEffect latest id slot event).connection.streamEpoch = slot.connection.streamEpoch
        then log.taken ++ TakenLog.takenBy id log.engine event else []) := by
  cases event with
  | nextFrame other =>
    by_cases same : other = id
    · subst same
      rw [takenBy_nextFrame found]
      simp only [slotEffect, if_true]
      exact inv.take fun frame waiting => keeps rfl slot frame found waiting
    · rw [takenBy_other (by simpa using same), List.append_nil]
      simpa only [slotEffect, same, if_false, if_true] using inv
  | resetStreamEpoch other =>
    by_cases same : other = id
    · have advanced : (slot.connection.resetEpoch .reconnect latest).streamEpoch ≠
          slot.connection.streamEpoch := (Nat.lt_succ_self _).ne'
      simp only [slotEffect, same, if_true, advanced, if_false]
      exact inv.reset .reconnect
    · rw [takenBy_other (by simp), List.append_nil]
      simpa only [slotEffect, same, if_false, if_true] using inv
  | acknowledge other snapshotId =>
    rw [takenBy_other (by simp), List.append_nil]
    by_cases same : other = id
    · have frame : (slot.connection.acknowledge snapshotId).2.streamEpoch =
            slot.connection.streamEpoch ∧
          (slot.connection.acknowledge snapshotId).2.epochSnapshotFloor =
            slot.connection.epochSnapshotFloor := by
        by_cases accepted : (slot.connection.acknowledge snapshotId).1 = .accepted
        · obtain ⟨-, -, -, _, _, result, -⟩ := acknowledge_accepted accepted
          rw [result]
          exact ⟨rfl, rfl⟩
        · rw [acknowledge_rejected accepted]
          exact ⟨rfl, rfl⟩
      simp only [slotEffect, same, if_true, frame.1]
      exact inv.change frame.1 frame.2 fun _ window => window.acknowledge snapshotId
    · simpa only [slotEffect, same, if_false, if_true] using inv
  | updateSubscription other subscription =>
    rw [takenBy_other (by simp), List.append_nil]
    by_cases same : other = id
    · have kept : WindowInv latest
          { slot with connection := slot.connection.setSubscription subscription } log.taken :=
        inv.change rfl rfl fun _ window => window
      simpa only [slotEffect, same, if_true, setSubscription] using kept
    · simpa only [slotEffect, same, if_false, if_true] using inv
  | scheduleKeyframe other =>
    rw [takenBy_other (by simp), List.append_nil]
    by_cases same : other = id
    · simp only [slotEffect, same, if_true]
      exact inv.change rfl rfl fun _ window => window
    · simpa only [slotEffect, same, if_false, if_true] using inv
  | _ =>
    rw [takenBy_other (by simp), List.append_nil]
    simpa only [slotEffect, if_true] using inv

def WindowInvAt (id : ConnectionId) (log : TakenLog) : Prop :=
  match log.engine.connections[id]? with
  | none => log.taken = []
  | some slot => WindowInv log.engine.latestSnapshotId slot log.taken

theorem windowInvAt_step {id : ConnectionId} {before after : TakenLog} {event : EngineEvent}
    (inv : EngineInv before.engine) (keeps : KeepsWindow id before event)
    (window : WindowInvAt id before) (step : before.step id event = some after) :
    WindowInvAt id after := by
  obtain ⟨engine, stepped, rfl⟩ := Option.map_eq_some_iff.mp step
  unfold WindowInvAt at window
  cases found : engine.connections[id]? with
  | none =>
    simp only [WindowInvAt, TakenLog.epochOf, found]
    cases found_before : before.engine.connections[id]? with
    | none =>
      rw [found_before] at window
      have untaken : TakenLog.takenBy id before.engine event = [] := by
        cases event with
        | nextFrame other =>
          by_cases same : other = id
          · simp [TakenLog.takenBy, same, ProjectionEngine.nextFrame, found_before]
          · simp [TakenLog.takenBy, same]
        | _ => rfl
      simp only [Option.map_none, if_true, untaken, List.append_nil]
      exact window
    | some old => simp
  | some slot =>
    simp only [WindowInvAt, TakenLog.epochOf, found, Option.map_some]
    cases slotStep_of_step stepped found with
    | @built world tick refreshed old refresh found_old =>
      have ready := inv.buildReady refresh found_old
      obtain ⟨-, steps⟩ := refreshGlobalView_step inv.global_inv refresh
      have next : refreshed.latestSnapshotId = before.engine.latestSnapshotId + 1 :=
        steps.snapshot_eq
      have latest : engine.latestSnapshotId = refreshed.latestSnapshotId :=
        (latestSnapshotId_of_projection inv stepped).trans next.symm
      have found_before : before.engine.connections[id]? = some old := by
        rw [steps.connections_eq] at found_old
        exact found_old
      rw [found_before] at window
      obtain ⟨built, same_epoch⟩ :=
        buildSlot_window ready next (keeps refreshed old refresh found_old) window
      simp only [found_before, Option.map_some, same_epoch, if_true,
        takenBy_other (by simp : EngineEvent.onProjection world tick ≠ .nextFrame id),
        List.append_nil, latest]
      exact built
    | @changed _ old other found_old =>
      have latest := latestSnapshotId_of_step stepped other
      rw [found_old] at window
      have kept := slotEffect_window found_old keeps window
      simpa only [found_old, Option.map_some, Option.some.injEq, latest] using kept
    | created absent =>
      rw [absent] at window
      have none_taken : before.taken = [] := window
      simp only [absent, Option.map_none, reduceCtorEq, if_false]
      refine ⟨by simp [freshSlot, setSubscription], by simp, by simp [freshSlot],
        by simp [freshSlot]⟩

structure TakenLogInv (id : ConnectionId) (log : TakenLog) : Prop where
  engine_inv : EngineInv log.engine
  window : WindowInvAt id log

theorem takenAcknowledgeable_of_window {id : ConnectionId} {log : TakenLog}
    (window : WindowInvAt id log) : TakenAcknowledgeable id log := by
  intro snapshotId member
  unfold WindowInvAt at window
  unfold ProjectionEngine.acknowledge
  cases found : log.engine.connections[id]? with
  | none =>
    rw [found] at window
    rw [window] at member
    cases member
  | some slot =>
    rw [found] at window
    exact acknowledge_of_acknowledgeable (window.taken_in snapshotId member)

theorem takenLogInv_of_run (config : ProjectionConfig) (policy : ProjectionPolicy)
    (id : ConnectionId) {events : List EngineEvent} {log : TakenLog}
    (run : GuardedRun (TakenLog.Step id) (KeepsWindow id)
      { engine := { config := config, policy := policy } } events log) : TakenLogInv id log := by
  have start : TakenLogInv id { engine := { config := config, policy := policy } } := by
    refine ⟨EngineInv.initial config policy, ?_⟩
    simp [WindowInvAt]
  refine run.invariant start ?_
  rintro before event after keeps step ⟨inv, window⟩
  refine ⟨?_, windowInvAt_step inv keeps window step⟩
  obtain ⟨engine, stepped, rfl⟩ := Option.map_eq_some_iff.mp step
  exact inv.step stepped

end GeoWorld.Projection
