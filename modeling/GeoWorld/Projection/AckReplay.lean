import Mathlib
import GeoWorld.Library.ReplaySpan
import GeoWorld.Library.SortedSelection
import GeoWorld.Projection.SentFrames

/-!
Acknowledged-view reconstruction. The server rebuilds the view a client had
after frame `s` by replaying the records it still keeps; the client started
over at every keyframe. In every reachable state the two agree on an accepted
acknowledgement exactly when the replay is covered: since the last kept
keyframe, the kept records operate on every id where their bases differ.
-/

namespace GeoWorld.Projection

open WorldModel Library ConnectionProjection ProjectionEngine

/-- One engine and the frames built for one connection in its current epoch. -/
structure SentLog where
  engine : ProjectionEngine
  frames : List StateFrame := []

namespace SentLog

/-- The frame an operation builds for `id`. -/
def builtFrame (id : ConnectionId) (after : ProjectionEngine) : EngineEvent → List StateFrame
  | .onProjection _ _ =>
    ((after.connections[id]?).bind fun slot => slot.pendingFrame.join).toList
  | _ => []

def ofCurrentEpoch (id : ConnectionId) (engine : ProjectionEngine) (frames : List StateFrame) :
    List StateFrame :=
  match engine.connections[id]? with
  | none => []
  | some slot => frames.filter (·.header.streamEpoch = slot.connection.streamEpoch)

def step (id : ConnectionId) (log : SentLog) (event : EngineEvent) : Option SentLog :=
  (log.engine.step event).map fun engine =>
    ⟨engine, ofCurrentEpoch id engine (log.frames ++ builtFrame id engine event)⟩

abbrev Step (id : ConnectionId) (before : SentLog) (event : EngineEvent) (after : SentLog) :
    Prop :=
  before.step id event = some after

end SentLog

/-- The client after exactly these frames. -/
def clientOf (frames : List StateFrame) : ReplicaAccumulator :=
  frames.foldl ReplicaAccumulator.apply ∅

/-- The records an acknowledgement of `snapshotId` replays. -/
def keptThrough (connection : ConnectionProjection) (snapshotId : Nat) : List SentFrameRecord :=
  connection.unackedRecords.takeWhile fun record => record.snapshotId ≤ snapshotId

def isKeyframeRecord (frames : List StateFrame) (record : SentFrameRecord) : Bool :=
  frames.any fun frame => frame.isKeyframe && decide (frame.header.snapshotId = record.snapshotId)

/-- The frames older than every kept record: acknowledged or evicted. -/
def framesBefore (frames : List StateFrame) (records : List SentFrameRecord) :
    List StateFrame :=
  frames.filter fun frame => records.all fun record =>
    frame.header.snapshotId < record.snapshotId

/-- Client and server from the first kept record through `snapshotId`, seen since the
last keyframe among the kept records. -/
def replaySpan (frames : List StateFrame) (connection : ConnectionProjection)
    (snapshotId : Nat) : ReplaySpan WorldId (FeatureId × UInt64) :=
  ReplaySpan.pushAll (isKeyframeRecord frames) (fun record => record.ops.map SentOp.edit)
    { receiverBase := (clientOf (framesBefore frames connection.unackedRecords)).view
      senderBase := viewOf connection.ackedView
      since := [] }
    (keptThrough connection snapshotId)

/-- The acknowledged view that `acknowledge` leaves is the view of a client that applied
exactly the frames of the epoch up to `snapshotId`. -/
def Reconstructs (id : ConnectionId) (log : SentLog) (snapshotId : Nat) : Prop :=
  ∃ slot, (log.engine.acknowledge id snapshotId).2.connections[id]? = some slot ∧
    viewOf slot.connection.ackedView =
      (clientOf (log.frames.filter (·.header.snapshotId ≤ snapshotId))).view

/-- The kept records through `snapshotId` cover the difference between client and server. -/
def ReplayCovered (id : ConnectionId) (log : SentLog) (snapshotId : Nat) : Prop :=
  ∃ slot, log.engine.connections[id]? = some slot ∧
    (replaySpan log.frames slot.connection snapshotId).Covered

/-- Frames and records of one connection. -/
structure StreamInv (latest : Nat) (connection : ConnectionProjection)
    (frames : List StateFrame) : Prop where
  epoch : ∀ frame ∈ frames, frame.header.streamEpoch = connection.streamEpoch
  ascending : frames.Pairwise fun first second =>
    first.header.snapshotId < second.header.snapshotId
  bound : ∀ frame ∈ frames, frame.header.snapshotId ≤ latest
  newest : ∃ older kept, frames = older ++ kept ∧
    List.Forall₂ RecordOf kept connection.unackedRecords

section Reconstruction

variable {latest : Nat} {connection : ConnectionProjection} {frames : List StateFrame}

theorem clientOf_append (first second : List StateFrame) :
    clientOf (first ++ second) = second.foldl ReplicaAccumulator.apply (clientOf first) := by
  simp only [clientOf, List.foldl_append]

/-- A client that applies frames goes through the scripts of their records. -/
theorem client_records {kept : List StateFrame} {records : List SentFrameRecord}
    (recorded : List.Forall₂ RecordOf kept records) {isKeyframe : SentFrameRecord → Bool}
    (marked : List.Forall₂ (fun frame record => isKeyframe record = frame.isKeyframe) kept records)
    (replica : ReplicaAccumulator) :
    (kept.foldl ReplicaAccumulator.apply replica).view = records.foldl
      (fun view record => applyScript (if isKeyframe record then fun _ => none else view)
        (record.ops.map SentOp.edit)) replica.view := by
  induction recorded generalizing replica with
  | nil => rfl
  | cons head _ ih =>
    obtain ⟨kind, rest⟩ := List.forall₂_cons.mp marked
    rw [List.foldl_cons, List.foldl_cons, ih rest, head.2 replica, kind]

theorem exists_frame_of_record {kept : List StateFrame} {records : List SentFrameRecord}
    (recorded : List.Forall₂ RecordOf kept records) {record : SentFrameRecord}
    (member : record ∈ records) : ∃ frame ∈ kept, RecordOf frame record := by
  induction recorded with
  | nil => cases member
  | cons head _ ih =>
    rcases List.mem_cons.mp member with rfl | later
    · exact ⟨_, List.mem_cons_self, head⟩
    · obtain ⟨frame, in_rest, same⟩ := ih later
      exact ⟨frame, List.mem_cons_of_mem _ in_rest, same⟩

theorem exists_record_of_frame {kept : List StateFrame} {records : List SentFrameRecord}
    (recorded : List.Forall₂ RecordOf kept records) {frame : StateFrame}
    (member : frame ∈ kept) : ∃ record ∈ records, RecordOf frame record := by
  induction recorded with
  | nil => cases member
  | cons head _ ih =>
    rcases List.mem_cons.mp member with rfl | later
    · exact ⟨_, List.mem_cons_self, head⟩
    · obtain ⟨record, in_rest, same⟩ := ih later
      exact ⟨record, List.mem_cons_of_mem _ in_rest, same⟩

theorem isKeyframeRecord_eq (ascending : frames.Pairwise fun first second =>
      first.header.snapshotId < second.header.snapshotId)
    {frame : StateFrame} (member : frame ∈ frames) {record : SentFrameRecord}
    (recorded : RecordOf frame record) :
    isKeyframeRecord frames record = frame.isKeyframe := by
  have distinct : (frames.map fun frame => frame.header.snapshotId).Nodup :=
    List.pairwise_map.mpr (ascending.imp fun before => before.ne)
  cases kind : frame.isKeyframe with
  | true =>
    refine List.any_eq_true.mpr ⟨frame, member, ?_⟩
    rw [kind, recorded.1, decide_eq_true rfl, Bool.true_and]
  | false =>
    refine List.any_eq_false.mpr fun other in_frames marked => ?_
    obtain ⟨keyframe, same⟩ := Bool.and_eq_true_iff.mp marked
    have equal : other = frame := List.inj_on_of_nodup_map distinct in_frames member
      ((of_decide_eq_true same).trans recorded.1.symm)
    rw [equal, kind] at keyframe
    cases keyframe

theorem marked_records (ascending : frames.Pairwise fun first second =>
      first.header.snapshotId < second.header.snapshotId)
    {kept : List StateFrame} {records : List SentFrameRecord}
    (recorded : List.Forall₂ RecordOf kept records) (known : kept ⊆ frames) :
    List.Forall₂ (fun frame record => isKeyframeRecord frames record = frame.isKeyframe)
      kept records := by
  induction recorded with
  | nil => exact .nil
  | cons head _ ih =>
    obtain ⟨in_frames, rest⟩ := List.cons_subset.mp known
    exact .cons (isKeyframeRecord_eq ascending in_frames head) (ih rest)

/-- With the records those of the newest frames, the older frames are those below every
record. -/
theorem framesBefore_eq {older kept : List StateFrame} {records : List SentFrameRecord}
    (ascending : (older ++ kept).Pairwise fun first second =>
      first.header.snapshotId < second.header.snapshotId)
    (recorded : List.Forall₂ RecordOf kept records) :
    framesBefore (older ++ kept) records = older := by
  have below : ∀ frame ∈ older, (records.all fun record =>
      decide (frame.header.snapshotId < record.snapshotId)) = true := by
    intro frame in_older
    refine List.all_eq_true.mpr fun record member => ?_
    obtain ⟨other, in_kept, same⟩ := exists_frame_of_record recorded member
    have before := (List.pairwise_append.mp ascending).2.2 frame in_older other in_kept
    rw [← same.1]
    exact decide_eq_true before
  have above : ∀ frame ∈ kept, ¬ (records.all fun record =>
      decide (frame.header.snapshotId < record.snapshotId)) = true := by
    intro frame in_kept all
    obtain ⟨record, member, same⟩ := exists_record_of_frame recorded in_kept
    have strict := of_decide_eq_true (List.all_eq_true.mp all record member)
    exact absurd same.1 strict.ne
  rw [framesBefore, List.filter_append, List.filter_eq_self.mpr below,
    List.filter_eq_nil_iff.mpr above, List.append_nil]

theorem reconstructs_iff (inv : StreamInv latest connection frames)
    (core : ConnectionCore latest connection) {snapshotId : Nat}
    (accepted : (connection.acknowledge snapshotId).1 = .accepted) :
    viewOf (connection.acknowledge snapshotId).2.ackedView =
        (clientOf (frames.filter (·.header.snapshotId ≤ snapshotId))).view ↔
      (replaySpan frames connection snapshotId).Covered := by
  obtain ⟨older, kept, split, recorded⟩ := inv.newest
  obtain ⟨-, -, ⟨last, last_kept, last_id⟩, _, _, result, -⟩ := acknowledge_accepted accepted
  have server : viewOf (connection.acknowledge snapshotId).2.ackedView =
      (replaySpan frames connection snapshotId).sender := by
    rw [result, replaySpan, ReplaySpan.pushAll_sender]
    simp only [replay_view, replayedOps, List.map_flatMap]
    rfl
  have client : (clientOf (frames.filter (·.header.snapshotId ≤ snapshotId))).view =
      (replaySpan frames connection snapshotId).receiver := by
    obtain ⟨frame, in_kept, same⟩ := exists_frame_of_record recorded last_kept
    have ascending := inv.ascending
    rw [split] at ascending
    have older_reached : ∀ older_frame ∈ older,
        decide (older_frame.header.snapshotId ≤ snapshotId) = true := by
      intro older_frame in_older
      have before := (List.pairwise_append.mp ascending).2.2 older_frame in_older frame in_kept
      rw [same.1, last_id] at before
      exact decide_eq_true before.le
    have reached : frames.filter (fun frame => decide (frame.header.snapshotId ≤ snapshotId)) =
        older ++ kept.filter fun frame => decide (frame.header.snapshotId ≤ snapshotId) := by
      rw [split, List.filter_append, List.filter_eq_self.mpr older_reached]
    have kept_through : List.Forall₂ RecordOf
        (kept.filter fun frame => decide (frame.header.snapshotId ≤ snapshotId))
        (keptThrough connection snapshotId) := by
      rw [keptThrough, takeWhile_eq_filter_of_ascending core.records_ascending]
      refine List.rel_filter ?_ recorded
      intro frame record recorded
      simp only [recorded.1]
    have known : (kept.filter fun frame => decide (frame.header.snapshotId ≤ snapshotId)) ⊆
        frames := by
      intro frame member
      rw [split]
      exact List.mem_append_right _ (List.mem_of_mem_filter member)
    have marked := marked_records inv.ascending kept_through known
    rw [reached, clientOf_append, client_records kept_through marked, replaySpan,
      ReplaySpan.pushAll_receiver]
    have base : framesBefore frames connection.unackedRecords = older := by
      rw [split]
      exact framesBefore_eq ascending recorded
    simp only [ReplaySpan.receiver, applyScript_nil, base]
  rw [server, client, ← ReplaySpan.receiver_eq_sender_iff]
  exact eq_comm

end Reconstruction

namespace StreamInv

variable {latest : Nat} {connection : ConnectionProjection} {frames : List StateFrame}

theorem filter_epoch (inv : StreamInv latest connection frames) {epoch : Nat}
    (same : epoch = connection.streamEpoch) :
    frames.filter (fun frame => decide (frame.header.streamEpoch = epoch)) = frames := by
  refine List.filter_eq_self.mpr fun frame member => ?_
  rw [inv.epoch frame member, same]
  exact decide_eq_true rfl

/-- The epoch goes on; records may be lost from the front. -/
theorem continue_epoch (inv : StreamInv latest connection frames) {later : Nat}
    (le : latest ≤ later) {after : ConnectionProjection}
    (same_epoch : after.streamEpoch = connection.streamEpoch)
    (suffix : after.unackedRecords <:+ connection.unackedRecords) :
    StreamInv later after frames := by
  refine ⟨?_, inv.ascending, fun frame member => (inv.bound frame member).trans le, ?_⟩
  · intro frame member
    rw [same_epoch]
    exact inv.epoch frame member
  · obtain ⟨older, kept, split, recorded⟩ := inv.newest
    obtain ⟨dropped, whole⟩ := suffix
    refine ⟨older ++ kept.take dropped.length, kept.drop dropped.length, ?_, ?_⟩
    · rw [split, List.append_assoc, List.take_append_drop]
    · have rest := List.forall₂_drop dropped.length recorded
      rwa [← whole, List.drop_left] at rest

theorem new_epoch (inv : StreamInv latest connection frames) {later : Nat}
    {after : ConnectionProjection} (new_epoch : after.streamEpoch = connection.streamEpoch + 1)
    (no_records : after.unackedRecords = []) :
    StreamInv later after
      (frames.filter fun frame => decide (frame.header.streamEpoch = after.streamEpoch)) := by
  have none_left : frames.filter (fun frame =>
      decide (frame.header.streamEpoch = after.streamEpoch)) = [] := by
    refine List.filter_eq_nil_iff.mpr fun frame member => ?_
    rw [inv.epoch frame member, new_epoch, decide_eq_true_eq]
    exact (Nat.lt_succ_self _).ne
  rw [none_left]
  refine ⟨by simp, List.Pairwise.nil, by simp, [], [], rfl, ?_⟩
  rw [no_records]
  exact .nil

/-- Sending a frame with its record. -/
theorem send (inv : StreamInv latest connection frames) {later : Nat} (next : later = latest + 1)
    {frame : StateFrame} {record : SentFrameRecord} (recorded : RecordOf frame record)
    (record_id : record.snapshotId = later)
    (frame_epoch : frame.header.streamEpoch = connection.streamEpoch) :
    StreamInv later { connection with unackedRecords := connection.unackedRecords ++ [record] }
      (frames ++ [frame]) := by
  have frame_id : frame.header.snapshotId = later := recorded.1.trans record_id
  refine ⟨?_, ?_, ?_, ?_⟩
  · intro other member
    rcases List.mem_append.mp member with earlier | last
    · exact inv.epoch other earlier
    · obtain rfl := List.mem_singleton.mp last
      exact frame_epoch
  · refine List.pairwise_append.mpr ⟨inv.ascending, List.pairwise_singleton _ _, ?_⟩
    intro first member second last
    obtain rfl := List.mem_singleton.mp last
    have bound := inv.bound first member
    omega
  · intro other member
    rcases List.mem_append.mp member with earlier | last
    · have bound := inv.bound other earlier
      omega
    · obtain rfl := List.mem_singleton.mp last
      exact frame_id.le
  · obtain ⟨older, kept, split, all_recorded⟩ := inv.newest
    refine ⟨older, kept ++ [frame], by rw [split, List.append_assoc], ?_⟩
    exact List.rel_append all_recorded (.cons recorded .nil)

end StreamInv

/-- The stream of one connection inside the engine. -/
def StreamInvAt (id : ConnectionId) (log : SentLog) : Prop :=
  match log.engine.connections[id]? with
  | none => log.frames = []
  | some slot => StreamInv log.engine.latestSnapshotId slot.connection log.frames

/-- Planning a build continues the stream or, out of feature ids, resets it. -/
theorem planFrame_streamInv (engine : ProjectionEngine) (world : World) (tick : UInt64)
    {slot : Slot} {latest : Nat} {frames : List StateFrame}
    (inv : StreamInv latest slot.connection frames) :
    StreamInv latest (engine.planFrame world tick slot).connection
      (frames.filter fun frame => decide (frame.header.streamEpoch =
        (engine.planFrame world tick slot).connection.streamEpoch)) := by
  unfold planFrame
  simp only
  split
  · exact inv.new_epoch rfl rfl
  · rw [inv.filter_epoch rfl]
    exact inv

theorem buildFrame_streamInv {engine : ProjectionEngine} {world : World} {tick : UInt64}
    {slot : Slot} {latest : Nat} {frames : List StateFrame} (ready : BuildReady engine slot)
    (next : engine.latestSnapshotId = latest + 1)
    (inv : StreamInv latest slot.connection frames) :
    StreamInv engine.latestSnapshotId (engine.buildFrame world tick slot).2.connection
      ((frames ++ (engine.buildFrame world tick slot).1.toList).filter fun frame =>
        decide (frame.header.streamEpoch =
          (engine.buildFrame world tick slot).2.connection.streamEpoch)) := by
  have planned := planFrame_streamInv engine world tick inv
  have stream : BuiltStream engine (engine.planFrame world tick slot).connection
      (engine.recordedOps world tick slot) (engine.buildFrame world tick slot).1
      (engine.buildFrame world tick slot).2.connection := buildFrame_stream ready
  generalize (engine.planFrame world tick slot).connection = before at planned stream
  generalize (engine.buildFrame world tick slot).2.connection = after at stream
  generalize (engine.buildFrame world tick slot).1 = built at stream
  generalize engine.recordedOps world tick slot = recorded at stream
  cases stream with
  | silent same_epoch _ _ same_records =>
    rw [Option.toList_none, List.append_nil, same_epoch]
    exact planned.continue_epoch (next ▸ Nat.le_succ latest) same_epoch
      (by rw [same_records])
  | @sent after base frame ops same_epoch _ _ same_records _ frame_epoch record committed =>
    obtain ⟨kept, bytes, counts, needed, suffix, committed_eq⟩ :=
      commitFrame_frame engine base ops
    rw [← committed] at committed_eq
    have after_epoch : after.streamEpoch = before.streamEpoch := by
      rw [committed_eq]
      exact same_epoch
    have after_records : after.unackedRecords <:+ before.unackedRecords ++
        [⟨engine.latestSnapshotId, ops, ops.length * sentOpBytes⟩] := by
      rw [committed_eq, ← same_records]
      exact suffix
    have last : [frame].filter (fun frame =>
        decide (frame.header.streamEpoch = before.streamEpoch)) = [frame] := by
      simp [frame_epoch]
    rw [Option.toList_some, List.filter_append, after_epoch, last]
    exact (planned.send next record rfl frame_epoch).continue_epoch le_rfl after_epoch
      after_records

/-- An operation other than `on_projection` continues the stream or resets it. -/
theorem slotEffect_stream (latest : Nat) (id : ConnectionId) (slot : Slot)
    (event : EngineEvent) :
    (slotEffect latest id slot event).connection.streamEpoch = slot.connection.streamEpoch ∧
      (slotEffect latest id slot event).connection.unackedRecords <:+
        slot.connection.unackedRecords ∨
    (slotEffect latest id slot event).connection.streamEpoch =
        slot.connection.streamEpoch + 1 ∧
      (slotEffect latest id slot event).connection.unackedRecords = [] := by
  refine @slotEffect_keeps (fun connection =>
    connection.streamEpoch = slot.connection.streamEpoch ∧
      connection.unackedRecords <:+ slot.connection.unackedRecords ∨
    connection.streamEpoch = slot.connection.streamEpoch + 1 ∧ connection.unackedRecords = [])
    latest id slot event (fun _ => .inl ⟨rfl, List.suffix_rfl⟩) (.inr ⟨rfl, rfl⟩)
    (.inl ⟨rfl, List.suffix_rfl⟩) (fun snapshotId => .inl ?_) (.inl ⟨rfl, List.suffix_rfl⟩)
  by_cases accepted : (slot.connection.acknowledge snapshotId).1 = .accepted
  · obtain ⟨-, -, -, _, _, result, -⟩ := acknowledge_accepted accepted
    rw [result]
    exact ⟨rfl, List.dropWhile_suffix _⟩
  · rw [acknowledge_rejected accepted]
    exact ⟨rfl, List.suffix_rfl⟩

theorem builtFrame_other {id : ConnectionId} {after : ProjectionEngine} {event : EngineEvent}
    (other : ∀ world tick, event ≠ .onProjection world tick) :
    SentLog.builtFrame id after event = [] := by
  cases event with
  | onProjection world tick => exact absurd rfl (other world tick)
  | _ => rfl

theorem streamInvAt_step {id : ConnectionId} {before after : SentLog} {event : EngineEvent}
    (inv : EngineInv before.engine) (stream : StreamInvAt id before)
    (step : before.step id event = some after) : StreamInvAt id after := by
  obtain ⟨engine, stepped, rfl⟩ := Option.map_eq_some_iff.mp step
  unfold StreamInvAt at stream ⊢
  simp only [SentLog.ofCurrentEpoch]
  cases found : engine.connections[id]? with
  | none => rfl
  | some slot =>
    simp only
    cases slotStep_of_step stepped found with
    | @built world tick refreshed old refresh found_old =>
      have ready := inv.buildReady refresh found_old
      obtain ⟨-, steps⟩ := refreshGlobalView_step inv.global_inv refresh
      have next : refreshed.latestSnapshotId = before.engine.latestSnapshotId + 1 :=
        steps.snapshot_eq
      have latest : engine.latestSnapshotId = refreshed.latestSnapshotId :=
        (latestSnapshotId_of_projection inv stepped).trans next.symm
      have found_before : before.engine.connections[id]? = some old := by
        rw [steps.connections_eq] at found_old
        exact found_old
      rw [found_before] at stream
      have built : SentLog.builtFrame id engine (.onProjection world tick) =
          (refreshed.buildFrame world tick old).1.toList := by
        rw [SentLog.builtFrame, found]
        rfl
      rw [built, latest]
      exact buildFrame_streamInv ready next stream
    | @changed _ old other found_old =>
      have latest := latestSnapshotId_of_step stepped other
      rw [found_old] at stream
      rw [builtFrame_other other, List.append_nil, latest]
      rcases slotEffect_stream before.engine.latestSnapshotId id old event with
        ⟨same_epoch, suffix⟩ | ⟨new_epoch, no_records⟩
      · rw [stream.filter_epoch same_epoch]
        exact stream.continue_epoch le_rfl same_epoch suffix
      · exact stream.new_epoch new_epoch no_records
    | created absent =>
      rw [absent] at stream
      have no_frames : before.frames = [] := stream
      rw [no_frames, builtFrame_other (by simp)]
      exact ⟨by simp, List.Pairwise.nil, by simp, [], [], rfl, .nil⟩

structure SentLogInv (id : ConnectionId) (log : SentLog) : Prop where
  engine_inv : EngineInv log.engine
  stream : StreamInvAt id log

theorem sentLogInv_of_run (config : ProjectionConfig) (policy : ProjectionPolicy)
    (id : ConnectionId) {events : List EngineEvent} {log : SentLog}
    (run : AnyRun (SentLog.Step id) { engine := { config := config, policy := policy } }
      events log) : SentLogInv id log := by
  have start : SentLogInv id { engine := { config := config, policy := policy } } := by
    refine ⟨EngineInv.initial config policy, ?_⟩
    simp [StreamInvAt]
  refine run.invariant start ?_
  rintro before event after - step ⟨inv, stream⟩
  refine ⟨?_, streamInvAt_step inv stream step⟩
  obtain ⟨engine, stepped, rfl⟩ := Option.map_eq_some_iff.mp step
  exact inv.step stepped

/-- In every reachable state, an accepted acknowledgement leaves the view of the client
exactly when the records it replays are covered. -/
theorem acknowledge_reconstructs_iff (config : ProjectionConfig) (policy : ProjectionPolicy)
    (id : ConnectionId) {events : List EngineEvent} {log : SentLog}
    (run : AnyRun (SentLog.Step id) { engine := { config := config, policy := policy } }
      events log)
    {snapshotId : Nat} (accepted : (log.engine.acknowledge id snapshotId).1 = .accepted) :
    Reconstructs id log snapshotId ↔ ReplayCovered id log snapshotId := by
  obtain ⟨inv, stream⟩ := sentLogInv_of_run config policy id run
  unfold Reconstructs ReplayCovered
  unfold ProjectionEngine.acknowledge at accepted ⊢
  cases found : log.engine.connections[id]? with
  | none => simp [found] at accepted
  | some slot =>
    rw [StreamInvAt, found] at stream
    simp only [found] at accepted
    have core := (inv.slots id slot found).connection_inv.toConnectionCore
    have agree := reconstructs_iff stream core accepted
    simp only [lookup_insert_self, Option.some.injEq, exists_eq_left']
    exact agree

/-- An acknowledgement of frame 3 after object 2 was seen once and erased again: the
keyframe of frame 3 records no leave, since object 2 was never acknowledged. -/
def vanishedEvents : List EngineEvent :=
  [.addConnection 7 originArea, .onProjection {} 1, .nextFrame 7, .onProjection originWorld 2,
    .nextFrame 7, .scheduleKeyframe 7, .onProjection (originWorld.erase 2).2 3, .nextFrame 7]

def originLog : SentLog :=
  { engine := { config := originConfig } }

theorem acknowledge_reconstructs_first :
    ∃ log, runLabels (SentLog.step 7) originLog
        [.addConnection 7 originArea, .onProjection originWorld 1, .nextFrame 7] = some log ∧
      (Reconstructs 7 log 1 ↔ ReplayCovered 7 log 1) := by
  have computed : (runLabels (SentLog.step 7) originLog
      [.addConnection 7 originArea, .onProjection originWorld 1, .nextFrame 7]).map
        (fun log => (log.engine.acknowledge 7 1).1) = some .accepted := by
    decide +kernel
  obtain ⟨log, reached, accepted⟩ := Option.map_eq_some_iff.mp computed
  have run : AnyRun (SentLog.Step 7) originLog _ log :=
    GuardedRun.of_runLabels reached fun _ _ => trivial
  exact ⟨log, reached, acknowledge_reconstructs_iff originConfig {} 7 run accepted⟩

/-- After these events the server believes the client holds object 2. -/
theorem acknowledge_reconstructs_fails :
    ¬ ∀ (config : ProjectionConfig) (policy : ProjectionPolicy) (id : ConnectionId)
      (events : List EngineEvent) (log : SentLog) (snapshotId : Nat),
      AnyRun (SentLog.Step id) { engine := { config := config, policy := policy } } events log →
      (log.engine.acknowledge id snapshotId).1 = .accepted → Reconstructs id log snapshotId := by
  intro claim
  have computed : (runLabels (SentLog.step 7) originLog vanishedEvents).map (fun log =>
      ((log.engine.acknowledge 7 3).1,
        ((log.engine.acknowledge 7 3).2.connections[(7 : ConnectionId)]?).map (fun slot =>
          (viewOf slot.connection.ackedView 2).isSome),
        ((clientOf (log.frames.filter (·.header.snapshotId ≤ 3))).view 2).isSome)) =
      some (.accepted, some true, false) := by
    decide +kernel
  obtain ⟨log, reached, shape⟩ := Option.map_eq_some_iff.mp computed
  simp only [Prod.mk.injEq] at shape
  obtain ⟨accepted, server, client⟩ := shape
  have run : AnyRun (SentLog.Step 7) originLog _ log :=
    GuardedRun.of_runLabels reached fun _ _ => trivial
  obtain ⟨slot, found, same⟩ := claim originConfig {} 7 vanishedEvents log 3 run accepted
  rw [found, Option.map_some, same, client] at server
  cases server

end GeoWorld.Projection
