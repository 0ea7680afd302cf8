import Mathlib
import GeoWorld.Projection.SlotSteps

/-!
The frames a connection was sent in its current epoch, and the records kept of
them. Every record acts on the acknowledged view as its frame acts on the
client, except that a keyframe makes the client start over. The records are
those of the newest frames: older ones were acknowledged or evicted.
-/

namespace GeoWorld.Projection

open WorldModel Library ConnectionProjection ProjectionEngine

def StateFrame.isKeyframe : StateFrame → Bool
  | keyframe _ => true
  | delta _ => false

/-- A frame acts on every client as the operations of its record. -/
def RecordOf (frame : StateFrame) (record : SentFrameRecord) : Prop :=
  frame.header.snapshotId = record.snapshotId ∧
    ∀ replica : ReplicaAccumulator, (replica.apply frame).view =
      applyScript (if frame.isKeyframe then fun _ => none else replica.view)
        (record.ops.map SentOp.edit)

/-- The operations the next build of `slot` records, if it sends a frame. -/
def ProjectionEngine.recordedOps (engine : ProjectionEngine) (world : World) (tick : UInt64)
    (slot : Slot) : Option (List SentOp) :=
  let plan := engine.planFrame world tick slot
  if plan.forced || plan.periodic then
    some (engine.keyframeOps plan.connection plan.visible tick)
  else
    let scan := engine.scanDelta world tick slot.throttlePending plan
    if scan.enters.isEmpty && scan.updates.isEmpty && scan.leaves.isEmpty then none
    else some (engine.trimUpdates plan.connection.ackedView scan).ops

/-- What a build does to the stream of the connection its plan starts from. -/
inductive BuiltStream (engine : ProjectionEngine) (before : ConnectionProjection) :
    Option (List SentOp) → Option StateFrame → ConnectionProjection → Prop where
  | silent {after : ConnectionProjection} (same_epoch : after.streamEpoch = before.streamEpoch)
      (same_floor : after.epochSnapshotFloor = before.epochSnapshotFloor)
      (same_baseline : after.ackedBaseline = before.ackedBaseline)
      (same_records : after.unackedRecords = before.unackedRecords) :
      BuiltStream engine before none none after
  | sent {after base : ConnectionProjection} {frame : StateFrame} {ops : List SentOp}
      (same_epoch : base.streamEpoch = before.streamEpoch)
      (same_floor : base.epochSnapshotFloor = before.epochSnapshotFloor)
      (same_baseline : base.ackedBaseline = before.ackedBaseline)
      (same_records : base.unackedRecords = before.unackedRecords)
      (same_bytes : base.unackedBytes = before.unackedBytes)
      (frame_epoch : frame.header.streamEpoch = before.streamEpoch)
      (record : RecordOf frame ⟨engine.latestSnapshotId, ops, ops.length * sentOpBytes⟩)
      (committed : after = engine.commitFrame base ops) :
      BuiltStream engine before (some ops) (some frame) after

section Build

variable {engine : ProjectionEngine} {world : World} {tick : UInt64} {slot : Slot}

theorem keyframe_ops_view {connection : ConnectionProjection} {visible : List WorldId}
    (distinct : visible.Nodup) :
    applyScript (fun _ => none) ((engine.keyframeOps connection visible tick).map SentOp.edit) =
      viewOf (engine.keyframeScan connection visible tick).nextView := by
  refine applyScript_eq_of_replaces ?_ ?_ ?_ ?_
  · have keys : touched ((engine.keyframeOps connection visible tick).map SentOp.edit) =
        (engine.keyframeOps connection visible tick).map SentOp.wid := by
      simp only [touched, List.map_map]
      rfl
    rw [keys]
    exact keyframeOps_distinct distinct
  · intro edit member
    obtain ⟨op, in_ops, rfl⟩ := List.mem_map.mp member
    rw [keyframe_nextView distinct]
    rcases (mem_keyframeOps distinct op).mp in_ops with
      ⟨wid, in_visible, state, found, rfl⟩ | in_leaves
    · simp [SentOp.edit, in_visible, found]
    · obtain ⟨hidden, kind, -⟩ := mem_keyframeLeaves.mp in_leaves
      simp [SentOp.edit, hidden, kind]
  · intro wid value held
    rw [keyframe_nextView distinct] at held
    split at held
    · next in_visible =>
      obtain ⟨state, found, -⟩ := Option.map_eq_some_iff.mp held
      exact List.mem_map.mpr ⟨_, List.mem_map.mpr ⟨_, (mem_keyframeOps distinct _).mpr
        (Or.inl ⟨wid, in_visible, state, found, rfl⟩), rfl⟩, rfl⟩
    · cases held
  · intro wid held
    exact absurd rfl held

theorem keyframe_record {connection : ConnectionProjection} {visible : List WorldId}
    (distinct : visible.Nodup) (hashes : HashesMatch engine) (forced : Bool) :
    RecordOf (.keyframe (engine.buildKeyframe connection visible forced tick).1)
      ⟨engine.latestSnapshotId, engine.keyframeOps connection visible tick,
        (engine.keyframeOps connection visible tick).length * sentOpBytes⟩ := by
  refine ⟨rfl, fun replica => ?_⟩
  have client := ReplicaAccumulator.applyKeyframe_view replica
    (engine.buildKeyframe connection visible forced tick).1
  simp only [ReplicaAccumulator.apply, StateFrame.isKeyframe, if_true]
  rw [client, keyframe_ops_view distinct, buildKeyframe_eq]
  exact keyframe_client_view distinct hashes

theorem keyframe_stream {connection : ConnectionProjection} {visible : List WorldId}
    (distinct : visible.Nodup) (hashes : HashesMatch engine) (forced : Bool) :
    BuiltStream engine connection (some (engine.keyframeOps connection visible tick))
      (some (.keyframe (engine.buildKeyframe connection visible forced tick).1))
      (engine.buildKeyframe connection visible forced tick).2 := by
  have result := engine.keyframeScan_result connection tick distinct
  have scanned : (engine.keyframeScan connection visible tick).connection = _ :=
    result.connection_eq
  obtain ⟨nextFid, fidByWid, widByFid, frame⟩ := ensureFids_frame connection
    (visible.filter fun wid => (engine.keyframeAction wid).isEnter)
  have committed : (engine.buildKeyframe connection visible forced tick).2 =
      engine.commitFrame (engine.keyframeConnection connection visible forced tick)
        (engine.keyframeOps connection visible tick) := rfl
  refine .sent ?_ ?_ ?_ ?_ ?_ rfl (keyframe_record distinct hashes forced) committed
  all_goals simp only [keyframeConnection, scanned, frame]

theorem delta_record {connection : ConnectionProjection} {action : WorldId → WidAction}
    {reason : WorldId → LeaveReason} {wids : List WorldId} {scan : DeltaScan}
    (result : LoopResult action reason tick connection wids scan) (distinct : wids.Nodup)
    (sound : ActionsSound connection.ackedView action)
    (injective : FidsInjective connection.ackedView) (header : FrameHeader)
    (same : header.snapshotId = engine.latestSnapshotId) :
    RecordOf (.delta (sealDelta header (engine.trimUpdates connection.ackedView scan)))
      ⟨engine.latestSnapshotId, (engine.trimUpdates connection.ackedView scan).ops,
        (engine.trimUpdates connection.ackedView scan).ops.length * sentOpBytes⟩ := by
  refine ⟨same, fun replica => ?_⟩
  have client := ReplicaAccumulator.applyDelta_view replica
    (sealDelta header (engine.trimUpdates connection.ackedView scan))
  simp only [ReplicaAccumulator.apply, StateFrame.isKeyframe, Bool.false_eq_true, if_false]
  rw [client]
  exact sealDelta_script result distinct sound injective header replica.view

theorem delta_stream {connection : ConnectionProjection} {action : WorldId → WidAction}
    {reason : WorldId → LeaveReason} {wids : List WorldId} {scan : DeltaScan}
    (result : LoopResult action reason tick connection wids scan) (distinct : wids.Nodup)
    (sound : ActionsSound connection.ackedView action)
    (injective : FidsInjective connection.ackedView) :
    BuiltStream engine connection
      (if scan.enters.isEmpty && scan.updates.isEmpty && scan.leaves.isEmpty then none
        else some (engine.trimUpdates connection.ackedView scan).ops)
      ((engine.finishDelta connection tick scan).1.map .delta)
      (engine.finishDelta connection tick scan).2 := by
  obtain ⟨nextFid, fidByWid, widByFid, frame⟩ := ensureFids_frame connection
    (wids.filter fun wid => (action wid).isEnter)
  rw [← result.connection_eq] at frame
  unfold finishDelta
  split
  · exact .silent (by rw [frame]) (by rw [frame]) (by rw [frame]) (by rw [frame])
  · refine .sent ?_ ?_ ?_ ?_ ?_ rfl (delta_record result distinct sound injective _ rfl) rfl
    all_goals simp only [trimUpdates_connection, frame]

/-- Every build either sends nothing and keeps the records, or sends one frame of
the epoch of its plan and commits its record. -/
theorem buildFrame_stream (ready : BuildReady engine slot) :
    BuiltStream engine (engine.planFrame world tick slot).connection
      (engine.recordedOps world tick slot) (engine.buildFrame world tick slot).1
      (engine.buildFrame world tick slot).2.connection := by
  obtain ⟨distinct, -, -⟩ := ready.plan_sound world tick
  obtain ⟨latest, -, inv⟩ := ready.plan_connection world tick
  unfold buildFrame recordedOps
  simp only
  split
  · exact keyframe_stream distinct ready.global_inv.hashes _
  · exact delta_stream (scanDelta_result engine world tick slot.throttlePending distinct)
      (loopWids_nodup engine slot.throttlePending distinct)
      (widAction_sound ready.global_inv.hashes _ _ _) inv.acked_injective

end Build

end GeoWorld.Projection
