import Mathlib
import GeoWorld.Library.IdTables
import GeoWorld.Projection.WellFormedDelta

/-!
Feature ids of a stream epoch. They are handed out one after the other, each to one entity, and
every copy of one, in the views, the records and the frames of the epoch, is that of its entity.
-/

namespace GeoWorld.Projection

open WorldModel Library ConnectionProjection ProjectionEngine

def MapsView (fids : WidMap FeatureId) (view : WidMap TrackedEntity) : Prop :=
  ∀ (wid : WorldId) (entry : TrackedEntity), view[wid]? = some entry →
    fids[wid]? = some entry.fid

def MapsOps (fids : WidMap FeatureId) (ops : List SentOp) : Prop :=
  ∀ op ∈ ops, fids[op.wid]? = some op.fid

/-- The feature ids in a frame, each with its entity. -/
def StateFrame.fids : StateFrame → List (WorldId × FeatureId)
  | .keyframe frame =>
    frame.entities.flatMap fun enter => [(enter.wid, enter.fid), (enter.wid, enter.entity.fid)]
  | .delta frame =>
    frame.enters.flatMap (fun enter => [(enter.wid, enter.fid), (enter.wid, enter.entity.fid)]) ++
      frame.updates.flatMap (fun update =>
        [(update.wid, update.fid), (update.wid, update.entity.fid)]) ++
      frame.leaves.map fun leave => (leave.wid, leave.fid)

def MapsFrame (fids : WidMap FeatureId) (frame : StateFrame) : Prop :=
  ∀ entry ∈ frame.fids, fids[entry.1]? = some entry.2

/-- The tables of the epoch, and every feature id the connection keeps a copy of. -/
structure FidsMapped (connection : ConnectionProjection) : Prop
    extends IdTables connection.fidByWid connection.widByFid connection.nextFid where
  current : MapsView connection.fidByWid connection.currentView
  acked : MapsView connection.fidByWid connection.ackedView
  records : ∀ record ∈ connection.unackedRecords, MapsOps connection.fidByWid record.ops

structure EpochEmpty (connection : ConnectionProjection) : Prop where
  fidByWid_empty : connection.fidByWid = ∅
  widByFid_empty : connection.widByFid = ∅
  currentView_empty : connection.currentView = ∅
  ackedView_empty : connection.ackedView = ∅
  records_empty : connection.unackedRecords = []

section Connection

variable {connection : ConnectionProjection} {fids later : WidMap FeatureId}
  {view : WidMap TrackedEntity} {ops : List SentOp}

theorem MapsView.extend (maps : MapsView fids view) (grows : IdsExtend fids later) :
    MapsView later view :=
  fun wid entry found => grows wid entry.fid (maps wid entry found)

theorem MapsOps.extend (maps : MapsOps fids ops) (grows : IdsExtend fids later) :
    MapsOps later ops :=
  fun op member => grows op.wid op.fid (maps op member)

theorem MapsFrame.extend {frame : StateFrame} (maps : MapsFrame fids frame)
    (grows : IdsExtend fids later) : MapsFrame later frame :=
  fun entry member => grows entry.1 entry.2 (maps entry member)

theorem epochEmpty_resetEpoch (connection : ConnectionProjection) (reason : EpochResetReason)
    (floor : Nat) : EpochEmpty (connection.resetEpoch reason floor) :=
  ⟨rfl, rfl, rfl, rfl, rfl⟩

theorem FidsMapped.empty (fresh : EpochEmpty connection) (first : connection.nextFid = 1) :
    FidsMapped connection := by
  obtain ⟨forth, back, current, acked, records⟩ := fresh
  have tables : IdTables connection.fidByWid connection.widByFid connection.nextFid := by
    rw [forth, back, first]
    exact .empty
  refine ⟨tables, ?_, ?_, by simp [records]⟩
  · intro wid entry found
    simp [current] at found
  · intro wid entry found
    simp [acked] at found

theorem idsExtend_ensureFids (connection : ConnectionProjection) (wids : List WorldId) :
    IdsExtend connection.fidByWid (connection.ensureFids wids).fidByWid := by
  induction wids using List.reverseRecOn with
  | nil => exact .refl _
  | append_singleton rest wid ih =>
    rw [ensureFids_append_single]
    exact ih.trans fun _ _ mapped => ensureFid_fidOf_of_mapped mapped wid

theorem FidsMapped.ensureFid (mapped : FidsMapped connection) (wid : WorldId) :
    FidsMapped (connection.ensureFid wid).2 := by
  unfold ConnectionProjection.ensureFid
  cases known : connection.fidOf wid with
  | some fid => exact mapped
  | none =>
    have grows := idsExtend_insert known connection.nextFid
    exact ⟨mapped.allocate known, mapped.current.extend grows, mapped.acked.extend grows,
      fun record member => (mapped.records record member).extend grows⟩

theorem FidsMapped.ensureFids (mapped : FidsMapped connection) (wids : List WorldId) :
    FidsMapped (connection.ensureFids wids) := by
  induction wids using List.reverseRecOn with
  | nil => exact mapped
  | append_singleton rest wid ih =>
    rw [ensureFids_append_single]
    exact ih.ensureFid wid

theorem FidsMapped.acknowledge (mapped : FidsMapped connection) (snapshotId : Nat) :
    FidsMapped (connection.acknowledge snapshotId).2 := by
  by_cases accepted : (connection.acknowledge snapshotId).1 = .accepted
  · obtain ⟨-, -, -, bytes, counts, result, -⟩ := acknowledge_accepted accepted
    rw [result]
    refine ⟨mapped.toIdTables, mapped.current, ?_, fun record member => ?_⟩
    · refine replay_fids mapped.acked fun op member _ => ?_
      obtain ⟨record, in_records, in_ops⟩ := mem_replayedOps member
      exact mapped.records record in_records op in_ops
    · exact mapped.records record ((List.dropWhile_sublist _).subset member)
  · rw [acknowledge_rejected accepted]
    exact mapped

theorem FidsMapped.commitFrame {engine : ProjectionEngine} (mapped : FidsMapped connection)
    (sent : MapsOps connection.fidByWid ops) : FidsMapped (engine.commitFrame connection ops) := by
  obtain ⟨kept, _, _, _, suffix, committed⟩ := commitFrame_frame engine connection ops
  rw [committed]
  refine ⟨mapped.toIdTables, mapped.current, mapped.acked, fun record member => ?_⟩
  rcases List.mem_append.mp (suffix.subset member) with earlier | last
  · exact mapped.records record earlier
  · obtain rfl := List.mem_singleton.mp last
    exact sent

theorem slotEffect_fids {slot : Slot} (latest : Nat) (id : ConnectionId) (event : EngineEvent)
    (mapped : FidsMapped slot.connection) :
    FidsMapped (slotEffect latest id slot event).connection :=
  slotEffect_keeps event (fun _ => { mapped with }) (.empty (epochEmpty_resetEpoch _ _ _) rfl)
    { mapped with } (fun snapshotId => mapped.acknowledge snapshotId) mapped

theorem MapsView.converge {frameOps : WidMap TrackedEntity} (landed : MapsView fids frameOps)
    (current : MapsView fids connection.currentView) (acked : MapsView fids connection.ackedView)
    (frameLeaves : WidMap FeatureId) :
    MapsView fids (convergeView connection frameOps frameLeaves) := by
  intro wid entry found
  rw [convergeView_lookup] at found
  split at found
  · cases found
  · cases landing : frameOps[wid]? with
    | some tracked =>
      rw [landing, Option.some_or] at found
      exact landed wid entry (landing.trans found)
    | none =>
      rw [landing, Option.none_or] at found
      split at found
      · exact acked wid entry found
      · exact current wid entry found

theorem MapsView.revertOps {acked : WidMap TrackedEntity} (maps : MapsView fids view)
    (acked_maps : MapsView fids acked) (dropped : List SentOp) :
    MapsView fids (dropped.foldl (revertOp acked) view) := by
  induction dropped generalizing view with
  | nil => exact maps
  | cons op rest ih =>
    refine ih fun wid entry found => ?_
    unfold revertOp at found
    cases reverted : acked[op.wid]? with
    | none =>
      rw [reverted] at found
      exact maps wid entry found
    | some tracked =>
      simp only [reverted, lookup_insert] at found
      split at found
      · next same =>
        obtain rfl := Option.some.inj found
        exact same ▸ acked_maps op.wid tracked reverted
      · exact maps wid entry found

end Connection

/-- Updates and leaves are of acknowledged entities. -/
structure ActsOnAcked (acked : WidMap TrackedEntity) (action : WorldId → WidAction) : Prop where
  update_acked : ∀ wid entry state, action wid = .update entry state → acked[wid]? = some entry
  leave_acked : ∀ wid tracked, action wid = .leave tracked → acked[wid]? = some tracked

section Loop

variable {engine : ProjectionEngine} {connection : ConnectionProjection}
  {action : WorldId → WidAction} {reason : WorldId → LeaveReason} {tick : UInt64}
  {wids : List WorldId} {scan : DeltaScan}

theorem keyframeAction_acked (engine : ProjectionEngine) (acked : WidMap TrackedEntity) :
    ActsOnAcked acked engine.keyframeAction := by
  refine ⟨fun wid entry state acts => ?_, fun wid tracked acts => ?_⟩ <;>
    rcases keyframeAction_cases engine wid with skips | ⟨other, enters⟩ <;> simp_all

theorem widAction_acked (hashes : HashesMatch engine) (connection : ConnectionProjection)
    (visible : List WorldId) (tick : UInt64) :
    ActsOnAcked connection.ackedView (engine.widAction connection visible tick) :=
  ⟨(widAction_sound hashes connection visible tick).update_acked, fun _ _ => widAction_leave⟩

/-- The loop has a feature id for every id that enters. -/
theorem entered_mapped (result : LoopResult action reason tick connection wids scan)
    {wid : WorldId} (member : wid ∈ wids) (enters : (action wid).isEnter = true) :
    scan.connection.fidByWid[wid]? = some (scan.connection.fidIn wid) := by
  have entered : wid ∈ wids.filter fun wid => (action wid).isEnter := by simp [member, enters]
  obtain ⟨fid, mapped⟩ := ensureFids_mapped connection entered
  rw [← result.connection_eq] at mapped
  rw [fidIn, mapped, Option.getD_some]
  exact mapped

/-- What the loop has put together refers to entities by their feature ids. -/
structure LoopMapped (fids : WidMap FeatureId) (scan : DeltaScan) : Prop where
  enters : ∀ enter ∈ scan.enters, fids[enter.wid]? = some enter.fid ∧
    enter.entity.fid = enter.fid
  updates : ∀ update ∈ scan.updates, fids[update.wid]? = some update.fid ∧
    update.entity.fid = update.fid
  leaves : ∀ leave ∈ scan.leaves, fids[leave.wid]? = some leave.fid
  ops : MapsOps fids scan.ops
  landed : MapsView fids scan.frameOps

theorem loop_mapped (result : LoopResult action reason tick connection wids scan)
    (acts : ActsOnAcked connection.ackedView action) (mapped : FidsMapped connection) :
    FidsMapped scan.connection ∧ IdsExtend connection.fidByWid scan.connection.fidByWid ∧
      LoopMapped scan.connection.fidByWid scan := by
  have after := mapped.ensureFids (wids.filter fun wid => (action wid).isEnter)
  have grows := idsExtend_ensureFids connection (wids.filter fun wid => (action wid).isEnter)
  rw [← result.connection_eq] at after grows
  have acked : ∀ (wid : WorldId) (entry : TrackedEntity), connection.ackedView[wid]? = some entry →
      scan.connection.fidByWid[wid]? = some entry.fid := mapped.acked.extend grows
  refine ⟨after, grows, ?_, ?_, ?_, ?_, ?_⟩
  · intro enter member
    rw [result.enters_eq] at member
    obtain ⟨wid, inside, found⟩ := List.mem_filterMap.mp member
    cases does : action wid with
    | enter state =>
      simp only [does, WidAction.enterEntry, Option.some.injEq] at found
      subst found
      exact ⟨entered_mapped result inside (by rw [does]; rfl), rfl⟩
    | _ => simp [does, WidAction.enterEntry] at found
  · intro update member
    rw [result.updates_eq] at member
    obtain ⟨wid, -, found⟩ := List.mem_filterMap.mp member
    cases does : action wid with
    | update entry state =>
      simp only [does, WidAction.updateEntry, Option.some.injEq] at found
      subst found
      exact ⟨acked wid entry (acts.update_acked wid entry state does), rfl⟩
    | _ => simp [does, WidAction.updateEntry] at found
  · intro leave member
    rw [result.leaves_eq] at member
    obtain ⟨wid, -, found⟩ := List.mem_filterMap.mp member
    cases does : action wid with
    | leave tracked =>
      simp only [does, WidAction.leaveEntry, Option.some.injEq] at found
      subst found
      exact acked wid tracked (acts.leave_acked wid tracked does)
    | _ => simp [does, WidAction.leaveEntry] at found
  · intro op member
    rw [result.ops_eq] at member
    obtain ⟨wid, inside, found⟩ := List.mem_filterMap.mp member
    cases does : action wid with
    | enter state =>
      simp only [does, WidAction.op, Option.some.injEq] at found
      subst found
      exact entered_mapped result inside (by rw [does]; rfl)
    | update entry state =>
      simp only [does, WidAction.op, Option.some.injEq] at found
      subst found
      exact acked wid entry (acts.update_acked wid entry state does)
    | leave tracked =>
      simp only [does, WidAction.op, Option.some.injEq] at found
      subst found
      exact acked wid tracked (acts.leave_acked wid tracked does)
    | _ => simp [does, WidAction.op] at found
  · intro wid landing found
    rw [result.frameOps_eq] at found
    split at found
    · next inside =>
      cases does : action wid with
      | enter state =>
        simp only [does, WidAction.landing, Option.some.injEq] at found
        subst found
        exact entered_mapped result inside (by rw [does]; rfl)
      | update entry state =>
        simp only [does, WidAction.landing, Option.some.injEq] at found
        subst found
        exact acked wid entry (acts.update_acked wid entry state does)
      | _ => simp [does, WidAction.landing] at found
    · cases found

/-- Saturation drops updates and their records, and brings back acknowledged entries. -/
theorem LoopMapped.trim {fids : WidMap FeatureId} {acked : WidMap TrackedEntity}
    (mapped : LoopMapped fids scan) (acked_maps : MapsView fids acked) :
    LoopMapped fids (engine.trimUpdates acked scan) := by
  unfold trimUpdates
  split
  · refine ⟨mapped.enters, fun update member => ?_, mapped.leaves, fun op member => ?_,
      mapped.landed.revertOps acked_maps _⟩
    · exact mapped.updates update ((List.mem_insertionSort _).mp (List.mem_of_mem_take member))
    · exact mapped.ops op ((List.mem_insertionSort _).mp (List.mem_filter.mp member).1)
  · exact mapped

theorem LoopMapped.sealDelta {fids : WidMap FeatureId} (mapped : LoopMapped fids scan)
    (header : FrameHeader) : MapsFrame fids (.delta (sealDelta header scan)) := by
  intro entry member
  simp only [StateFrame.fids, ProjectionEngine.sealDelta, List.mem_append, List.mem_flatMap,
    List.mem_map, List.mem_insertionSort, List.mem_cons, List.not_mem_nil, or_false] at member
  rcases member with (⟨enter, inside, rfl | rfl⟩ | ⟨update, inside, rfl | rfl⟩) | ⟨leave, inside, rfl⟩
  · exact (mapped.enters enter inside).1
  · rw [(mapped.enters enter inside).2]
    exact (mapped.enters enter inside).1
  · exact (mapped.updates update inside).1
  · rw [(mapped.updates update inside).2]
    exact (mapped.updates update inside).1
  · exact mapped.leaves leave inside

end Loop

/-- What a build does to the feature ids of the connection its plan starts from. -/
structure BuiltFids (before : ConnectionProjection) (frame : Option StateFrame)
    (after : ConnectionProjection) : Prop where
  mapped : FidsMapped after
  extends_before : IdsExtend before.fidByWid after.fidByWid
  frame_mapped : ∀ sent, frame = some sent → MapsFrame after.fidByWid sent

section Build

variable {engine : ProjectionEngine} {world : World} {tick : UInt64} {slot : Slot}
  {connection : ConnectionProjection} {visible : List WorldId}

theorem commitFrame_fids (engine : ProjectionEngine) (base : ConnectionProjection)
    (ops : List SentOp) : (engine.commitFrame base ops).fidByWid = base.fidByWid := by
  obtain ⟨_, _, _, _, -, committed⟩ := commitFrame_frame engine base ops
  rw [committed]

theorem buildKeyframe_fids (distinct : visible.Nodup) (mapped : FidsMapped connection)
    (forced : Bool) :
    BuiltFids connection (some (.keyframe (engine.buildKeyframe connection visible forced tick).1))
      (engine.buildKeyframe connection visible forced tick).2 := by
  obtain ⟨scanned, grows, looped⟩ := loop_mapped
    (engine.keyframeScan_result connection tick distinct) (keyframeAction_acked _ _) mapped
  have ops : MapsOps (engine.keyframeScan connection visible tick).connection.fidByWid
      (engine.keyframeOps connection visible tick) := by
    intro op member
    rcases List.mem_append.mp ((List.mem_insertionSort _).mp member) with entered | left
    · exact looped.ops op entered
    · obtain ⟨-, -, -, tracked, found, same⟩ := mem_keyframeLeaves.mp left
      rw [same]
      exact grows op.wid tracked.fid (mapped.acked op.wid tracked found)
  have base : FidsMapped (engine.keyframeConnection connection visible forced tick) :=
    ⟨scanned.toIdTables, looped.landed, scanned.acked, scanned.records⟩
  rw [buildKeyframe_eq]
  refine ⟨base.commitFrame ops, ?_, fun sent same => ?_⟩
  · rw [commitFrame_fids]
    exact grows
  · obtain rfl := Option.some.inj same
    rw [commitFrame_fids]
    intro entry member
    simp only [StateFrame.fids, List.mem_flatMap, List.mem_cons, List.not_mem_nil, or_false]
      at member
    obtain ⟨enter, inside, rfl | rfl⟩ := member
    · exact (looped.enters enter inside).1
    · rw [(looped.enters enter inside).2]
      exact (looped.enters enter inside).1

theorem finishDelta_fids {action : WorldId → WidAction} {reason : WorldId → LeaveReason}
    {wids : List WorldId} {scan : DeltaScan}
    (result : LoopResult action reason tick connection wids scan)
    (acts : ActsOnAcked connection.ackedView action) (mapped : FidsMapped connection) :
    BuiltFids connection ((engine.finishDelta connection tick scan).1.map .delta)
      (engine.finishDelta connection tick scan).2 := by
  obtain ⟨scanned, grows, looped⟩ := loop_mapped result acts mapped
  have acked := mapped.acked.extend grows
  have trimmed : LoopMapped scan.connection.fidByWid
      (engine.trimUpdates connection.ackedView scan) := looped.trim acked
  unfold finishDelta
  split
  · exact ⟨scanned, grows, fun sent same => by cases same⟩
  · have base : FidsMapped (converged (engine.trimUpdates connection.ackedView scan)) := by
      simp only [converged, trimUpdates_connection]
      exact ⟨scanned.toIdTables, trimmed.landed.converge scanned.current scanned.acked _,
        scanned.acked, scanned.records⟩
    have base_fids : (converged (engine.trimUpdates connection.ackedView scan)).fidByWid =
        scan.connection.fidByWid := by
      simp only [converged, trimUpdates_connection]
    refine ⟨base.commitFrame (base_fids.symm ▸ trimmed.ops), ?_, fun sent same => ?_⟩
    · rw [commitFrame_fids]
      exact base_fids.symm ▸ grows
    · obtain rfl := Option.some.inj same
      rw [commitFrame_fids]
      exact base_fids.symm ▸ trimmed.sealDelta _

theorem buildFrame_fids (ready : BuildReady engine slot)
    (mapped : FidsMapped (engine.planFrame world tick slot).connection) :
    BuiltFids (engine.planFrame world tick slot).connection (engine.buildFrame world tick slot).1
      (engine.buildFrame world tick slot).2.connection := by
  obtain ⟨distinct, -, -⟩ := ready.plan_sound world tick
  unfold buildFrame
  simp only
  split
  · exact buildKeyframe_fids distinct mapped _
  · exact finishDelta_fids (scanDelta_result engine world tick slot.throttlePending distinct)
      (widAction_acked ready.global_inv.hashes _ _ _) mapped

end Build

/-- Frames of the current epoch name entities by their feature ids; others are of earlier epochs. -/
def FramesMapped (connection : ConnectionProjection) (built : List BuiltFrame) : Prop :=
  ∀ entry ∈ built, entry.frame.header.streamEpoch < connection.streamEpoch ∨
    entry.frame.header.streamEpoch = connection.streamEpoch ∧
      MapsFrame connection.fidByWid entry.frame

/-- The feature ids of a connection along its run. -/
structure FidsKept (id : ConnectionId) (log : FrameLog) : Prop where
  mapped : ∀ slot, log.engine.connections[id]? = some slot → FidsMapped slot.connection
  frames : ∀ slot, log.engine.connections[id]? = some slot →
    FramesMapped slot.connection log.built

/-- `later` is still in the epoch of `base`, with at least its feature ids, or in another one. -/
def EpochGrows (base later : ConnectionProjection) : Prop :=
  base.streamEpoch < later.streamEpoch ∨ base.streamEpoch = later.streamEpoch ∧
    IdsExtend base.fidByWid later.fidByWid

def FrameLog.Present (id : ConnectionId) (log : FrameLog) : Prop :=
  (log.engine.connections[id]?).isSome

/-- Within an epoch no feature id changes its entity, and a new epoch starts without any. -/
structure FidsConsistent (id : ConnectionId) (log : FrameLog) : Prop extends FidsKept id log where
  fixed : ∀ (more : List EngineEvent) (later : FrameLog),
    GuardedRun (FrameLog.Step id) (fun log _ => log.Present id) log more later →
    ∀ slot, log.engine.connections[id]? = some slot →
    ∀ slot', later.engine.connections[id]? = some slot' →
      EpochGrows slot.connection slot'.connection
  reset_empty : ∀ slot, log.engine.connections[id]? = some slot →
    ∀ (reason : EpochResetReason) (floor : Nat),
      EpochEmpty (slot.connection.resetEpoch reason floor) ∧
        ∀ built ∈ log.built, built.frame.header.streamEpoch <
          (slot.connection.resetEpoch reason floor).streamEpoch

structure FidsInv (id : ConnectionId) (log : FrameLog) : Prop extends FidsKept id log where
  engine_inv : EngineInv log.engine

section Run

variable {id : ConnectionId} {log after : FrameLog} {event : EngineEvent}
  {base middle later : ConnectionProjection}

theorem EpochGrows.refl (base : ConnectionProjection) : EpochGrows base base :=
  .inr ⟨rfl, .refl _⟩

theorem EpochGrows.trans (first : EpochGrows base middle) (second : EpochGrows middle later) :
    EpochGrows base later := by
  rcases first with less | ⟨same, grows⟩
  · rcases second with more | ⟨same', -⟩
    · exact .inl (less.trans more)
    · exact .inl (same' ▸ less)
  · rcases second with more | ⟨same', grows'⟩
    · exact .inl (same ▸ more)
    · exact .inr ⟨same.trans same', grows.trans grows'⟩

theorem slotEffect_grows {slot : Slot} (latest : Nat) (id : ConnectionId) (event : EngineEvent) :
    EpochGrows slot.connection (slotEffect latest id slot event).connection := by
  refine @slotEffect_keeps (EpochGrows slot.connection) latest id slot event
    (fun _ => .refl _) (.inl (Nat.lt_succ_self _)) (.refl _) (fun snapshotId => ?_) (.refl _)
  obtain ⟨_, _, _, _, _, _, frame⟩ := acknowledge_frame slot.connection snapshotId
  rw [frame]
  exact .refl _

theorem planFrame_fids (engine : ProjectionEngine) (world : World) (tick : UInt64) {slot : Slot}
    (mapped : FidsMapped slot.connection) :
    FidsMapped (engine.planFrame world tick slot).connection ∧
      EpochGrows slot.connection (engine.planFrame world tick slot).connection := by
  unfold planFrame
  simp only
  split
  · exact ⟨.empty (epochEmpty_resetEpoch _ _ _) rfl, .inl (Nat.lt_succ_self _)⟩
  · exact ⟨mapped, .refl _⟩

theorem FramesMapped.grow {built : List BuiltFrame} (frames : FramesMapped base built)
    (grows : EpochGrows base later) : FramesMapped later built := by
  intro entry member
  rcases frames entry member with earlier | ⟨same, maps⟩
  · left
    rcases grows with more | ⟨same', -⟩
    · exact earlier.trans more
    · exact same' ▸ earlier
  · rcases grows with more | ⟨same', extends_base⟩
    · exact .inl (same ▸ more)
    · exact .inr ⟨same.trans same', maps.extend extends_base⟩

theorem FidsInv.project (inv : FidsInv id log) {world : World} {tick : UInt64}
    {refreshed : ProjectionEngine} {slot : Slot} (ready : BuildReady refreshed slot)
    (found : log.engine.connections[id]? = some slot) :
    FidsMapped (refreshed.buildSlot world tick slot).connection ∧
      FramesMapped (refreshed.buildSlot world tick slot).connection
        (log.built ++ (frameBuilt refreshed world tick slot).toList) ∧
      EpochGrows slot.connection (refreshed.buildSlot world tick slot).connection := by
  obtain ⟨planned, plan_grows⟩ := planFrame_fids refreshed world tick (inv.mapped slot found)
  have built := @buildFrame_fids refreshed world tick slot ready planned
  have numbers := @buildFrame_numbers refreshed tick slot world ready
  have after_eq : (refreshed.buildSlot world tick slot).connection =
    (refreshed.buildFrame world tick slot).2.connection := rfl
  have grows := plan_grows.trans (.inr ⟨numbers.epoch.symm, built.extends_before⟩)
  rw [after_eq]
  refine ⟨built.mapped, fun entry member => ?_, grows⟩
  rcases List.mem_append.mp member with earlier | here
  · exact (inv.frames slot found).grow grows entry earlier
  · obtain ⟨frame, sent, rfl⟩ := Option.map_eq_some_iff.mp (Option.mem_toList.mp here)
    exact .inr ⟨(numbers.sent frame sent).1.trans numbers.epoch.symm, built.frame_mapped frame sent⟩

theorem FidsInv.advance (inv : FidsInv id log) {slot : Slot} {built : List BuiltFrame}
    (advance : FrameLog.Advance id log event slot built) :
    FidsMapped slot.connection ∧ FramesMapped slot.connection built ∧
      ∀ old, log.engine.connections[id]? = some old →
        EpochGrows old.connection slot.connection := by
  cases advance with
  | built refresh found kept =>
    obtain ⟨mapped, frames, grows⟩ := inv.project (inv.engine_inv.buildReady refresh kept) found
    refine ⟨mapped, frames, fun old present => ?_⟩
    obtain rfl := Option.some.inj (found.symm.trans present)
    exact grows
  | @changed _ before other found =>
    have grows := @slotEffect_grows before log.engine.latestSnapshotId id event
    refine ⟨slotEffect_fids _ id event (inv.mapped before found),
      (inv.frames before found).grow grows, fun old present => ?_⟩
    obtain rfl := Option.some.inj (found.symm.trans present)
    exact grows
  | created absent =>
    refine ⟨.empty ⟨rfl, rfl, rfl, rfl, rfl⟩ rfl, by simp [FramesMapped], fun old present => ?_⟩
    rw [absent] at present
    cases present

theorem fidsInv_step (inv : FidsInv id log) (step : log.step id event = some after) :
    FidsInv id after := by
  have advanced : ∀ slot, after.engine.connections[id]? = some slot → _ := fun slot found =>
    inv.advance (FrameLog.advance_of_step inv.engine_inv step found)
  exact ⟨⟨fun slot found => (advanced slot found).1, fun slot found => (advanced slot found).2.1⟩,
    inv.engine_inv.step (FrameLog.step_engine step)⟩

/-- As long as the connection is there its epochs grow. -/
theorem epochGrows_run (inv : FidsInv id log) {more : List EngineEvent} {later : FrameLog}
    (run : GuardedRun (FrameLog.Step id) (fun log _ => log.Present id) log more later) {slot : Slot}
    (found : log.engine.connections[id]? = some slot) (slot' : Slot)
    (present : later.engine.connections[id]? = some slot') :
    EpochGrows slot.connection slot'.connection := by
  induction run generalizing slot with
  | nil log =>
    obtain rfl := Option.some.inj (found.symm.trans present)
    exact .refl _
  | @cons start middle _ event _ allowed step rest ih =>
    have next := fidsInv_step inv step
    cases rest with
    | nil =>
      exact (inv.advance (FrameLog.advance_of_step inv.engine_inv step present)).2.2 slot found
    | cons allowed' step' rest' =>
      obtain ⟨between, here⟩ := Option.isSome_iff_exists.mp allowed'
      have grows := (inv.advance (FrameLog.advance_of_step inv.engine_inv step here)).2.2 slot found
      exact grows.trans (ih next here present)

/-- In every run the feature ids of an epoch are numbered from 1 and each belongs to one entity,
wherever it is stored or sent. -/
theorem feature_ids_consistent (config : ProjectionConfig) (policy : ProjectionPolicy)
    (id : ConnectionId) {events : List EngineEvent} {log : FrameLog}
    (run : AnyRun (FrameLog.Step id) (.initial config policy) events log) :
    FidsConsistent id log := by
  have start : FidsInv id (.initial config policy) := by
    refine ⟨⟨?_, ?_⟩, EngineInv.initial config policy⟩ <;> simp [FrameLog.initial]
  have inv := run.invariant start fun _ _ _ _ step inv => fidsInv_step inv step
  refine ⟨inv.toFidsKept, fun more later rest slot found => epochGrows_run inv rest found,
    fun slot found reason floor => ⟨epochEmpty_resetEpoch _ _ _, fun built member => ?_⟩⟩
  rcases inv.frames slot found built member with earlier | ⟨same, -⟩
  · exact earlier.trans (Nat.lt_succ_self _)
  · exact same ▸ Nat.lt_succ_self _

/-- Object 1 joins object 2, the stream is reset, and both are sent again. -/
def renumberedEvents : List EngineEvent :=
  [.addConnection 7 originArea, .onProjection originWorld 1, .onProjection originWorldBoth 2,
    .resetStreamEpoch 7, .onProjection originWorldBoth 3]

theorem renumbered_computed :
    (runLabels (FrameLog.step 7) (.initial originConfig {}) renumberedEvents).map
      (fun log => log.built.map fun built => (built.frame.header.streamEpoch, built.frame.fids)) =
        some [(1, [(2, 1), (2, 1)]), (1, [(1, 2), (1, 2), (2, 1), (2, 1)]),
          (2, [(1, 1), (1, 1), (2, 2), (2, 2)])] := by
  decide +kernel

theorem feature_ids_renumbered : ∃ log : FrameLog,
    (log.built.map fun built => (built.frame.header.streamEpoch, built.frame.fids)) =
        [(1, [(2, 1), (2, 1)]), (1, [(1, 2), (1, 2), (2, 1), (2, 1)]),
          (2, [(1, 1), (1, 1), (2, 2), (2, 2)])] ∧
      FidsConsistent 7 log := by
  obtain ⟨log, computed, frames⟩ := Option.map_eq_some_iff.mp renumbered_computed
  exact ⟨log, frames, feature_ids_consistent originConfig {} 7
    (GuardedRun.of_runLabels computed fun _ _ => trivial)⟩

end Run

end GeoWorld.Projection
