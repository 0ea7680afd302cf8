import Mathlib
import GeoWorld.Projection.FrameLog

/-!
Deltas are well formed: the lists are in order, no id is in two of them, leaves and updates
are about acknowledged entities under their acknowledged feature ids and enters about others,
and the frames of an epoch are numbered one after the other.
-/

namespace GeoWorld.Projection

open WorldModel Library ConnectionProjection ProjectionEngine

/-- A delta against the acknowledged view of the connection it was built from. -/
structure WellFormedDelta (connection : ConnectionProjection) (delta : Delta) : Prop where
  leaves_ascending : delta.leaves.Pairwise fun lhs rhs => lhs.fid < rhs.fid
  updates_ascending : delta.updates.Pairwise fun lhs rhs => lhs.fid < rhs.fid
  enters_ascending : delta.enters.Pairwise fun lhs rhs => lhs.wid < rhs.wid
  distinct : (delta.leaves.map EntityLeave.wid ++ delta.enters.map EntityEnter.wid ++
    delta.updates.map EntityUpdate.wid).Nodup
  leave_acked : ∀ leave ∈ delta.leaves, ∃ entry,
    connection.ackedView[leave.wid]? = some entry ∧ entry.fid = leave.fid
  update_acked : ∀ update ∈ delta.updates, ∃ entry,
    connection.ackedView[update.wid]? = some entry ∧ entry.fid = update.fid
  enter_unacked : ∀ enter ∈ delta.enters, connection.ackedView[enter.wid]? = none
  baseline : delta.baselineSnapshotId = connection.ackedBaseline

section Delta

variable {engine : ProjectionEngine} {connection : ConnectionProjection} {visible : List WorldId}
  {reason : WorldId → LeaveReason} {tick : UInt64} {wids : List WorldId} {scan : DeltaScan}

/-- Distinct members that are told apart by the order stand in strictly ascending order. -/
theorem sorted_strictly {α : Type} {le lt : α → α → Prop} [DecidableRel le] [Std.Total le]
    [IsTrans α le] {items : List α} (distinct : items.Nodup)
    (apart : ∀ left ∈ items, ∀ right ∈ items, le left right → left ≠ right → lt left right) :
    (items.insertionSort le).Pairwise lt := by
  have members := List.perm_insertionSort le items
  have sorted := (List.pairwise_insertionSort le items).and (members.nodup_iff.mpr distinct)
  refine sorted.imp_of_mem fun {left right} leftIn rightIn both => ?_
  exact apart left (members.mem_iff.mp leftIn) right (members.mem_iff.mp rightIn) both.1 both.2

instance {α : Type} (key : α → FeatureId) : Std.Total fun left right => key left ≤ key right :=
  ⟨fun left right => Nat.le_total (key left) (key right)⟩

instance {α : Type} (key : α → FeatureId) : IsTrans α fun left right => key left ≤ key right :=
  ⟨fun _ _ _ => Nat.le_trans⟩

instance {α : Type} (key : α → WorldId) : Std.Total fun left right => key left ≤ key right :=
  ⟨fun left right => UInt64.le_total (key left) (key right)⟩

instance {α : Type} (key : α → WorldId) : IsTrans α fun left right => key left ≤ key right :=
  ⟨fun _ _ _ => UInt64.le_trans⟩

theorem widAction_leave {wid : WorldId} {tracked : TrackedEntity}
    (acts : engine.widAction connection visible tick wid = .leave tracked) :
    connection.ackedView[wid]? = some tracked := by
  unfold widAction at acts
  split at acts
  · cases found : engine.globalView[wid]? with
    | none => simp [found] at acts
    | some state =>
      cases acked : connection.ackedView[wid]? with
      | none => simp [found, acked] at acts
      | some entry =>
        simp only [found, acked] at acts
        split_ifs at acts
  · cases acked : connection.ackedView[wid]? with
    | none => simp [acked] at acts
    | some entry =>
      simp only [acked, WidAction.leave.injEq] at acts
      rw [acts]

theorem widAction_enter {wid : WorldId} {state : EntityState}
    (acts : engine.widAction connection visible tick wid = .enter state) :
    connection.ackedView[wid]? = none := by
  unfold widAction at acts
  split at acts
  · cases found : engine.globalView[wid]? with
    | none => simp [found] at acts
    | some state =>
      cases acked : connection.ackedView[wid]? with
      | none => rfl
      | some entry =>
        simp only [found, acked] at acts
        split_ifs at acts
  · cases acked : connection.ackedView[wid]? with
    | none => rfl
    | some entry => simp [acked] at acts

theorem mem_leaves
    (result : LoopResult (engine.widAction connection visible tick) reason tick connection wids scan)
    {leave : EntityLeave} (member : leave ∈ scan.leaves) : ∃ tracked,
      connection.ackedView[leave.wid]? = some tracked ∧
        leave = ⟨leave.wid, tracked.fid, reason leave.wid⟩ := by
  rw [result.leaves_eq] at member
  obtain ⟨wid, -, found⟩ := List.mem_filterMap.mp member
  cases acts : engine.widAction connection visible tick wid with
  | leave tracked =>
    simp only [acts, WidAction.leaveEntry, Option.some.injEq] at found
    subst found
    exact ⟨tracked, widAction_leave acts, rfl⟩
  | _ => simp [acts, WidAction.leaveEntry] at found

theorem mem_enters
    (result : LoopResult (engine.widAction connection visible tick) reason tick connection wids scan)
    {enter : EntityEnter} (member : enter ∈ scan.enters) :
    connection.ackedView[enter.wid]? = none := by
  rw [result.enters_eq] at member
  obtain ⟨wid, -, found⟩ := List.mem_filterMap.mp member
  cases acts : engine.widAction connection visible tick wid with
  | enter state =>
    simp only [acts, WidAction.enterEntry, Option.some.injEq] at found
    subst found
    exact widAction_enter acts
  | _ => simp [acts, WidAction.enterEntry] at found

theorem mem_updates {action : WorldId → WidAction}
    (sound : ActionsSound connection.ackedView action) {update : EntityUpdate}
    (member : update ∈ updateEntries action wids) : ∃ entry,
      connection.ackedView[update.wid]? = some entry ∧ entry.fid = update.fid := by
  obtain ⟨wid, -, found⟩ := List.mem_filterMap.mp member
  cases acts : action wid with
  | update entry state =>
    simp only [acts, WidAction.updateEntry, Option.some.injEq] at found
    subst found
    exact ⟨entry, sound.update_acked wid entry state acts, rfl⟩
  | _ => simp [acts, WidAction.updateEntry] at found

/-- Trimming only leaves out updates. -/
theorem trimUpdates_subset {acked : WidMap TrackedEntity} :
    ∀ update ∈ (engine.trimUpdates acked scan).updates, update ∈ scan.updates := by
  intro update member
  unfold trimUpdates at member
  split at member
  · exact (List.mem_insertionSort _).mp (List.mem_of_mem_take member)
  · exact member

/-- The delta of a loop over distinct ids is well formed. -/
theorem sealDelta_wellFormed
    (result : LoopResult (engine.widAction connection visible tick) reason tick connection wids scan)
    (distinct : wids.Nodup) (hashes : HashesMatch engine)
    (injective : FidsInjective connection.ackedView) {header : FrameHeader}
    (baseline : header.baselineSnapshotId = connection.ackedBaseline) :
    WellFormedDelta connection
      (sealDelta header (engine.trimUpdates connection.ackedView scan)) := by
  have sound := widAction_sound hashes connection visible tick
  have apart := @sealDelta_edits_distinct engine _ _ _ _ _ _ _ result distinct sound injective header
  have keys : touched (sealDelta header (engine.trimUpdates connection.ackedView scan)).edits =
      (sealDelta header (engine.trimUpdates connection.ackedView scan)).leaves.map EntityLeave.wid ++
        (sealDelta header (engine.trimUpdates connection.ackedView scan)).enters.map
          EntityEnter.wid ++
        (sealDelta header (engine.trimUpdates connection.ackedView scan)).updates.map
          EntityUpdate.wid := by
    simp only [touched, Delta.edits, List.map_append, List.map_map]
    rfl
  rw [keys] at apart
  obtain ⟨front, updates, -⟩ := List.nodup_append.mp apart
  obtain ⟨leaves, enters, -⟩ := List.nodup_append.mp front
  have kept : ∀ update ∈ (engine.trimUpdates connection.ackedView scan).updates,
      update ∈ updateEntries (engine.widAction connection visible tick) wids := by
    intro update member
    have inside := trimUpdates_subset update member
    rwa [result.updates_eq] at inside
  have unsorted : ∀ {α : Type} {key : α → WorldId} {items : List α} {order : α → α → Prop}
      [DecidableRel order], ((items.insertionSort order).map key).Nodup → items.Nodup :=
    fun nodup => (List.perm_insertionSort _ _).nodup_iff.mp (List.Nodup.of_map _ nodup)
  refine ⟨?_, ?_, ?_, apart, ?_, ?_, ?_, baseline⟩
  · refine sorted_strictly (unsorted leaves) fun left leftIn right rightIn le ne => ?_
    refine lt_of_le_of_ne le fun same => ne ?_
    rw [trimUpdates_leaves] at leftIn rightIn
    obtain ⟨tracked, found, shape⟩ := mem_leaves result leftIn
    obtain ⟨tracked', found', shape'⟩ := mem_leaves result rightIn
    have fids : tracked.fid = tracked'.fid := by
      rw [shape, shape'] at same
      exact same
    have wid := injective left.wid right.wid tracked tracked' found found' fids
    rw [shape, shape', wid, fids]
  · refine sorted_strictly (unsorted updates) fun left leftIn right rightIn le ne => ?_
    refine lt_of_le_of_ne le fun same => ne ?_
    exact updates_fid_injective sound injective (kept left leftIn) (kept right rightIn) same
  · refine sorted_strictly (unsorted enters) fun left leftIn right rightIn le ne => ?_
    refine UInt64.lt_of_le_of_ne le fun same => ne ?_
    have perm := (List.perm_insertionSort (fun lhs rhs : EntityEnter => lhs.wid ≤ rhs.wid)
      (engine.trimUpdates connection.ackedView scan).enters).map EntityEnter.wid
    exact List.inj_on_of_nodup_map (perm.nodup_iff.mp enters) leftIn rightIn same
  · intro leave member
    have inside : leave ∈ (engine.trimUpdates connection.ackedView scan).leaves :=
      (List.mem_insertionSort _).mp member
    rw [trimUpdates_leaves] at inside
    obtain ⟨tracked, found, shape⟩ := mem_leaves result inside
    exact ⟨tracked, found, by rw [shape]⟩
  · intro update member
    exact mem_updates sound (kept update ((List.mem_insertionSort _).mp member))
  · intro enter member
    have inside : enter ∈ (engine.trimUpdates connection.ackedView scan).enters :=
      (List.mem_insertionSort _).mp member
    rw [trimUpdates_enters] at inside
    exact mem_enters result inside

variable {slot : Slot} {world : World}

theorem buildFrame_delta (ready : BuildReady engine slot) {delta : Delta}
    (built : (engine.buildFrame world tick slot).1 = some (.delta delta)) :
    WellFormedDelta slot.connection delta := by
  obtain ⟨distinct, -, -⟩ := ready.plan_sound world tick
  obtain ⟨_, -, inv⟩ := ready.connection_inv
  have build := deltaBuild ready built
  rw [build.content]
  exact sealDelta_wellFormed build.loop (loopWids_nodup engine slot.throttlePending distinct)
    ready.global_inv.hashes inv.acked_injective rfl

/-- How a build numbers its frame, if it sends one. -/
structure Numbers (before after : ConnectionProjection) (frame : Option StateFrame) : Prop where
  epoch : after.streamEpoch = before.streamEpoch
  silent : frame = none → after.streamSequence = before.streamSequence
  sent : ∀ built, frame = some built → built.header.streamEpoch = before.streamEpoch ∧
    built.header.streamSequence = before.streamSequence + 1 ∧
      after.streamSequence = before.streamSequence + 1

theorem commitFrame_numbers {before base : ConnectionProjection} {frame : StateFrame}
    {ops : List SentOp} (epoch : base.streamEpoch = before.streamEpoch)
    (sequence : base.streamSequence = before.streamSequence)
    (header : frame.header.streamEpoch = before.streamEpoch ∧
      frame.header.streamSequence = before.streamSequence + 1) :
    Numbers before (engine.commitFrame base ops) (some frame) := by
  obtain ⟨_, _, _, _, -, committed⟩ := commitFrame_frame engine base ops
  rw [committed]
  refine ⟨epoch, by simp, fun built same => ?_⟩
  obtain rfl := Option.some.inj same
  exact ⟨header.1, header.2, by rw [sequence]⟩

theorem buildFrame_numbers (ready : BuildReady engine slot) :
    Numbers (engine.planFrame world tick slot).connection
      (engine.buildFrame world tick slot).2.connection
      (engine.buildFrame world tick slot).1 := by
  obtain ⟨distinct, -, -⟩ := ready.plan_sound world tick
  unfold buildFrame
  simp only
  split
  · obtain ⟨_, _, _, frame⟩ := ensureFids_frame (engine.planFrame world tick slot).connection
      ((engine.planFrame world tick slot).visible.filter fun wid =>
        (engine.keyframeAction wid).isEnter)
    have scanned := (engine.keyframeScan_result (engine.planFrame world tick slot).connection tick
      distinct).connection_eq
    have same : (engine.keyframeScan (engine.planFrame world tick slot).connection
        (engine.planFrame world tick slot).visible tick).connection = _ := scanned.trans frame
    rw [buildKeyframe_eq]
    refine commitFrame_numbers ?_ ?_ ⟨rfl, rfl⟩
    · simp only [keyframeConnection, same]
    · simp only [keyframeConnection, same]
  · have result := scanDelta_result engine world tick slot.throttlePending distinct
    obtain ⟨_, _, _, frame⟩ := ensureFids_frame (engine.planFrame world tick slot).connection
      ((loopWids engine slot.throttlePending (engine.planFrame world tick slot)).filter fun wid =>
        (engine.widAction (engine.planFrame world tick slot).connection
          (engine.planFrame world tick slot).visible tick wid).isEnter)
    have same := result.connection_eq.trans frame
    unfold finishDelta
    split
    · refine ⟨by simp only [same], fun _ => by simp only [same], fun built sent => by cases sent⟩
    · refine commitFrame_numbers ?_ ?_ ⟨rfl, rfl⟩
      · simp only [trimUpdates_connection, same]
      · simp only [trimUpdates_connection, same]

/-- Within an epoch a frame has the number after the one before it, and epochs only grow. -/
def HeaderFollows (first second : FrameHeader) : Prop :=
  first.streamEpoch < second.streamEpoch ∨ first.streamEpoch = second.streamEpoch ∧
    second.streamSequence = first.streamSequence + 1

/-- The last frame of the log is the last one the connection has counted in its epoch. -/
def CountedBy (connection : ConnectionProjection) (built : List BuiltFrame) : Prop :=
  ∀ last ∈ built.getLast?, last.frame.header.streamEpoch ≤ connection.streamEpoch ∧
    (last.frame.header.streamEpoch = connection.streamEpoch →
      last.frame.header.streamSequence = connection.streamSequence)

theorem CountedBy.congr {before after : ConnectionProjection} {built : List BuiltFrame}
    (counted : CountedBy before built) (epoch : after.streamEpoch = before.streamEpoch)
    (sequence : after.streamSequence = before.streamSequence) : CountedBy after built := by
  intro last member
  rw [epoch, sequence]
  exact counted last member

theorem CountedBy.resetEpoch {connection : ConnectionProjection} {built : List BuiltFrame}
    (counted : CountedBy connection built) (reason : EpochResetReason) (floor : Nat) :
    CountedBy (connection.resetEpoch reason floor) built := by
  intro last member
  have below := (counted last member).1
  refine ⟨below.trans (Nat.le_succ _), fun same => ?_⟩
  simp only [ConnectionProjection.resetEpoch] at same
  omega

theorem slotEffect_counted {latest : Nat} {id : ConnectionId} {event : EngineEvent}
    {built : List BuiltFrame} (counted : CountedBy slot.connection built) :
    CountedBy (slotEffect latest id slot event).connection built := by
  refine @slotEffect_keeps (CountedBy · built) latest id slot event
    (fun _ => counted.congr rfl rfl) (counted.resetEpoch _ _) (counted.congr rfl rfl)
    (fun snapshotId => ?_) counted
  obtain ⟨_, _, _, _, _, _, frame⟩ := acknowledge_frame slot.connection snapshotId
  rw [frame]
  exact counted.congr rfl rfl

theorem planFrame_counted {built : List BuiltFrame} (counted : CountedBy slot.connection built) :
    CountedBy (engine.planFrame world tick slot).connection built := by
  unfold planFrame
  simp only
  split
  · exact counted.resetEpoch _ _
  · exact counted

end Delta

/-- The deltas of the log are well formed, and its frames are numbered in order. -/
structure FramesWellFormed (log : FrameLog) : Prop where
  deltas : ∀ built ∈ log.built, ∀ delta, built.frame = .delta delta →
    WellFormedDelta built.before delta
  numbered : log.built.IsChain fun first second =>
    HeaderFollows first.frame.header second.frame.header

structure FrameLogInv (id : ConnectionId) (log : FrameLog) : Prop extends FramesWellFormed log where
  engine_inv : EngineInv log.engine
  absent : log.engine.connections[id]? = none → log.built = []
  counted : ∀ slot, log.engine.connections[id]? = some slot → CountedBy slot.connection log.built

section Run

variable {id : ConnectionId} {log after : FrameLog} {event : EngineEvent}

/-- One operation keeps the frames of the log in order. -/
theorem FrameLogInv.advance (inv : FrameLogInv id log) {slot : Slot} {built : List BuiltFrame}
    (advance : FrameLog.Advance id log event slot built) :
    (∀ entry ∈ built, ∀ delta, entry.frame = .delta delta → WellFormedDelta entry.before delta) ∧
      (built.IsChain fun first second =>
        HeaderFollows first.frame.header second.frame.header) ∧
      CountedBy slot.connection built := by
  cases advance with
  | @built world tick refreshed old refresh found_old kept =>
    have ready := inv.engine_inv.buildReady refresh kept
    have counted := @planFrame_counted refreshed tick old world _ (inv.counted old found_old)
    have numbers := @buildFrame_numbers refreshed tick old world ready
    have wellFormed := @buildFrame_delta refreshed tick old world ready
    change _ ∧ _ ∧ CountedBy (refreshed.buildFrame world tick old).2.connection _
    cases sent : (refreshed.buildFrame world tick old).1 with
    | none =>
      rw [frameBuilt, sent, Option.map_none, Option.toList_none, List.append_nil]
      exact ⟨inv.deltas, inv.numbered, counted.congr numbers.epoch (numbers.silent sent)⟩
    | some frame =>
      obtain ⟨epoch, sequence, next⟩ := numbers.sent frame sent
      rw [frameBuilt, sent, Option.map_some, Option.toList_some]
      refine ⟨fun entry member delta shape => ?_, ?_, ?_⟩
      · rcases List.mem_append.mp member with earlier | here
        · exact inv.deltas entry earlier delta shape
        · obtain rfl := List.mem_singleton.mp here
          simp only at shape
          exact wellFormed (sent.trans (congrArg some shape))
      · refine List.isChain_append.mpr ⟨inv.numbered, .singleton _, ?_⟩
        intro last isLast first isFirst
        obtain rfl := Option.some.inj isFirst
        obtain ⟨below, current⟩ := counted last isLast
        by_cases same : last.frame.header.streamEpoch = frame.header.streamEpoch
        · exact .inr ⟨same, by rw [sequence, current (same.trans epoch)]⟩
        · exact .inl (lt_of_le_of_ne (epoch ▸ below) same)
      · intro last isLast
        rw [List.getLast?_concat] at isLast
        obtain rfl := Option.some.inj isLast
        rw [numbers.epoch, next, ← epoch, ← sequence]
        exact ⟨le_rfl, fun _ => rfl⟩
  | @changed _ old other found_old =>
    exact ⟨inv.deltas, inv.numbered, slotEffect_counted (inv.counted old found_old)⟩
  | created gone => exact ⟨by simp, by simp, by simp [CountedBy]⟩

theorem frameLogInv_step (inv : FrameLogInv id log) (step : log.step id event = some after) :
    FrameLogInv id after := by
  have engine_inv : EngineInv after.engine := inv.engine_inv.step (FrameLog.step_engine step)
  have absent : after.engine.connections[id]? = none → after.built = [] := by
    obtain ⟨engine, stepped, rfl⟩ := Option.map_eq_some_iff.mp step
    intro absent
    simp only at absent ⊢
    rw [if_neg (by simp [absent])]
  cases found : after.engine.connections[id]? with
  | none =>
    have none := absent found
    refine ⟨⟨by simp [none], by simp [none]⟩, engine_inv, absent, fun slot present => ?_⟩
    rw [found] at present
    cases present
  | some slot =>
    obtain ⟨deltas, numbered, counted⟩ :=
      inv.advance (FrameLog.advance_of_step inv.engine_inv step found)
    refine ⟨⟨deltas, numbered⟩, engine_inv, absent, fun other present => ?_⟩
    obtain rfl := Option.some.inj (present.symm.trans found)
    exact counted

/-- In every run the deltas built for a connection are well formed. -/
theorem deltas_well_formed (config : ProjectionConfig) (policy : ProjectionPolicy)
    (id : ConnectionId) {events : List EngineEvent} {log : FrameLog}
    (run : AnyRun (FrameLog.Step id) (.initial config policy) events log) :
    FramesWellFormed log := by
  have start : FrameLogInv id (.initial config policy) := by
    refine ⟨⟨by simp [FrameLog.initial], by simp [FrameLog.initial]⟩,
      EngineInv.initial config policy, fun _ => rfl, fun slot found => ?_⟩
    simp [FrameLog.initial] at found
  exact (run.invariant start fun _ _ _ _ step inv => frameLogInv_step inv step).toFramesWellFormed

/-- A keyframe with object 2, and behind its acknowledgement a delta with object 1. -/
def joinedEvents : List EngineEvent :=
  [.addConnection 7 originArea, .onProjection originWorld 1, .acknowledge 7 1,
    .onProjection originWorldBoth 2]

theorem joined_computed :
    (runLabels (FrameLog.step 7) (.initial originConfig {}) joinedEvents).map
      (fun log => log.built.map fun built => built.frame.header.streamSequence) = some [1, 2] := by
  decide +kernel

theorem deltas_well_formed_joined : ∃ log : FrameLog,
    (log.built.map fun built => built.frame.header.streamSequence) = [1, 2] ∧
      FramesWellFormed log := by
  obtain ⟨log, computed, numbers⟩ := Option.map_eq_some_iff.mp joined_computed
  exact ⟨log, numbers, deltas_well_formed originConfig {} 7
    (GuardedRun.of_runLabels computed fun _ _ => trivial)⟩

end Run

end GeoWorld.Projection
