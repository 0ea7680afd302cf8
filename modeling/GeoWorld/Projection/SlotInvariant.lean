import Mathlib
import GeoWorld.Projection.EngineInvariant

/-!
Frames built from a sound slot, and the invariant of whole runs. The plan of a
build resolves a duplicate-free list of known visible ids; both kinds of frame
keep the invariant of the slot; every public operation keeps the invariant of
the engine, so it holds in every reachable state.
-/

namespace GeoWorld.Projection

open WorldModel Library ConnectionProjection ProjectionEngine

/-- A cached visible set that may still be used names only known ids, in ascending order. -/
structure CacheInv (engine : ProjectionEngine) (cache : VisibleCache) : Prop where
  revision_le : cache.spatialRevision ≤ engine.spatialRevision
  known : cache.valid = true → cache.spatialRevision = engine.spatialRevision →
    VisibleKnown engine cache.visible
  ascending : cache.visible.Pairwise (· < ·)

theorem CacheInv.initial (engine : ProjectionEngine) : CacheInv engine {} :=
  ⟨Nat.zero_le _, fun valid => absurd valid Bool.false_ne_true, List.Pairwise.nil⟩

theorem CacheInv.refresh {before after : ProjectionEngine} {cache : VisibleCache}
    (inv : CacheInv before cache) (step : Refreshes before after) : CacheInv after cache where
  revision_le := inv.revision_le.trans step.revision_le
  known valid same wid member := by
    have below := inv.revision_le
    have above := step.revision_le
    exact step.grows (by omega) wid (inv.known valid (by omega) wid member)
  ascending := inv.ascending

section Visible

variable {engine : ProjectionEngine} (inv : GlobalInv engine)

include inv in
theorem queryVisible_known (bounds : Option Aabb) :
    VisibleKnown engine (engine.queryVisible bounds) := by
  intro wid member
  cases bounds with
  | none => simp [queryVisible] at member
  | some area =>
    obtain ⟨cell, -, in_cell⟩ := DynamicCellIndex.mem_query.mp member
    exact inv.index_known wid cell ((inv.index_consistent wid cell).mp in_cell)

theorem queryVisible_ascending (engine : ProjectionEngine) (bounds : Option Aabb) :
    (engine.queryVisible bounds).Pairwise (· < ·) := by
  cases bounds with
  | none => exact List.Pairwise.nil
  | some area => exact DynamicCellIndex.query_ascending _ _ _

include inv in
theorem resolveVisible_sound {cache : VisibleCache} (cached : CacheInv engine cache)
    (connection : ConnectionProjection) (bounds : Option Aabb) (world : World) :
    (engine.resolveVisible connection cache bounds world).visible.Pairwise (· < ·) ∧
      VisibleKnown engine (engine.resolveVisible connection cache bounds world).visible ∧
      CacheInv engine (engine.resolveVisible connection cache bounds world).cache := by
  unfold resolveVisible
  cases engine.relevanceFilter with
  | some relevant =>
    refine ⟨(queryVisible_ascending engine bounds).filter _, fun wid member => ?_, cached⟩
    exact queryVisible_known inv bounds wid (List.mem_of_mem_filter member)
  | none =>
    simp only
    split
    · next hit =>
      obtain ⟨valid, -, -, revision⟩ := hit
      exact ⟨cached.ascending, cached.known valid revision, cached⟩
    · exact ⟨queryVisible_ascending engine bounds, queryVisible_known inv bounds,
        ⟨le_rfl, fun _ _ => queryVisible_known inv bounds, queryVisible_ascending engine bounds⟩⟩

end Visible

/-- The ids the candidate loop of a plan visits. -/
def loopWids (engine : ProjectionEngine) (pendingCandidates : WidSet) (plan : FramePlan) :
    List WorldId :=
  if plan.fromCache then engine.candidates plan.connection pendingCandidates plan.visible
  else allWids plan.connection plan.visible

theorem candidates_nodup (engine : ProjectionEngine) (connection : ConnectionProjection)
    (pendingCandidates : WidSet) (visible : List WorldId) :
    (engine.candidates connection pendingCandidates visible).Nodup :=
  List.nodup_dedup _

theorem loopWids_nodup (engine : ProjectionEngine) (pendingCandidates : WidSet)
    {plan : FramePlan} (distinct : plan.visible.Nodup) :
    (loopWids engine pendingCandidates plan).Nodup := by
  unfold loopWids
  split
  · exact candidates_nodup _ _ _ _
  · exact allWids_nodup _ distinct

/-- The loop of a plan carries out the action of every id it visits. -/
theorem scanDelta_result (engine : ProjectionEngine) (world : World) (tick : UInt64)
    (pendingCandidates : WidSet) {plan : FramePlan} (distinct : plan.visible.Nodup) :
    LoopResult (engine.widAction plan.connection plan.visible tick)
      (engine.leaveReason plan.connection plan.bounds world) tick plan.connection
      (loopWids engine pendingCandidates plan)
      (engine.scanDelta world tick pendingCandidates plan) := by
  have result := engine.loopResult plan.bounds world plan.connection plan.visible tick
    (loopWids_nodup engine pendingCandidates distinct)
  unfold scanDelta
  unfold loopWids at result ⊢
  split
  · next cached =>
    rw [if_pos cached] at result
    exact result
  · next uncached =>
    rw [if_neg uncached] at result
    rw [scanAll_eq]
    exact result

theorem widAction_sound {engine : ProjectionEngine} (hashes : HashesMatch engine)
    (connection : ConnectionProjection) (visible : List WorldId) (tick : UInt64) :
    ActionsSound connection.ackedView (engine.widAction connection visible tick) := by
  have cases_of : ∀ wid, (∀ entry state,
      engine.widAction connection visible tick wid = .update entry state →
        connection.ackedView[wid]? = some entry ∧ engine.globalView[wid]? = some state) ∧
      (∀ state, engine.widAction connection visible tick wid = .enter state →
        engine.globalView[wid]? = some state) := by
    intro wid
    unfold widAction
    by_cases seen : wid ∈ visible
    · simp only [seen, if_true]
      cases found : engine.globalView[wid]? with
      | none => simp
      | some state =>
        cases acked : connection.ackedView[wid]? with
        | none => simp
        | some entry =>
          simp only
          split_ifs <;> simp
    · simp only [seen, if_false]
      cases connection.ackedView[wid]? <;> simp
  refine ⟨fun wid entry state acts => ((cases_of wid).1 entry state acts).1,
    fun wid state acts => hashes wid state ((cases_of wid).2 state acts),
    fun wid entry state acts => hashes wid state ((cases_of wid).1 entry state acts).2⟩

/-- The invariant of one slot between operations. -/
structure SlotInv (engine : ProjectionEngine) (slot : Slot) : Prop where
  connection_inv : ConnectionInv engine.latestSnapshotId slot.connection
  cache_inv : CacheInv engine slot.visibleCache

/-- The invariant a build relies on: the connection as of the previous snapshot. -/
structure BuildReady (engine : ProjectionEngine) (slot : Slot) : Prop where
  global_inv : GlobalInv engine
  connection_inv : ∃ latest, engine.latestSnapshotId = latest + 1 ∧
    ConnectionInv latest slot.connection
  cache_inv : CacheInv engine slot.visibleCache

namespace BuildReady

variable {engine : ProjectionEngine} {slot : Slot} (ready : BuildReady engine slot)

include ready in
theorem plan_ascending (world : World) (tick : UInt64) :
    (engine.planFrame world tick slot).visible.Pairwise (· < ·) :=
  (resolveVisible_sound ready.global_inv ready.cache_inv _ _ _).1

include ready in
theorem plan_sound (world : World) (tick : UInt64) :
    (engine.planFrame world tick slot).visible.Nodup ∧
      VisibleKnown engine (engine.planFrame world tick slot).visible ∧
      CacheInv engine (engine.planFrame world tick slot).cache :=
  ⟨(ready.plan_ascending world tick).imp fun before => UInt64.ne_of_lt before,
    (resolveVisible_sound ready.global_inv ready.cache_inv _ _ _).2⟩

include ready in
theorem plan_connection (world : World) (tick : UInt64) :
    ∃ latest, engine.latestSnapshotId = latest + 1 ∧
      ConnectionInv latest (engine.planFrame world tick slot).connection := by
  obtain ⟨latest, next, inv⟩ := ready.connection_inv
  refine ⟨latest, next, ?_⟩
  unfold planFrame
  simp only
  split
  · exact ConnectionInv.resetEpoch _ _ _ _
  · exact inv

/-- A plan that is not forced to a keyframe has no keyframe pending. -/
theorem plan_unforced {world : World} {tick : UInt64}
    (unforced : (engine.planFrame world tick slot).forced = false) :
    (engine.planFrame world tick slot).connection = slot.connection ∧
      slot.connection.needsKeyframe = false := by
  unfold planFrame at unforced ⊢
  simp only [Bool.or_eq_false_iff, decide_eq_false_iff_not] at unforced ⊢
  obtain ⟨⟨unneeded, -⟩, room⟩ := unforced
  exact ⟨if_neg room, unneeded⟩

end BuildReady

theorem ensureFids_currentView (connection : ConnectionProjection) (wids : List WorldId) :
    (connection.ensureFids wids).currentView = connection.currentView := by
  obtain ⟨_, _, _, frame⟩ := ensureFids_frame connection wids
  rw [frame]

/-- Feature ids of the operations a delta records. -/
theorem sent_op_fids (engine : ProjectionEngine) {action : WorldId → WidAction}
    {reason : WorldId → LeaveReason} {tick : UInt64} {connection : ConnectionProjection}
    {wids : List WorldId} {scan : DeltaScan} {latest : Nat}
    (result : LoopResult action reason tick connection wids scan) (distinct : wids.Nodup)
    (sound : ActionsSound connection.ackedView action)
    (core : ConnectionCore latest connection) :
    ∀ op ∈ (engine.trimUpdates connection.ackedView scan).ops, op.kind ≠ .leave →
      scan.connection.fidByWid[op.wid]? = some op.fid := by
  intro op member kind
  obtain ⟨wid, in_wids, found, -⟩ :=
    (mem_trimUpdates_ops result distinct sound core.acked_injective op).mp member
  have core' : ConnectionCore latest scan.connection := by
    rw [result.connection_eq]
    exact core.ensureFids _
  cases acts : action wid with
  | enter state =>
    simp only [acts, WidAction.op, Option.some.injEq] at found
    subst found
    have entered : wid ∈ wids.filter fun wid => (action wid).isEnter := by
      simp [in_wids, acts, WidAction.isEnter]
    obtain ⟨fid, mapped⟩ := ensureFids_mapped connection entered
    rw [← result.connection_eq] at mapped
    have same : scan.connection.fidIn wid = fid := by rw [fidIn, mapped, Option.getD_some]
    rw [same]
    exact mapped
  | update entry state =>
    simp only [acts, WidAction.op, Option.some.injEq] at found
    subst found
    have acked_eq : scan.connection.ackedView = connection.ackedView := by
      obtain ⟨_, _, _, frame⟩ := ensureFids_frame connection
        (wids.filter fun wid => (action wid).isEnter)
      rw [result.connection_eq, frame]
    exact core'.acked_fid wid entry (by rw [acked_eq]; exact sound.update_acked wid entry state acts)
  | leave tracked =>
    simp only [acts, WidAction.op, Option.some.injEq] at found
    subst found
    exact absurd rfl kind
  | _ => simp [acts, WidAction.op] at found

/-- The delta branch keeps the invariant of the connection. -/
theorem finishDelta_inv {engine : ProjectionEngine} {action : WorldId → WidAction}
    {reason : WorldId → LeaveReason} {tick : UInt64} {connection : ConnectionProjection}
    {wids : List WorldId} {scan : DeltaScan} {latest : Nat}
    (result : LoopResult action reason tick connection wids scan) (distinct : wids.Nodup)
    (sound : ActionsSound connection.ackedView action)
    (inv : ConnectionInv latest connection) (unneeded : connection.needsKeyframe = false)
    (next : engine.latestSnapshotId = latest + 1) :
    ConnectionInv engine.latestSnapshotId (engine.finishDelta connection tick scan).2 := by
  have injective := inv.acked_injective
  have core' : ConnectionCore latest scan.connection := by
    rw [result.connection_eq]
    exact inv.toConnectionCore.ensureFids _
  obtain ⟨nextFid, fidByWid, widByFid, frame⟩ := ensureFids_frame connection
    (wids.filter fun wid => (action wid).isEnter)
  rw [← result.connection_eq] at frame
  unfold finishDelta
  split
  · refine ConnectionInv.mono ⟨core', fun _ wid unsettled => ?_⟩ (next ▸ Nat.le_succ latest)
    rw [frame] at unsettled ⊢
    exact inv.settled unneeded wid unsettled
  · have op_fids := sent_op_fids engine result distinct sound inv.toConnectionCore
    refine ConnectionInv.commitFrame ?_ next ?_ ?_
    · rw [trimUpdates_connection]
      exact { core' with }
    · rw [trimUpdates_connection]
      exact op_fids
    · intro wid _ silent
      have view := congrFun (delta_view engine result distinct sound injective
        (inv.settled unneeded)) wid
      have untouched : wid ∉ touched
          ((engine.trimUpdates connection.ackedView scan).ops.map SentOp.edit) := by
        simpa [touched, SentOp.edit] using silent
      rw [applyScript_untouched _ untouched] at view
      have acked_eq : scan.connection.ackedView = connection.ackedView := by rw [frame]
      simp only [trimUpdates_connection, acked_eq]
      exact view

theorem buildFrame_inv {engine : ProjectionEngine} {slot : Slot}
    (ready : BuildReady engine slot) (world : World) (tick : UInt64) :
    SlotInv engine (engine.buildFrame world tick slot).2 := by
  obtain ⟨distinct, known, cache⟩ := ready.plan_sound world tick
  obtain ⟨latest, next, inv⟩ := ready.plan_connection world tick
  unfold buildFrame
  simp only
  split
  · exact ⟨buildKeyframe_inv distinct known inv.toConnectionCore next _, cache⟩
  · next undue =>
    simp only [Bool.or_eq_true, not_or, Bool.not_eq_true] at undue
    obtain ⟨same, unneeded⟩ := BuildReady.plan_unforced undue.1
    refine ⟨?_, cache⟩
    exact finishDelta_inv (scanDelta_result engine world tick slot.throttlePending distinct)
      (loopWids_nodup engine slot.throttlePending distinct)
      (widAction_sound ready.global_inv.hashes _ _ _) inv (by rw [same]; exact unneeded) next

/-- The invariant of the engine. -/
structure EngineInv (engine : ProjectionEngine) : Prop where
  global_inv : GlobalInv engine
  slots : ∀ (id : ConnectionId) (slot : Slot), engine.connections[id]? = some slot →
    SlotInv engine slot

theorem EngineInv.initial (config : ProjectionConfig) (policy : ProjectionPolicy) :
    EngineInv { config := config, policy := policy } := by
  refine ⟨⟨DynamicCellIndex.consistent_empty, ?_, ?_⟩, ?_⟩
  · intro wid cell located
    simp at located
  · intro wid state found
    simp at found
  · intro id slot found
    simp at found

namespace EngineInv

variable {engine : ProjectionEngine} (inv : EngineInv engine)

include inv in
/-- Every slot of a refreshed engine is ready for its build. -/
theorem buildReady {world : World} {tick : UInt64} {refreshed : ProjectionEngine}
    (refresh : engine.refreshGlobalView world tick = some refreshed) {id : ConnectionId}
    {slot : Slot} (found : refreshed.connections[id]? = some slot) :
    BuildReady refreshed slot := by
  obtain ⟨global, steps⟩ := refreshGlobalView_step inv.global_inv refresh
  have found' : engine.connections[id]? = some slot := by
    rw [steps.connections_eq] at found
    exact found
  have before := inv.slots id slot found'
  refine ⟨global, ⟨engine.latestSnapshotId, steps.snapshot_eq, before.connection_inv⟩, ?_⟩
  have start : CacheInv (engine.tickStart tick) slot.visibleCache :=
    ⟨before.cache_inv.revision_le, before.cache_inv.known, before.cache_inv.ascending⟩
  exact start.refresh steps

include inv in
theorem onProjection {world : World} {tick : UInt64} {after : ProjectionEngine}
    (step : engine.onProjection world tick = some after) : EngineInv after := by
  obtain ⟨refreshed, refresh, rfl⟩ := Option.map_eq_some_iff.mp step
  obtain ⟨global, -⟩ := refreshGlobalView_step inv.global_inv refresh
  refine ⟨⟨global.index_consistent, global.index_known, global.hashes⟩, ?_⟩
  intro id slot found
  simp only [Std.ExtTreeMap.getElem?_map] at found
  obtain ⟨old, found_old, rfl⟩ := Option.map_eq_some_iff.mp found
  have built := buildFrame_inv (inv.buildReady refresh found_old) world tick
  exact ⟨built.connection_inv, ⟨built.cache_inv.revision_le, built.cache_inv.known,
    built.cache_inv.ascending⟩⟩

include inv in
/-- Replacing a slot by a sound one. -/
theorem setSlot {id : ConnectionId} {slot : Slot} (sound : SlotInv engine slot) :
    EngineInv { engine with connections := engine.connections.insert id slot } := by
  refine ⟨⟨inv.global_inv.index_consistent, inv.global_inv.index_known,
    inv.global_inv.hashes⟩, fun other found_slot found => ?_⟩
  simp only [lookup_insert] at found
  split at found
  · obtain rfl := Option.some.inj found
    exact ⟨sound.connection_inv, ⟨sound.cache_inv.revision_le, sound.cache_inv.known,
      sound.cache_inv.ascending⟩⟩
  · have before := inv.slots other found_slot found
    exact ⟨before.connection_inv, ⟨before.cache_inv.revision_le, before.cache_inv.known,
      before.cache_inv.ascending⟩⟩

include inv in
theorem modifyConnection (id : ConnectionId)
    (change : ConnectionProjection → ConnectionProjection)
    (keeps : ∀ connection, ConnectionInv engine.latestSnapshotId connection →
      ConnectionInv engine.latestSnapshotId (change connection)) :
    EngineInv (engine.modifyConnection id change).2 := by
  unfold ProjectionEngine.modifyConnection
  cases found : engine.connections[id]? with
  | none => exact inv
  | some slot =>
    have before := inv.slots id slot found
    exact inv.setSlot ⟨keeps _ before.connection_inv, before.cache_inv⟩

include inv in
/-- Every public operation keeps the invariant. -/
theorem step {event : EngineEvent} {after : ProjectionEngine}
    (stepped : engine.step event = some after) : EngineInv after := by
  cases event with
  | onProjection world tick => exact inv.onProjection stepped
  | addConnection id subscription =>
    obtain rfl := Option.some.inj stepped
    unfold ProjectionEngine.addConnection
    split
    · exact inv
    · exact inv.setSlot ⟨ConnectionInv.fresh id subscription _, CacheInv.initial engine⟩
  | removeConnection id =>
    obtain rfl := Option.some.inj stepped
    refine ⟨⟨inv.global_inv.index_consistent, inv.global_inv.index_known,
      inv.global_inv.hashes⟩, fun other slot found => ?_⟩
    simp only [ProjectionEngine.removeConnection, lookup_erase] at found
    split at found
    · cases found
    · have before := inv.slots other slot found
      exact ⟨before.connection_inv, ⟨before.cache_inv.revision_le, before.cache_inv.known,
        before.cache_inv.ascending⟩⟩
  | updateSubscription id subscription =>
    obtain rfl := Option.some.inj stepped
    exact inv.modifyConnection id _ fun _ before => before.setSubscription subscription
  | resetStreamEpoch id =>
    obtain rfl := Option.some.inj stepped
    exact inv.modifyConnection id _ fun connection _ =>
      ConnectionInv.resetEpoch connection _ _ _
  | scheduleKeyframe id =>
    obtain rfl := Option.some.inj stepped
    exact inv.modifyConnection id _ fun _ before => before.scheduleKeyframe
  | nextFrame id =>
    obtain rfl := Option.some.inj stepped
    unfold ProjectionEngine.nextFrame
    cases found : engine.connections[id]? with
    | none => exact inv
    | some slot =>
      have before := inv.slots id slot found
      exact inv.setSlot ⟨before.connection_inv, before.cache_inv⟩
  | acknowledge id snapshotId =>
    obtain rfl := Option.some.inj stepped
    unfold ProjectionEngine.acknowledge
    cases found : engine.connections[id]? with
    | none => exact inv
    | some slot =>
      have before := inv.slots id slot found
      exact inv.setSlot ⟨before.connection_inv.acknowledge snapshotId, before.cache_inv⟩
  | changePolicy change =>
    obtain rfl := Option.some.inj stepped
    refine ⟨⟨inv.global_inv.index_consistent, inv.global_inv.index_known,
      inv.global_inv.hashes⟩, fun id slot found => ?_⟩
    have before := inv.slots id slot found
    exact ⟨before.connection_inv, ⟨before.cache_inv.revision_le, before.cache_inv.known,
      before.cache_inv.ascending⟩⟩
  | setRelevanceFilter filter =>
    obtain rfl := Option.some.inj stepped
    refine ⟨⟨inv.global_inv.index_consistent, inv.global_inv.index_known,
      inv.global_inv.hashes⟩, fun id slot found => ?_⟩
    have before := inv.slots id slot found
    exact ⟨before.connection_inv, ⟨before.cache_inv.revision_le, before.cache_inv.known,
      before.cache_inv.ascending⟩⟩

end EngineInv

end GeoWorld.Projection
