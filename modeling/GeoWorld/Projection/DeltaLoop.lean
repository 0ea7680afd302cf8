import Mathlib
import GeoWorld.Projection.DeltaActions

/-!
The result of the delta loop. `LoopResult` describes every variable of the loop
after it ran over a duplicate-free list of ids, by the action of each id; the
step lemma extends the list by one id and the loop lemma is its induction.
-/

namespace GeoWorld.Projection

open WorldModel Library ConnectionProjection ProjectionEngine

/-- The variables of the loop after it visited `wids`, starting from `connection`. -/
structure LoopResult (action : WorldId → WidAction) (reason : WorldId → LeaveReason)
    (tick : UInt64) (connection : ConnectionProjection) (wids : List WorldId)
    (scan : DeltaScan) : Prop where
  connection_eq : scan.connection =
    connection.ensureFids (wids.filter fun wid => (action wid).isEnter)
  enters_eq : scan.enters = wids.filterMap fun wid =>
    (action wid).enterEntry wid (scan.connection.fidIn wid)
  updates_eq : scan.updates = wids.filterMap fun wid => (action wid).updateEntry wid
  leaves_eq : scan.leaves = wids.filterMap fun wid =>
    (action wid).leaveEntry (reason wid) wid
  ops_eq : scan.ops = wids.filterMap fun wid =>
    (action wid).op wid (scan.connection.fidIn wid)
  frameOps_eq : ∀ wid, scan.frameOps[wid]? =
    if wid ∈ wids then (action wid).landing tick (scan.connection.fidIn wid) else none
  frameLeaves_eq : ∀ wid, scan.frameLeaves[wid]? =
    if wid ∈ wids then (action wid).leaving else none
  throttle_iff : ∀ wid, wid ∈ scan.throttlePending ↔ wid ∈ wids ∧ action wid = .throttle

section Lookup

variable {β : Type} {map : WidMap β} {wids : List WorldId} {wid : WorldId}
variable {f : WorldId → Option β}

/-- An id that leaves no entry behind. -/
theorem lookup_silent (spec : ∀ other, map[other]? = if other ∈ wids then f other else none)
    (silent : f wid = none) (other : WorldId) :
    map[other]? = if other ∈ wids ++ [wid] then f other else none := by
  by_cases same : other = wid
  · subst same
    simp [spec, silent]
  · simp [spec, same]

/-- An id that was not visited before leaves its entry. -/
theorem lookup_landed (spec : ∀ other, map[other]? = if other ∈ wids then f other else none)
    (fresh : wid ∉ wids) {value : β} (landed : f wid = some value) (other : WorldId) :
    (map.insertIfNew wid value)[other]? = if other ∈ wids ++ [wid] then f other else none := by
  have absent : map[wid]? = none := by rw [spec, if_neg fresh]
  simp only [Std.ExtTreeMap.getElem?_insertIfNew, Std.LawfulEqCmp.compare_eq_iff_eq,
    Std.ExtTreeMap.mem_iff_isSome_getElem?, absent]
  by_cases same : wid = other
  · subst same
    simp [landed]
  · simp [same, spec, Ne.symm same]

end Lookup

namespace LoopResult

variable {action : WorldId → WidAction} {reason : WorldId → LeaveReason} {tick : UInt64}
variable {connection : ConnectionProjection} {wids : List WorldId} {scan : DeltaScan}

theorem initial (action : WorldId → WidAction) (reason : WorldId → LeaveReason)
    (tick : UInt64) (connection : ConnectionProjection) :
    LoopResult action reason tick connection [] { connection := connection } := by
  constructor <;> simp [ensureFids]

/-- Ids that were entered before keep their feature id. -/
theorem fidIn_ensureFid (result : LoopResult action reason tick connection wids scan)
    {wid : WorldId} (member : wid ∈ wids) (entered : (action wid).isEnter = true)
    (other : WorldId) :
    (scan.connection.ensureFid other).2.fidIn wid = scan.connection.fidIn wid := by
  have in_entered : wid ∈ wids.filter fun wid => (action wid).isEnter := by
    simp [member, entered]
  obtain ⟨fid, mapped⟩ := ensureFids_mapped connection in_entered
  rw [← result.connection_eq] at mapped
  rw [fidIn, fidIn, ensureFid_fidOf_of_mapped mapped, mapped]

theorem enterEntry_stable (result : LoopResult action reason tick connection wids scan)
    {wid : WorldId} (member : wid ∈ wids) (other : WorldId) :
    (action wid).enterEntry wid ((scan.connection.ensureFid other).2.fidIn wid) =
      (action wid).enterEntry wid (scan.connection.fidIn wid) := by
  cases acts : action wid with
  | enter state => rw [result.fidIn_ensureFid member (by rw [acts]; rfl)]
  | _ => rfl

theorem op_stable (result : LoopResult action reason tick connection wids scan)
    {wid : WorldId} (member : wid ∈ wids) (other : WorldId) :
    (action wid).op wid ((scan.connection.ensureFid other).2.fidIn wid) =
      (action wid).op wid (scan.connection.fidIn wid) := by
  cases acts : action wid with
  | enter state => rw [result.fidIn_ensureFid member (by rw [acts]; rfl)]
  | _ => rfl

theorem landing_stable (result : LoopResult action reason tick connection wids scan)
    {wid : WorldId} (member : wid ∈ wids) (other : WorldId) :
    (action wid).landing tick ((scan.connection.ensureFid other).2.fidIn wid) =
      (action wid).landing tick (scan.connection.fidIn wid) := by
  cases acts : action wid with
  | enter state => rw [result.fidIn_ensureFid member (by rw [acts]; rfl)]
  | _ => rfl

section Extend

variable {engine : ProjectionEngine} {bounds : Option Aabb} {world : World} {wid : WorldId}
variable {state : EntityState} {entry tracked : TrackedEntity}

theorem landing_silent (result : LoopResult action reason tick connection wids scan)
    (silent : ∀ fid, (action wid).landing tick fid = none) (other : WorldId) :
    scan.frameOps[other]? = if other ∈ wids ++ [wid] then
      (action other).landing tick (scan.connection.fidIn other) else none :=
  @lookup_silent _ _ _ _ (fun other => (action other).landing tick (scan.connection.fidIn other))
    result.frameOps_eq (silent _) other

theorem leaving_silent (result : LoopResult action reason tick connection wids scan)
    (silent : (action wid).leaving = none) (other : WorldId) :
    scan.frameLeaves[other]? = if other ∈ wids ++ [wid] then (action other).leaving else none :=
  @lookup_silent _ _ _ _ (fun other => (action other).leaving) result.frameLeaves_eq silent other

theorem throttle_silent (result : LoopResult action reason tick connection wids scan)
    (other_action : action wid ≠ .throttle) (other : WorldId) :
    other ∈ scan.throttlePending ↔ other ∈ wids ++ [wid] ∧ action other = .throttle := by
  rw [result.throttle_iff]
  grind

theorem skip (result : LoopResult action reason tick connection wids scan)
    (acts : action wid = .skip) :
    LoopResult action reason tick connection (wids ++ [wid])
      (engine.runAction bounds world tick scan wid .skip) := by
  constructor
  · simpa [acts, WidAction.isEnter, ProjectionEngine.runAction] using result.connection_eq
  · simpa [acts, WidAction.enterEntry, ProjectionEngine.runAction] using result.enters_eq
  · simpa [acts, WidAction.updateEntry, ProjectionEngine.runAction] using result.updates_eq
  · simpa [acts, WidAction.leaveEntry, ProjectionEngine.runAction] using result.leaves_eq
  · simpa [acts, WidAction.op, ProjectionEngine.runAction] using result.ops_eq
  · exact result.landing_silent fun fid => by rw [acts]; rfl
  · exact result.leaving_silent (by rw [acts]; rfl)
  · exact result.throttle_silent (by simp [acts])

theorem throttle (result : LoopResult action reason tick connection wids scan)
    (acts : action wid = .throttle) :
    LoopResult action reason tick connection (wids ++ [wid])
      (engine.runAction bounds world tick scan wid .throttle) := by
  constructor
  · simpa [acts, WidAction.isEnter, ProjectionEngine.runAction] using result.connection_eq
  · simpa [acts, WidAction.enterEntry, ProjectionEngine.runAction] using result.enters_eq
  · simpa [acts, WidAction.updateEntry, ProjectionEngine.runAction] using result.updates_eq
  · simpa [acts, WidAction.leaveEntry, ProjectionEngine.runAction] using result.leaves_eq
  · simpa [acts, WidAction.op, ProjectionEngine.runAction] using result.ops_eq
  · exact result.landing_silent fun fid => by rw [acts]; rfl
  · exact result.leaving_silent (by rw [acts]; rfl)
  · intro other
    simp only [ProjectionEngine.runAction, Std.ExtTreeSet.mem_insert, result.throttle_iff,
      Std.LawfulEqCmp.compare_eq_iff_eq]
    grind

/-- The ids visited before keep what the new feature id could have changed. -/
theorem enter (result : LoopResult action reason tick connection wids scan)
    (fresh : wid ∉ wids) (acts : action wid = .enter state) :
    LoopResult action reason tick connection (wids ++ [wid])
      (engine.runAction bounds world tick scan wid (.enter state)) := by
  have stable_map : ∀ {β : Type} (f : WorldId → FeatureId → Option β),
      (∀ other ∈ wids, f other ((scan.connection.ensureFid wid).2.fidIn other) =
        f other (scan.connection.fidIn other)) →
      wids.filterMap (fun other => f other ((scan.connection.ensureFid wid).2.fidIn other)) =
        wids.filterMap fun other => f other (scan.connection.fidIn other) := by
    intro β f stable
    exact List.filterMap_congr stable
  constructor
  · have entered : (action wid).isEnter = true := by rw [acts]; rfl
    have extended : (wids ++ [wid]).filter (fun wid => (action wid).isEnter) =
        (wids.filter fun wid => (action wid).isEnter) ++ [wid] := by
      simp only [List.filter_append, List.filter_cons, List.filter_nil, entered, if_true]
    rw [extended, ensureFids_append_single, ← result.connection_eq]
    rfl
  · simp only [ProjectionEngine.runAction, List.filterMap_append]
    rw [stable_map (fun w fid => (action w).enterEntry w fid)
      fun other member => result.enterEntry_stable member wid, ← result.enters_eq]
    simp [acts, WidAction.enterEntry, ensureFid_fst]
  · simpa [acts, WidAction.updateEntry, ProjectionEngine.runAction] using result.updates_eq
  · simpa [acts, WidAction.leaveEntry, ProjectionEngine.runAction] using result.leaves_eq
  · simp only [ProjectionEngine.runAction, List.filterMap_append]
    rw [stable_map (fun w fid => (action w).op w fid)
      fun other member => result.op_stable member wid, ← result.ops_eq]
    simp [acts, WidAction.op, ensureFid_fst]
  · refine lookup_landed (fun other => ?_) fresh
      (by simp [acts, WidAction.landing, ProjectionEngine.runAction, ensureFid_fst])
    by_cases member : other ∈ wids
    · simp [member, result.frameOps_eq other, ProjectionEngine.runAction,
        result.landing_stable member wid]
    · simp [member, result.frameOps_eq other]
  · exact result.leaving_silent (by rw [acts]; rfl)
  · exact result.throttle_silent (by simp [acts])

theorem update (result : LoopResult action reason tick connection wids scan)
    (fresh : wid ∉ wids) (acts : action wid = .update entry state) :
    LoopResult action reason tick connection (wids ++ [wid])
      (engine.runAction bounds world tick scan wid (.update entry state)) := by
  constructor
  · simpa [acts, WidAction.isEnter, ProjectionEngine.runAction] using result.connection_eq
  · simpa [acts, WidAction.enterEntry, ProjectionEngine.runAction] using result.enters_eq
  · simpa [acts, WidAction.updateEntry, ProjectionEngine.runAction] using result.updates_eq
  · simpa [acts, WidAction.leaveEntry, ProjectionEngine.runAction] using result.leaves_eq
  · simpa [acts, WidAction.op, ProjectionEngine.runAction] using result.ops_eq
  · exact lookup_landed result.frameOps_eq fresh (by simp [acts, WidAction.landing])
  · exact result.leaving_silent (by rw [acts]; rfl)
  · exact result.throttle_silent (by simp [acts])

theorem leave (result : LoopResult action reason tick connection wids scan)
    (fresh : wid ∉ wids) (acts : action wid = .leave tracked)
    (reason_eq : reason wid = engine.leaveReason scan.connection bounds world wid) :
    LoopResult action reason tick connection (wids ++ [wid])
      (engine.runAction bounds world tick scan wid (.leave tracked)) := by
  constructor
  · simpa [acts, WidAction.isEnter, ProjectionEngine.runAction, ProjectionEngine.pushLeave]
      using result.connection_eq
  · simpa [acts, WidAction.enterEntry, ProjectionEngine.runAction, ProjectionEngine.pushLeave]
      using result.enters_eq
  · simpa [acts, WidAction.updateEntry, ProjectionEngine.runAction, ProjectionEngine.pushLeave]
      using result.updates_eq
  · simpa [acts, WidAction.leaveEntry, ProjectionEngine.runAction, ProjectionEngine.pushLeave,
      reason_eq] using result.leaves_eq
  · simpa [acts, WidAction.op, ProjectionEngine.runAction, ProjectionEngine.pushLeave]
      using result.ops_eq
  · exact result.landing_silent fun fid => by rw [acts]; rfl
  · exact lookup_landed result.frameLeaves_eq fresh (by simp [acts, WidAction.leaving])
  · exact result.throttle_silent (by simp [acts])

/-- One more id, not visited before, carried out by its action. -/
theorem extend (result : LoopResult action reason tick connection wids scan)
    (fresh : wid ∉ wids)
    (reason_eq : reason wid = engine.leaveReason scan.connection bounds world wid) :
    LoopResult action reason tick connection (wids ++ [wid])
      (engine.runAction bounds world tick scan wid (action wid)) := by
  cases acts : action wid with
  | skip => exact result.skip acts
  | throttle => exact result.throttle acts
  | enter state => exact result.enter fresh acts
  | update entry state => exact result.update fresh acts
  | leave tracked => exact result.leave fresh acts reason_eq

end Extend

end LoopResult

namespace ProjectionEngine

theorem leaveReason_ensureFids (engine : ProjectionEngine) (connection : ConnectionProjection)
    (wids : List WorldId) (bounds : Option Aabb) (world : World) (wid : WorldId) :
    engine.leaveReason (connection.ensureFids wids) bounds world wid =
      engine.leaveReason connection bounds world wid := by
  obtain ⟨_, _, _, frame⟩ := ensureFids_frame connection wids
  simp only [leaveReason, frame]

/-- The delta loop over distinct ids carries out the action of each of them. -/
theorem loopResult (engine : ProjectionEngine) (bounds : Option Aabb) (world : World)
    (connection : ConnectionProjection) (visible : List WorldId) (tick : UInt64)
    {wids : List WorldId} (distinct : wids.Nodup) :
    LoopResult (engine.widAction connection visible tick)
      (engine.leaveReason connection bounds world) tick connection wids
      (wids.foldl (engine.processCandidate bounds world connection.ackedView
        connection.currentView visible tick) { connection := connection }) := by
  induction wids using List.reverseRecOn with
  | nil => exact LoopResult.initial _ _ tick connection
  | append_singleton rest wid ih =>
    obtain ⟨distinct_rest, -, apart⟩ := List.nodup_append.mp distinct
    have result := ih distinct_rest
    rw [List.foldl_append, List.foldl_cons, List.foldl_nil, processCandidate_eq]
    refine result.extend (fun member => apart wid member wid (by simp) rfl) ?_
    rw [result.connection_eq, leaveReason_ensureFids]

end ProjectionEngine

end GeoWorld.Projection
