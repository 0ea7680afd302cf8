import Mathlib
import GeoWorld.Library.EditScript
import GeoWorld.Projection.BuildFrame

/-!
What the delta loop does with each id, read off the state before the loop, and
the result of a whole loop over distinct ids in terms of these actions. Both
candidate loops of `build_frame` are loops of one step over different lists.
-/

namespace GeoWorld.Projection

open WorldModel Library

namespace ConnectionProjection

def fidIn (connection : ConnectionProjection) (wid : WorldId) : FeatureId :=
  (connection.fidOf wid).getD 0

/-- Feature ids for a list of ids, allocated in order. -/
def ensureFids (connection : ConnectionProjection) (wids : List WorldId) :
    ConnectionProjection :=
  wids.foldl (fun connection wid => (connection.ensureFid wid).2) connection

theorem ensureFids_append_single (connection : ConnectionProjection) (wids : List WorldId)
    (wid : WorldId) : connection.ensureFids (wids ++ [wid]) =
      ((connection.ensureFids wids).ensureFid wid).2 := by
  simp only [ensureFids, List.foldl_append, List.foldl_cons, List.foldl_nil]

theorem ensureFid_fidOf_self (connection : ConnectionProjection) (wid : WorldId) :
    (connection.ensureFid wid).2.fidOf wid = some (connection.ensureFid wid).1 := by
  unfold ensureFid
  cases mapped : connection.fidOf wid with
  | some fid => exact mapped
  | none => simp [allocateFid, mapFid, fidOf]

theorem ensureFid_fidOf_of_mapped {connection : ConnectionProjection} {wid : WorldId}
    {fid : FeatureId} (mapped : connection.fidOf wid = some fid) (other : WorldId) :
    (connection.ensureFid other).2.fidOf wid = some fid := by
  unfold ensureFid
  cases found : connection.fidOf other with
  | some _ => exact mapped
  | none =>
    have different : wid ≠ other := by
      rintro rfl
      simp [mapped] at found
    simpa [allocateFid, mapFid, fidOf, lookup_insert_ne _ different] using mapped

theorem ensureFid_fst (connection : ConnectionProjection) (wid : WorldId) :
    (connection.ensureFid wid).1 = (connection.ensureFid wid).2.fidIn wid := by
  rw [fidIn, ensureFid_fidOf_self, Option.getD_some]

theorem ensureFids_mapped (connection : ConnectionProjection) {wids : List WorldId}
    {wid : WorldId} (member : wid ∈ wids) :
    ∃ fid, (connection.ensureFids wids).fidOf wid = some fid := by
  induction wids using List.reverseRecOn with
  | nil => simp at member
  | append_singleton rest last ih =>
    rw [ensureFids_append_single]
    rcases List.mem_append.mp member with earlier | final
    · obtain ⟨fid, mapped⟩ := ih earlier
      exact ⟨fid, ensureFid_fidOf_of_mapped mapped last⟩
    · obtain rfl := List.mem_singleton.mp final
      exact ⟨_, ensureFid_fidOf_self _ wid⟩

/-- Allocation touches nothing but the id tables. -/
theorem ensureFids_frame (connection : ConnectionProjection) (wids : List WorldId) :
    ∃ nextFid fidByWid widByFid, connection.ensureFids wids =
      { connection with nextFid := nextFid, fidByWid := fidByWid, widByFid := widByFid } := by
  induction wids using List.reverseRecOn with
  | nil => exact ⟨_, _, _, rfl⟩
  | append_singleton rest last ih =>
    obtain ⟨nextFid, fidByWid, widByFid, same⟩ := ih
    rw [ensureFids_append_single, same, ensureFid]
    split
    · exact ⟨_, _, _, rfl⟩
    · exact ⟨_, _, _, rfl⟩

end ConnectionProjection

open ConnectionProjection

/-- What the delta loop does with one id. -/
inductive WidAction where
  | skip
  | enter (state : EntityState)
  | throttle
  | update (entry : TrackedEntity) (state : EntityState)
  | leave (tracked : TrackedEntity)
  deriving DecidableEq

namespace WidAction

def isEnter : WidAction → Bool
  | enter _ => true
  | _ => false

def op (wid : WorldId) (fid : FeatureId) : WidAction → Option SentOp
  | enter state => some ⟨.enter, wid, fid, state.hash⟩
  | update entry state => some ⟨.update, wid, entry.fid, state.hash⟩
  | leave tracked => some ⟨.leave, wid, tracked.fid, 0⟩
  | skip => none
  | throttle => none

def enterEntry (wid : WorldId) (fid : FeatureId) : WidAction → Option EntityEnter
  | enter state => some ⟨wid, fid, { state.projected with fid := fid }⟩
  | _ => none

def updateEntry (wid : WorldId) : WidAction → Option EntityUpdate
  | update entry state => some ⟨wid, entry.fid, { state.projected with fid := entry.fid }⟩
  | _ => none

def leaveEntry (reason : LeaveReason) (wid : WorldId) : WidAction → Option EntityLeave
  | leave tracked => some ⟨wid, tracked.fid, reason⟩
  | _ => none

/-- The landing point of an id in the current view. -/
def landing (tick : UInt64) (fid : FeatureId) : WidAction → Option TrackedEntity
  | enter state => some ⟨fid, state.hash, state.projected.metadata.frequency, tick⟩
  | update entry state => some
      { entry with
        entityHash := state.hash
        frequency := state.projected.metadata.frequency
        lastSentTick := tick }
  | _ => none

def leaving : WidAction → Option FeatureId
  | leave tracked => some tracked.fid
  | _ => none

/-- The action has an operation to send. -/
def Sends (action : WidAction) : Prop :=
  action ≠ skip ∧ action ≠ throttle

instance (action : WidAction) : Decidable action.Sends :=
  inferInstanceAs (Decidable (_ ∧ _))

end WidAction

namespace ProjectionEngine

/-- The action of the delta loop on `wid`, from the state before the loop. -/
def widAction (engine : ProjectionEngine) (connection : ConnectionProjection)
    (visible : List WorldId) (tick : UInt64) (wid : WorldId) : WidAction :=
  if wid ∈ visible then
    match engine.globalView[wid]?, connection.ackedView[wid]? with
    | none, _ => .skip
    | some state, none => .enter state
    | some state, some entry =>
      if entry.entityHash = state.hash then .skip
      else if engine.Throttled connection.currentView tick wid
          state.projected.metadata.frequency then .throttle
      else .update entry state
  else
    match connection.ackedView[wid]? with
    | none => .skip
    | some tracked => .leave tracked

/-- One action carried out on the variables of the loop. -/
def runAction (engine : ProjectionEngine) (bounds : Option Aabb) (world : World)
    (tick : UInt64) (scan : DeltaScan) (wid : WorldId) : WidAction → DeltaScan
  | .skip => scan
  | .throttle => { scan with throttlePending := scan.throttlePending.insert wid }
  | .enter state =>
    { scan with
      connection := (scan.connection.ensureFid wid).2
      enters := scan.enters ++ [⟨wid, (scan.connection.ensureFid wid).1,
        { state.projected with fid := (scan.connection.ensureFid wid).1 }⟩]
      frameOps := scan.frameOps.insertIfNew wid
        ⟨(scan.connection.ensureFid wid).1, state.hash, state.projected.metadata.frequency,
          tick⟩
      ops := scan.ops ++ [⟨.enter, wid, (scan.connection.ensureFid wid).1, state.hash⟩] }
  | .update entry state =>
    { scan with
      updates := scan.updates ++
        [⟨wid, entry.fid, { state.projected with fid := entry.fid }⟩]
      frameOps := scan.frameOps.insertIfNew wid
        { entry with
          entityHash := state.hash
          frequency := state.projected.metadata.frequency
          lastSentTick := tick }
      ops := scan.ops ++ [⟨.update, wid, entry.fid, state.hash⟩] }
  | .leave tracked => engine.pushLeave bounds world scan wid tracked

theorem processCandidate_eq (engine : ProjectionEngine) (bounds : Option Aabb) (world : World)
    (connection : ConnectionProjection) (visible : List WorldId) (tick : UInt64)
    (scan : DeltaScan) (wid : WorldId) :
    engine.processCandidate bounds world connection.ackedView connection.currentView visible
        tick scan wid =
      engine.runAction bounds world tick scan wid
        (engine.widAction connection visible tick wid) := by
  unfold processCandidate widAction processVisibleWid
  split
  · cases engine.globalView[wid]? with
    | none => rfl
    | some state =>
      cases connection.ackedView[wid]? with
      | none => rfl
      | some entry =>
        simp only
        split
        · rfl
        · split <;> rfl
  · cases connection.ackedView[wid]? <;> rfl

/-- The ids of the full loop: the visible ones, then the acknowledged others. -/
def allWids (connection : ConnectionProjection) (visible : List WorldId) : List WorldId :=
  visible ++ connection.ackedView.keys.filter (· ∉ visible)

theorem mem_allWids (connection : ConnectionProjection) (visible : List WorldId)
    (wid : WorldId) :
    wid ∈ allWids connection visible ↔ wid ∈ visible ∨ wid ∈ connection.ackedView := by
  simp only [allWids, List.mem_append, List.mem_filter, Std.ExtTreeMap.mem_keys,
    decide_eq_true_eq]
  tauto

theorem allWids_nodup (connection : ConnectionProjection) {visible : List WorldId}
    (distinct : visible.Nodup) : (allWids connection visible).Nodup := by
  refine List.Nodup.append distinct (Std.ExtTreeMap.nodup_keys.filter _) ?_
  intro wid in_visible in_rest
  simp only [List.mem_filter, decide_eq_true_eq] at in_rest
  exact in_rest.2 in_visible

theorem scanAll_eq (engine : ProjectionEngine) (connection : ConnectionProjection)
    (bounds : Option Aabb) (world : World) (visible : List WorldId) (tick : UInt64) :
    engine.scanAll connection bounds world visible tick =
      (allWids connection visible).foldl
        (engine.processCandidate bounds world connection.ackedView connection.currentView
          visible tick)
        { connection := connection } := by
  have seen : ∀ scan, visible.foldl (engine.processVisibleWid connection.ackedView
        connection.currentView tick) scan =
      visible.foldl (engine.processCandidate bounds world connection.ackedView
        connection.currentView visible tick) scan := by
    intro scan
    refine List.foldl_ext _ _ _ fun scan wid member => ?_
    rw [processCandidate, if_pos member]
  have rest : ∀ scan, connection.ackedView.toList.foldl (fun scan entry =>
        if entry.1 ∈ visible then scan
        else engine.pushLeave bounds world scan entry.1 entry.2) scan =
      (connection.ackedView.keys.filter (· ∉ visible)).foldl (engine.processCandidate bounds
        world connection.ackedView connection.currentView visible tick) scan := by
    intro scan
    rw [List.foldl_filter, ← Std.ExtTreeMap.map_fst_toList_eq_keys, List.foldl_map]
    refine List.foldl_ext _ _ _ fun scan entry member => ?_
    have found := Std.ExtTreeMap.mem_toList_iff_getElem?_eq_some.mp member
    by_cases inside : entry.1 ∈ visible
    · simp [inside]
    · simp [inside, processCandidate, found]
  rw [scanAll, allWids, List.foldl_append, seen, rest]

end ProjectionEngine

end GeoWorld.Projection
