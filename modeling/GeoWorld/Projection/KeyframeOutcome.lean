import Mathlib
import GeoWorld.Projection.ConnectionInvariant

/-!
The outcome of a keyframe build. The scan over the visible ids is the delta loop
with every known id entering, so its result is described by the same lemma. The
keyframe, and the current view it leaves behind, hold exactly the visible ids
of the global view; its record additionally drops the acknowledged others.
-/

namespace GeoWorld.Projection

open WorldModel Library ConnectionProjection ProjectionEngine

namespace ProjectionEngine

def keyframeAction (engine : ProjectionEngine) (wid : WorldId) : WidAction :=
  match engine.globalView[wid]? with
  | none => .skip
  | some state => .enter state

/-- The keyframe scan in the variables of the delta loop. -/
def KeyframeScan.asDelta (scan : KeyframeScan) : DeltaScan where
  connection := scan.connection
  enters := scan.entities
  ops := scan.ops
  frameOps := scan.nextView

theorem keyframeEnter_asDelta (engine : ProjectionEngine) (bounds : Option Aabb)
    (world : World) (tick : UInt64) (scan : KeyframeScan) (wid : WorldId) :
    (engine.keyframeEnter tick scan wid).asDelta =
      engine.runAction bounds world tick scan.asDelta wid (engine.keyframeAction wid) := by
  unfold keyframeEnter keyframeAction
  cases engine.globalView[wid]? with
  | none => rfl
  | some state => rfl

def keyframeScan (engine : ProjectionEngine) (connection : ConnectionProjection)
    (visible : List WorldId) (tick : UInt64) : KeyframeScan :=
  visible.foldl (engine.keyframeEnter tick) { connection := connection }

theorem keyframeScan_result (engine : ProjectionEngine) (connection : ConnectionProjection)
    {visible : List WorldId} (tick : UInt64) (distinct : visible.Nodup) :
    LoopResult engine.keyframeAction (engine.leaveReason connection none {}) tick connection
      visible (engine.keyframeScan connection visible tick).asDelta := by
  unfold keyframeScan
  induction visible using List.reverseRecOn with
  | nil => exact LoopResult.initial _ _ tick connection
  | append_singleton rest wid ih =>
    obtain ⟨distinct_rest, -, apart⟩ := List.nodup_append.mp distinct
    have result := ih distinct_rest
    rw [List.foldl_append, List.foldl_cons, List.foldl_nil,
      keyframeEnter_asDelta engine none {}]
    refine result.extend (fun member => apart wid member wid (by simp) rfl) ?_
    rw [result.connection_eq, leaveReason_ensureFids]

/-- The operations of a keyframe, in the order they are recorded. -/
def keyframeOps (engine : ProjectionEngine) (connection : ConnectionProjection)
    (visible : List WorldId) (tick : UInt64) : List SentOp :=
  ((engine.keyframeScan connection visible tick).ops ++
    keyframeLeaves connection.ackedView visible).insertionSort fun lhs rhs => lhs.wid ≤ rhs.wid

/-- The connection of a keyframe build before the frame is committed. -/
def keyframeConnection (engine : ProjectionEngine) (connection : ConnectionProjection)
    (visible : List WorldId) (forced : Bool) (tick : UInt64) : ConnectionProjection :=
  { (engine.keyframeScan connection visible tick).connection with
    currentView := (engine.keyframeScan connection visible tick).nextView
    ackedDirty := []
    needsKeyframe := false
    lastKeyframeTick := tick
    nextKeyframeTick := tick + engine.keyframeIntervalTicks -
      (if forced then connectionIdHash connection.id % engine.keyframeIntervalTicks else 0)
    policyVersion := engine.policy.version }

theorem buildKeyframe_eq (engine : ProjectionEngine) (connection : ConnectionProjection)
    (visible : List WorldId) (forced : Bool) (tick : UInt64) :
    engine.buildKeyframe connection visible forced tick =
      ({ engine.frameHeader connection tick 0 with
          entities := (engine.keyframeScan connection visible tick).entities },
        engine.commitFrame (engine.keyframeConnection connection visible forced tick)
          (engine.keyframeOps connection visible tick)) := rfl

end ProjectionEngine

section Outcome

variable {engine : ProjectionEngine} {connection : ConnectionProjection}
variable {visible : List WorldId} {tick : UInt64}

/-- The stored hashes of the global view are the hashes of its projections. -/
def HashesMatch (engine : ProjectionEngine) : Prop :=
  ∀ (wid : WorldId) (state : EntityState), engine.globalView[wid]? = some state →
    state.hash = projectedEntityHash state.projected

theorem keyframeAction_enter {wid : WorldId} {state : EntityState} :
    engine.keyframeAction wid = .enter state ↔ engine.globalView[wid]? = some state := by
  unfold keyframeAction
  cases engine.globalView[wid]? <;> simp

theorem keyframeAction_cases (engine : ProjectionEngine) (wid : WorldId) :
    engine.keyframeAction wid = .skip ∨ ∃ state, engine.keyframeAction wid = .enter state := by
  unfold keyframeAction
  cases engine.globalView[wid]? <;> simp

/-- The current view a keyframe leaves behind, id by id. -/
theorem keyframe_nextView (distinct : visible.Nodup) (wid : WorldId) :
    viewOf (engine.keyframeScan connection visible tick).nextView wid =
      if wid ∈ visible then
        (engine.globalView[wid]?).map fun state =>
          ((engine.keyframeScan connection visible tick).connection.fidIn wid, state.hash)
      else none := by
  have result := engine.keyframeScan_result connection tick distinct
  have landed : (engine.keyframeScan connection visible tick).nextView[wid]? = _ :=
    result.frameOps_eq wid
  rw [viewOf, landed]
  split
  · unfold keyframeAction
    cases engine.globalView[wid]? <;> rfl
  · rfl

theorem keyframe_enters_distinct (distinct : visible.Nodup) :
    (touched ((engine.keyframeScan connection visible tick).entities.map
      EntityEnter.edit)).Nodup := by
  have result := engine.keyframeScan_result connection tick distinct
  have entities : (engine.keyframeScan connection visible tick).entities = _ := result.enters_eq
  have keys : touched ((engine.keyframeScan connection visible tick).entities.map
      EntityEnter.edit) =
      (engine.keyframeScan connection visible tick).entities.map EntityEnter.wid := by
    simp only [touched, List.map_map]
    rfl
  rw [keys, entities]
  refine nodup_map_filterMap (fun wid enter found => ?_) distinct
  rcases keyframeAction_cases engine wid with acts | ⟨state, acts⟩
  · simp [acts, WidAction.enterEntry] at found
  · simp only [acts, WidAction.enterEntry, Option.some.injEq] at found
    rw [← found]

/-- A client that applies the keyframe holds the current view of the server. -/
theorem keyframe_client_view (distinct : visible.Nodup) (hashes : HashesMatch engine) :
    applyScript (fun _ => none)
        ((engine.keyframeScan connection visible tick).entities.map EntityEnter.edit) =
      viewOf (engine.keyframeScan connection visible tick).nextView := by
  have result := engine.keyframeScan_result connection tick distinct
  have entities : (engine.keyframeScan connection visible tick).entities = _ := result.enters_eq
  have edit_iff : ∀ enter, enter ∈ (engine.keyframeScan connection visible tick).entities ↔
      ∃ wid ∈ visible, ∃ state, engine.globalView[wid]? = some state ∧
        (⟨wid, (engine.keyframeScan connection visible tick).connection.fidIn wid,
          { state.projected with
            fid := (engine.keyframeScan connection visible tick).connection.fidIn wid }⟩ :
          EntityEnter) = enter := by
    intro enter
    rw [entities, List.mem_filterMap]
    refine exists_congr fun wid => and_congr_right fun _ => ?_
    unfold keyframeAction
    cases engine.globalView[wid]? <;> simp [WidAction.enterEntry, KeyframeScan.asDelta]
  refine applyScript_eq_of_replaces (keyframe_enters_distinct distinct) ?_ ?_ ?_
  · intro edit member
    obtain ⟨enter, in_entities, rfl⟩ := List.mem_map.mp member
    obtain ⟨wid, in_visible, state, known, rfl⟩ := (edit_iff enter).mp in_entities
    rw [keyframe_nextView distinct]
    simp [EntityEnter.edit, in_visible, known, hashes wid state known]
  · intro wid value held
    rw [keyframe_nextView distinct] at held
    split at held
    · next in_visible =>
      obtain ⟨state, known, -⟩ := Option.map_eq_some_iff.mp held
      refine List.mem_map.mpr ⟨_, List.mem_map.mpr ⟨_, (edit_iff _).mpr
        ⟨wid, in_visible, state, known, rfl⟩, rfl⟩, rfl⟩
    · cases held
  · intro wid held
    exact absurd rfl held

theorem mem_keyframeLeaves {acked : WidMap TrackedEntity} {op : SentOp} :
    op ∈ keyframeLeaves acked visible ↔ op.wid ∉ visible ∧ op.kind = .leave ∧
      op.entityHash = 0 ∧ ∃ tracked, acked[op.wid]? = some tracked ∧ op.fid = tracked.fid := by
  simp only [keyframeLeaves, List.mem_map, List.mem_filter, decide_eq_true_eq, Prod.exists,
    Std.ExtTreeMap.mem_toList_iff_getElem?_eq_some]
  constructor
  · rintro ⟨wid, tracked, ⟨found, hidden⟩, rfl⟩
    exact ⟨hidden, rfl, rfl, tracked, found, rfl⟩
  · rintro ⟨hidden, kind, hash, tracked, found, fid⟩
    refine ⟨op.wid, tracked, ⟨found, hidden⟩, ?_⟩
    rw [← fid, ← kind, ← hash]

theorem mem_keyframeOps (distinct : visible.Nodup) (op : SentOp) :
    op ∈ engine.keyframeOps connection visible tick ↔
      (∃ wid ∈ visible, ∃ state, engine.globalView[wid]? = some state ∧
        op = ⟨.enter, wid, (engine.keyframeScan connection visible tick).connection.fidIn wid,
          state.hash⟩) ∨
      op ∈ keyframeLeaves connection.ackedView visible := by
  have result := engine.keyframeScan_result connection tick distinct
  have ops : (engine.keyframeScan connection visible tick).ops = _ := result.ops_eq
  rw [keyframeOps, List.mem_insertionSort, List.mem_append, ops, List.mem_filterMap]
  refine or_congr_left (exists_congr fun wid => and_congr_right fun _ => ?_)
  unfold keyframeAction
  cases engine.globalView[wid]? <;>
    simp [WidAction.op, KeyframeScan.asDelta, @eq_comm _ op]

theorem keyframeOps_distinct (distinct : visible.Nodup) :
    ((engine.keyframeOps connection visible tick).map SentOp.wid).Nodup := by
  have result := engine.keyframeScan_result connection tick distinct
  have ops : (engine.keyframeScan connection visible tick).ops = _ := result.ops_eq
  refine ((List.perm_insertionSort _ _).map SentOp.wid).nodup_iff.mpr ?_
  rw [List.map_append]
  refine List.Nodup.append ?_ ?_ ?_
  · rw [ops]
    exact nodup_map_filterMap (fun _ _ found => WidAction.op_wid found) distinct
  · have keys : (keyframeLeaves connection.ackedView visible).map SentOp.wid =
        connection.ackedView.keys.filter (· ∉ visible) := by
      rw [keyframeLeaves, List.map_map, ← Std.ExtTreeMap.map_fst_toList_eq_keys,
        List.filter_map]
      rfl
    rw [keys]
    exact Std.ExtTreeMap.nodup_keys.filter _
  · intro wid entered left
    obtain ⟨op, in_leaves, rfl⟩ := List.mem_map.mp left
    obtain ⟨op', in_ops, same⟩ := List.mem_map.mp entered
    rw [ops] at in_ops
    obtain ⟨wid, in_visible, found⟩ := List.mem_filterMap.mp in_ops
    exact (mem_keyframeLeaves.mp in_leaves).1
      (same ▸ (WidAction.op_wid found).symm ▸ in_visible)

/-- Everything visible is in the global view. -/
def VisibleKnown (engine : ProjectionEngine) (visible : List WorldId) : Prop :=
  ∀ wid ∈ visible, wid ∈ engine.globalView

theorem buildKeyframe_inv {latest : Nat} (distinct : visible.Nodup)
    (known : VisibleKnown engine visible) (core : ConnectionCore latest connection)
    (next : engine.latestSnapshotId = latest + 1) (forced : Bool) :
    ConnectionInv engine.latestSnapshotId
      (engine.buildKeyframe connection visible forced tick).2 := by
  have result := engine.keyframeScan_result connection tick distinct
  have connection_eq : (engine.keyframeScan connection visible tick).connection = _ :=
    result.connection_eq
  have core' : ConnectionCore latest
      (engine.keyframeScan connection visible tick).connection := by
    rw [connection_eq]
    exact core.ensureFids _
  rw [buildKeyframe_eq]
  refine ConnectionInv.commitFrame { core' with } next ?_ ?_
  · intro op member kind
    rcases (mem_keyframeOps distinct op).mp member with
      ⟨wid, in_visible, state, found, rfl⟩ | in_leaves
    · have entered : wid ∈ visible.filter fun wid => (engine.keyframeAction wid).isEnter := by
        simp [in_visible, keyframeAction_enter.mpr found, WidAction.isEnter]
      obtain ⟨fid, mapped⟩ := ensureFids_mapped connection entered
      have mapped' : (engine.keyframeScan connection visible tick).connection.fidOf wid =
          some fid := by rw [connection_eq]; exact mapped
      have same : (engine.keyframeScan connection visible tick).connection.fidIn wid = fid := by
        rw [fidIn, mapped', Option.getD_some]
      rw [same]
      exact mapped'
    · exact absurd (mem_keyframeLeaves.mp in_leaves).2.1 kind
  · intro wid _ silent
    obtain ⟨nextFid, fidByWid, widByFid, frame⟩ := ensureFids_frame connection
      (visible.filter fun wid => (engine.keyframeAction wid).isEnter)
    have acked_eq : (engine.keyframeScan connection visible tick).connection.ackedView =
        connection.ackedView := by rw [connection_eq, frame]
    have hidden : wid ∉ visible := by
      intro in_visible
      obtain ⟨state, found⟩ := Option.isSome_iff_exists.mp
        (Std.ExtTreeMap.mem_iff_isSome_getElem?.mp (known wid in_visible))
      exact silent (List.mem_map.mpr ⟨_, (mem_keyframeOps distinct _).mpr
        (Or.inl ⟨wid, in_visible, state, found, rfl⟩), rfl⟩)
    have unacked : connection.ackedView[wid]? = none := by
      by_contra held
      obtain ⟨tracked, found⟩ := Option.ne_none_iff_exists'.mp held
      exact silent (List.mem_map.mpr ⟨⟨.leave, wid, tracked.fid, 0⟩,
        (mem_keyframeOps distinct _).mpr (Or.inr (mem_keyframeLeaves.mpr
          ⟨hidden, rfl, rfl, tracked, found, rfl⟩)), rfl⟩)
    have current : viewOf (engine.keyframeConnection connection visible forced tick).currentView
        wid = none := by
      refine (keyframe_nextView distinct wid).trans ?_
      rw [if_neg hidden]
    have acked : viewOf (engine.keyframeConnection connection visible forced tick).ackedView
        wid = none := by
      have : (engine.keyframeConnection connection visible forced tick).ackedView =
        connection.ackedView := acked_eq
      rw [this, viewOf, unacked, Option.map_none]
    rw [current, acked]

end Outcome

end GeoWorld.Projection
