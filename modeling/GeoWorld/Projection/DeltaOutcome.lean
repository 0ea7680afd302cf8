import Mathlib
import GeoWorld.Library.SortedSelection
import GeoWorld.Projection.DeltaLoop
import GeoWorld.Projection.Replica

/-!
The outcome of a delta build. After the loop, saturation trims some updates, the
operations are recorded, and the current view is brought to the acknowledged
view with those operations on top. The delta sent, the record kept and the new
view are three presentations of one edit script.
-/

namespace GeoWorld.Projection

open WorldModel Library ConnectionProjection ProjectionEngine

def SentOp.edit (op : SentOp) : Edit WorldId (FeatureId × UInt64) :=
  (op.wid, if op.kind = .leave then none else some (op.fid, op.entityHash))

def TrackedEntity.entry (tracked : TrackedEntity) : FeatureId × UInt64 :=
  (tracked.fid, tracked.entityHash)

/-- The ids of a server view with feature id and hash. -/
def viewOf (view : WidMap TrackedEntity) : View :=
  fun wid => (view[wid]?).map TrackedEntity.entry

/-- The edit an action makes to the view of the client. -/
def WidAction.edit (fid : FeatureId) : WidAction → Option (Option (FeatureId × UInt64))
  | enter state => some (some (fid, state.hash))
  | update entry state => some (some (entry.fid, state.hash))
  | leave _ => some none
  | skip => none
  | throttle => none

/-- How actions relate to the acknowledged view and to the hashes of the global view. -/
structure ActionsSound (acked : WidMap TrackedEntity) (action : WorldId → WidAction) :
    Prop where
  update_acked : ∀ wid entry state, action wid = .update entry state →
    acked[wid]? = some entry
  enter_hash : ∀ wid state, action wid = .enter state →
    state.hash = projectedEntityHash state.projected
  update_hash : ∀ wid entry state, action wid = .update entry state →
    state.hash = projectedEntityHash state.projected

/-- Distinct acknowledged ids have distinct feature ids. -/
def FidsInjective (view : WidMap TrackedEntity) : Prop :=
  ∀ (wid wid' : WorldId) (entry entry' : TrackedEntity), view[wid]? = some entry →
    view[wid']? = some entry' → entry.fid = entry'.fid → wid = wid'

def updateEntries (action : WorldId → WidAction) (wids : List WorldId) : List EntityUpdate :=
  wids.filterMap fun wid => (action wid).updateEntry wid

/-- The update of `wid` has at least `limit` updates before it in priority order. -/
def Trimmed (limit : Nat) (action : WorldId → WidAction) (wids : List WorldId)
    (wid : WorldId) : Prop :=
  ∃ update ∈ (action wid).updateEntry wid,
    limit ≤ rank trimBefore (updateEntries action wids) update

instance (limit : Nat) (action : WorldId → WidAction) (wids : List WorldId)
    (wid : WorldId) : Decidable (Trimmed limit action wids wid) :=
  inferInstanceAs (Decidable (∃ update ∈ (action wid).updateEntry wid, _))

instance : Std.Total trimBefore where
  total lhs rhs := by
    unfold trimBefore
    grind

instance : IsTrans EntityUpdate trimBefore where
  trans lhs mid rhs := by
    unfold trimBefore
    intro first second
    split_ifs at first second ⊢ <;> grind

theorem fid_eq_of_trimBefore {lhs rhs : EntityUpdate} (le : trimBefore lhs rhs)
    (ge : trimBefore rhs lhs) : lhs.fid = rhs.fid := by
  unfold trimBefore at le ge
  grind

namespace WidAction

theorem op_wid {wid : WorldId} {fid : FeatureId} {action : WidAction} {op : SentOp}
    (found : action.op wid fid = some op) : op.wid = wid := by
  cases action <;> simp [WidAction.op] at found <;> simp [← found]

theorem updateEntry_wid {wid : WorldId} {action : WidAction} {update : EntityUpdate}
    (found : action.updateEntry wid = some update) : update.wid = wid := by
  cases action <;> simp [updateEntry] at found
  simp [← found]

theorem op_edit (wid : WorldId) (fid : FeatureId) (action : WidAction)
    (value : Option (FeatureId × UInt64)) :
    (∃ op, action.op wid fid = some op ∧ op.edit = (wid, value)) ↔
      action.edit fid = some value := by
  cases action <;> simp [WidAction.op, WidAction.edit, SentOp.edit]

theorem op_kind_update {wid : WorldId} {fid : FeatureId} {action : WidAction} {op : SentOp}
    (found : action.op wid fid = some op) :
    op.kind = .update ↔ ∃ update, action.updateEntry wid = some update ∧ update.fid = op.fid := by
  cases action <;> simp [WidAction.op, updateEntry] at found ⊢ <;> simp [← found]

theorem landing_entry (tick : UInt64) (fid : FeatureId) (action : WidAction)
    {tracked : TrackedEntity} (found : action.landing tick fid = some tracked) :
    action.edit fid = some (some tracked.entry) := by
  cases action <;> simp [landing] at found <;>
    simp [← found, WidAction.edit, TrackedEntity.entry]

end WidAction

section Trim

variable {engine : ProjectionEngine} {action : WorldId → WidAction}
variable {reason : WorldId → LeaveReason} {tick : UInt64} {connection : ConnectionProjection}
variable {wids : List WorldId} {scan : DeltaScan} {acked : WidMap TrackedEntity}

theorem updates_fid_injective (sound : ActionsSound acked action)
    (injective : FidsInjective acked) {lhs rhs : EntityUpdate}
    (left : lhs ∈ updateEntries action wids) (right : rhs ∈ updateEntries action wids)
    (same : lhs.fid = rhs.fid) : lhs = rhs := by
  obtain ⟨wid, -, found⟩ := List.mem_filterMap.mp left
  obtain ⟨wid', -, found'⟩ := List.mem_filterMap.mp right
  cases acts : action wid with
  | update entry state =>
    cases acts' : action wid' with
    | update entry' state' =>
      rw [acts] at found
      rw [acts'] at found'
      simp only [WidAction.updateEntry, Option.some.injEq] at found found'
      have fids : entry.fid = entry'.fid := by simpa [← found, ← found'] using same
      obtain rfl := injective wid wid' entry entry' (sound.update_acked _ _ _ acts)
        (sound.update_acked _ _ _ acts') fids
      rw [acts] at acts'
      obtain ⟨rfl, rfl⟩ := WidAction.update.inj acts'
      rw [← found, ← found']
    | _ => simp [acts', WidAction.updateEntry] at found'
  | _ => simp [acts, WidAction.updateEntry] at found

theorem updateEntries_nodup (action : WorldId → WidAction) (distinct : wids.Nodup) :
    (updateEntries action wids).Nodup :=
  List.Nodup.of_map EntityUpdate.wid
    (nodup_map_filterMap (fun _ _ found => WidAction.updateEntry_wid found) distinct)

theorem rank_lt_length {updates : List EntityUpdate} {update : EntityUpdate}
    (member : update ∈ updates) : rank trimBefore updates update < updates.length := by
  refine lt_of_le_of_ne List.countP_le_length fun full => ?_
  have all := List.countP_eq_length.mp full update member
  simp at all

/-- The updates left after trimming are those with room before them. -/
theorem mem_trimUpdates_iff_rank (result : LoopResult action reason tick connection wids scan)
    (distinct : wids.Nodup) (sound : ActionsSound acked action)
    (injective : FidsInjective acked) (update : EntityUpdate) :
    update ∈ (engine.trimUpdates acked scan).updates ↔ update ∈ scan.updates ∧
      rank trimBefore scan.updates update < engine.config.maxUpdatesPerFrame := by
  have updates_eq : scan.updates = updateEntries action wids := result.updates_eq
  unfold trimUpdates keptUpdates
  split
  · refine mem_take_insertionSort_iff ?_ ?_ _ _
    · rw [updates_eq]
      exact updateEntries_nodup action distinct
    · intro x member_x y member_y le ge
      rw [updates_eq] at member_x member_y
      exact updates_fid_injective sound injective member_x member_y
        (fid_eq_of_trimBefore le ge)
  · next small =>
    refine ⟨fun member => ⟨member, ?_⟩, And.left⟩
    exact lt_of_lt_of_le (rank_lt_length member) (not_lt.mp small)

/-- The updates left after trimming are those that are not `Trimmed`. -/
theorem mem_trimUpdates_updates (result : LoopResult action reason tick connection wids scan)
    (distinct : wids.Nodup) (sound : ActionsSound acked action)
    (injective : FidsInjective acked) (update : EntityUpdate) :
    update ∈ (engine.trimUpdates acked scan).updates ↔
      ∃ wid ∈ wids, (action wid).updateEntry wid = some update ∧
        ¬ Trimmed engine.config.maxUpdatesPerFrame action wids wid := by
  have updates_eq : scan.updates = updateEntries action wids := result.updates_eq
  rw [mem_trimUpdates_iff_rank result distinct sound injective update, updates_eq]
  constructor
  · rintro ⟨member, small⟩
    obtain ⟨wid, in_wids, found⟩ := List.mem_filterMap.mp member
    refine ⟨wid, in_wids, found, ?_⟩
    rintro ⟨other, found', large⟩
    obtain rfl : update = other := by
      rw [Option.mem_def, found] at found'
      simpa using found'
    omega
  · rintro ⟨wid, in_wids, found, untrimmed⟩
    refine ⟨List.mem_filterMap.mpr ⟨wid, in_wids, found⟩, ?_⟩
    by_contra large
    exact untrimmed ⟨update, found, not_lt.mp large⟩

/-- An update's record survives trimming exactly when the update does. -/
theorem fid_mem_kept_iff (result : LoopResult action reason tick connection wids scan)
    (distinct : wids.Nodup) (sound : ActionsSound acked action)
    (injective : FidsInjective acked) {wid : WorldId} (member : wid ∈ wids)
    {update : EntityUpdate} (found : (action wid).updateEntry wid = some update) :
    update.fid ∈ (engine.trimUpdates acked scan).updates.map EntityUpdate.fid ↔
      ¬ Trimmed engine.config.maxUpdatesPerFrame action wids wid := by
  rw [List.mem_map]
  constructor
  · rintro ⟨other, kept, same⟩
    obtain ⟨wid', in_wids, found', untrimmed⟩ :=
      (mem_trimUpdates_updates result distinct sound injective other).mp kept
    have equal : other = update := updates_fid_injective sound injective
      (List.mem_filterMap.mpr ⟨wid', in_wids, found'⟩)
      (List.mem_filterMap.mpr ⟨wid, member, found⟩) same
    have wids_eq : wid' = wid := by
      rw [← WidAction.updateEntry_wid found', ← WidAction.updateEntry_wid found, equal]
    exact wids_eq ▸ untrimmed
  · intro untrimmed
    exact ⟨update, (mem_trimUpdates_updates result distinct sound injective update).mpr
      ⟨wid, member, found, untrimmed⟩, rfl⟩

theorem mem_trimUpdates_ops (result : LoopResult action reason tick connection wids scan)
    (distinct : wids.Nodup) (sound : ActionsSound acked action)
    (injective : FidsInjective acked) (op : SentOp) :
    op ∈ (engine.trimUpdates acked scan).ops ↔
      ∃ wid ∈ wids, (action wid).op wid (scan.connection.fidIn wid) = some op ∧
        ¬ Trimmed engine.config.maxUpdatesPerFrame action wids wid := by
  have recorded : op ∈ (engine.trimUpdates acked scan).ops ↔
      op ∈ scan.ops ∧ (op.kind = .update →
        op.fid ∈ (engine.trimUpdates acked scan).updates.map EntityUpdate.fid) := by
    unfold trimUpdates
    split
    · simp only [List.mem_filter, List.mem_insertionSort, lostUpdate, Bool.not_eq_true',
        Bool.and_eq_false_imp, decide_eq_true_eq, decide_eq_false_iff_not, not_not]
    · refine ⟨fun member => ⟨member, fun kind => ?_⟩, And.left⟩
      rw [result.ops_eq] at member
      obtain ⟨wid, in_wids, found⟩ := List.mem_filterMap.mp member
      obtain ⟨update, entry, same⟩ := (WidAction.op_kind_update found).mp kind
      rw [result.updates_eq, ← same]
      exact List.mem_map_of_mem (List.mem_filterMap.mpr ⟨wid, in_wids, entry⟩)
  rw [recorded, result.ops_eq, List.mem_filterMap]
  constructor
  · rintro ⟨⟨wid, in_wids, found⟩, kept⟩
    refine ⟨wid, in_wids, found, fun trimmed => ?_⟩
    obtain ⟨update, entry, -⟩ := id trimmed
    have fid_eq : update.fid = op.fid := by
      cases acts : action wid <;> simp [acts, WidAction.updateEntry, WidAction.op] at entry found
      rw [← entry, ← found]
    have kind : op.kind = .update := (WidAction.op_kind_update found).mpr ⟨update, entry, fid_eq⟩
    have := kept kind
    rw [← fid_eq, fid_mem_kept_iff result distinct sound injective in_wids entry] at this
    exact this trimmed
  · rintro ⟨wid, in_wids, found, untrimmed⟩
    refine ⟨⟨wid, in_wids, found⟩, fun kind => ?_⟩
    obtain ⟨update, entry, same⟩ := (WidAction.op_kind_update found).mp kind
    rw [← same, fid_mem_kept_iff result distinct sound injective in_wids entry]
    exact untrimmed

theorem trimUpdates_updates_wids (result : LoopResult action reason tick connection wids scan)
    (distinct : wids.Nodup) :
    ((engine.trimUpdates acked scan).updates.map EntityUpdate.wid).Nodup := by
  have loop_updates : (scan.updates.map EntityUpdate.wid).Nodup := by
    rw [result.updates_eq]
    exact nodup_map_filterMap (fun _ _ found => WidAction.updateEntry_wid found) distinct
  unfold trimUpdates
  split
  · have sorted := List.perm_insertionSort trimBefore scan.updates
    exact ((sorted.map EntityUpdate.wid).nodup_iff.mpr loop_updates).sublist
      ((List.take_sublist _ _).map _)
  · exact loop_updates

theorem trimUpdates_ops_nodup (result : LoopResult action reason tick connection wids scan)
    (distinct : wids.Nodup) :
    ((engine.trimUpdates acked scan).ops.map SentOp.wid).Nodup := by
  have loop_ops : (scan.ops.map SentOp.wid).Nodup := by
    rw [result.ops_eq]
    exact nodup_map_filterMap (fun _ _ found => WidAction.op_wid found) distinct
  unfold trimUpdates
  split
  · have sorted := (List.perm_insertionSort (fun lhs rhs : SentOp => lhs.wid ≤ rhs.wid) scan.ops)
    exact ((sorted.map SentOp.wid).nodup_iff.mpr loop_ops).sublist (List.filter_sublist.map _)
  · exact loop_ops

theorem foldl_revertOp (acked frameOps : WidMap TrackedEntity) (dropped : List SentOp)
    (wid : WorldId) : (dropped.foldl (revertOp acked) frameOps)[wid]? =
      if wid ∈ dropped.map SentOp.wid then (acked[wid]?).or frameOps[wid]?
      else frameOps[wid]? := by
  induction dropped using List.reverseRecOn with
  | nil => simp
  | append_singleton rest op ih =>
    rw [List.foldl_append, List.foldl_cons, List.foldl_nil, revertOp]
    by_cases same : wid = op.wid
    · subst same
      cases at_acked : acked[op.wid]? with
      | some tracked => simp
      | none => simp only [ih, at_acked]; simp
    · cases at_acked : acked[op.wid]? with
      | some tracked => simp only [lookup_insert_ne _ same, ih]; simp [same]
      | none => simp only [ih]; simp [same]

/-- In a saturated frame the ids with a lost record are the trimmed ones. -/
theorem lost_wid_iff (result : LoopResult action reason tick connection wids scan)
    (distinct : wids.Nodup) (sound : ActionsSound acked action)
    (injective : FidsInjective acked)
    (saturated : scan.updates.length > engine.config.maxUpdatesPerFrame)
    {wid : WorldId} (member : wid ∈ wids) :
    wid ∈ (scan.ops.filter (engine.lostUpdate scan)).map SentOp.wid ↔
      Trimmed engine.config.maxUpdatesPerFrame action wids wid := by
  have kept_eq : (engine.trimUpdates acked scan).updates = engine.keptUpdates scan := by
    rw [trimUpdates, if_pos saturated]
  have kept_iff : ∀ {update}, (action wid).updateEntry wid = some update →
      (update.fid ∈ (engine.keptUpdates scan).map EntityUpdate.fid ↔
        ¬ Trimmed engine.config.maxUpdatesPerFrame action wids wid) := by
    intro update found
    rw [← kept_eq]
    exact fid_mem_kept_iff result distinct sound injective member found
  simp only [List.mem_map, List.mem_filter, lostUpdate, Bool.and_eq_true, decide_eq_true_eq]
  constructor
  · rintro ⟨op, ⟨in_ops, kind, lost⟩, same⟩
    rw [result.ops_eq] at in_ops
    obtain ⟨wid', -, found⟩ := List.mem_filterMap.mp in_ops
    obtain rfl : wid' = wid := (WidAction.op_wid found).symm.trans same
    obtain ⟨update, entry, fid_eq⟩ := (WidAction.op_kind_update found).mp kind
    by_contra untrimmed
    exact lost (fid_eq ▸ List.mem_map.mp ((kept_iff entry).mpr untrimmed))
  · intro trimmed
    obtain ⟨update, entry, -⟩ := id trimmed
    cases acts : action wid with
    | update tracked state =>
      obtain rfl : _ = update := by simpa [acts, WidAction.updateEntry] using entry
      refine ⟨⟨.update, wid, tracked.fid, state.hash⟩, ⟨?_, rfl, ?_⟩, rfl⟩
      · rw [result.ops_eq]
        exact List.mem_filterMap.mpr ⟨wid, member, by rw [acts]; rfl⟩
      · exact fun kept => (kept_iff entry).mp (List.mem_map.mpr kept) trimmed
    | _ => simp [acts, WidAction.updateEntry] at entry

/-- Trimming rolls the landing point of a trimmed id back to the acknowledged value. -/
theorem trimUpdates_frameOps (result : LoopResult action reason tick connection wids scan)
    (distinct : wids.Nodup) (sound : ActionsSound acked action)
    (injective : FidsInjective acked) {wid : WorldId} (member : wid ∈ wids) :
    (engine.trimUpdates acked scan).frameOps[wid]? =
      if Trimmed engine.config.maxUpdatesPerFrame action wids wid then acked[wid]?
      else (action wid).landing tick (scan.connection.fidIn wid) := by
  have landed : scan.frameOps[wid]? = (action wid).landing tick (scan.connection.fidIn wid) := by
    rw [result.frameOps_eq, if_pos member]
  by_cases saturated : scan.updates.length > engine.config.maxUpdatesPerFrame
  · have lost := lost_wid_iff result distinct sound injective saturated member
    have sorted := List.perm_insertionSort (fun lhs rhs : SentOp => lhs.wid ≤ rhs.wid) scan.ops
    have lost_sorted := ((sorted.filter (engine.lostUpdate scan)).map SentOp.wid).mem_iff
      (a := wid) |>.trans lost
    rw [trimUpdates, if_pos saturated, foldl_revertOp, landed]
    by_cases trimmed : Trimmed engine.config.maxUpdatesPerFrame action wids wid
    · obtain ⟨update, entry, -⟩ := id trimmed
      cases acts : action wid with
      | update tracked state =>
        rw [if_pos (lost_sorted.mpr trimmed), if_pos trimmed,
          sound.update_acked wid tracked state acts, Option.some_or]
      | _ => simp [acts, WidAction.updateEntry] at entry
    · rw [if_neg (mt lost_sorted.mp trimmed), if_neg trimmed]
  · have untrimmed : ¬ Trimmed engine.config.maxUpdatesPerFrame action wids wid := by
      rintro ⟨update, found, large⟩
      have in_updates : update ∈ updateEntries action wids :=
        List.mem_filterMap.mpr ⟨wid, member, found⟩
      have small := rank_lt_length in_updates
      have length_eq : (updateEntries action wids).length = scan.updates.length := by
        rw [result.updates_eq]; rfl
      omega
    rw [trimUpdates, if_neg saturated, if_neg untrimmed, landed]

theorem trimUpdates_frameOps_outside
    (result : LoopResult action reason tick connection wids scan) {wid : WorldId}
    (outside : wid ∉ wids) : (engine.trimUpdates acked scan).frameOps[wid]? = none := by
  have loop : scan.frameOps[wid]? = none := by
    rw [result.frameOps_eq, if_neg outside]
  unfold trimUpdates
  split
  · rw [foldl_revertOp, loop, if_neg]
    rw [List.mem_map]
    rintro ⟨op, in_lost, same⟩
    have in_ops := (List.mem_insertionSort _).mp (List.mem_filter.mp in_lost).1
    rw [result.ops_eq] at in_ops
    obtain ⟨wid', in_wids, found⟩ := List.mem_filterMap.mp in_ops
    exact outside (same ▸ (WidAction.op_wid found).symm ▸ in_wids)
  · exact loop

/-- The recorded operations as edits. -/
theorem mem_sent_edits (result : LoopResult action reason tick connection wids scan)
    (distinct : wids.Nodup) (sound : ActionsSound acked action)
    (injective : FidsInjective acked) (edit : Edit WorldId (FeatureId × UInt64)) :
    edit ∈ (engine.trimUpdates acked scan).ops.map SentOp.edit ↔
      edit.1 ∈ wids ∧ ¬ Trimmed engine.config.maxUpdatesPerFrame action wids edit.1 ∧
        (action edit.1).edit (scan.connection.fidIn edit.1) = some edit.2 := by
  rw [List.mem_map]
  constructor
  · rintro ⟨op, member, rfl⟩
    obtain ⟨wid, in_wids, found, untrimmed⟩ :=
      (mem_trimUpdates_ops result distinct sound injective op).mp member
    obtain rfl := WidAction.op_wid found
    exact ⟨in_wids, untrimmed, (WidAction.op_edit _ _ _ _).mp ⟨op, found, rfl⟩⟩
  · rintro ⟨in_wids, untrimmed, edited⟩
    obtain ⟨op, found, same⟩ := (WidAction.op_edit edit.1 _ _ _).mpr edited
    exact ⟨op, (mem_trimUpdates_ops result distinct sound injective op).mpr
      ⟨edit.1, in_wids, found, untrimmed⟩, same⟩

theorem sent_edits_distinct (result : LoopResult action reason tick connection wids scan)
    (distinct : wids.Nodup) :
    (touched ((engine.trimUpdates acked scan).ops.map SentOp.edit)).Nodup := by
  have keys : touched ((engine.trimUpdates acked scan).ops.map SentOp.edit) =
      (engine.trimUpdates acked scan).ops.map SentOp.wid := by
    simp only [touched, List.map_map]
    rfl
  rw [keys]
  exact trimUpdates_ops_nodup result distinct

theorem trimUpdates_leaves : (engine.trimUpdates acked scan).leaves = scan.leaves := by
  unfold trimUpdates
  split <;> rfl

theorem trimUpdates_enters : (engine.trimUpdates acked scan).enters = scan.enters := by
  unfold trimUpdates
  split <;> rfl

theorem trimUpdates_frameLeaves :
    (engine.trimUpdates acked scan).frameLeaves = scan.frameLeaves := by
  unfold trimUpdates
  split <;> rfl

theorem trimUpdates_connection :
    (engine.trimUpdates acked scan).connection = scan.connection := by
  unfold trimUpdates
  split <;> rfl

theorem trimmed_updates {limit : Nat} {wid : WorldId} (trimmed : Trimmed limit action wids wid) :
    ∃ entry state, action wid = .update entry state := by
  obtain ⟨update, found, -⟩ := trimmed
  cases acts : action wid with
  | update entry state => exact ⟨entry, state, rfl⟩
  | _ => simp [acts, WidAction.updateEntry] at found

/-- The edits of the delta that is sent are the recorded ones. -/
theorem mem_sealDelta_edits (result : LoopResult action reason tick connection wids scan)
    (distinct : wids.Nodup) (sound : ActionsSound acked action)
    (injective : FidsInjective acked) (header : FrameHeader)
    (edit : Edit WorldId (FeatureId × UInt64)) :
    edit ∈ (sealDelta header (engine.trimUpdates acked scan)).edits ↔
      edit.1 ∈ wids ∧ ¬ Trimmed engine.config.maxUpdatesPerFrame action wids edit.1 ∧
        (action edit.1).edit (scan.connection.fidIn edit.1) = some edit.2 := by
  obtain ⟨wid, value⟩ := edit
  simp only [Delta.edits, sealDelta, List.mem_append, List.mem_map, List.mem_insertionSort,
    mem_trimUpdates_updates result distinct sound injective, trimUpdates_leaves,
    trimUpdates_enters, result.leaves_eq, result.enters_eq, List.mem_filterMap]
  constructor
  · rintro ((⟨leave, ⟨wid', member, found⟩, same⟩ | ⟨enter, ⟨wid', member, found⟩, same⟩) |
      ⟨update, ⟨wid', member, found, untrimmed⟩, same⟩)
    · cases acts : action wid' with
      | leave tracked =>
        simp only [acts, WidAction.leaveEntry, Option.some.injEq] at found
        subst found
        obtain ⟨rfl, rfl⟩ := Prod.mk.inj same
        refine ⟨member, fun trimmed => ?_, by rw [acts]; rfl⟩
        obtain ⟨_, _, updates⟩ := trimmed_updates trimmed
        rw [acts] at updates
        cases updates
      | _ => simp [acts, WidAction.leaveEntry] at found
    · cases acts : action wid' with
      | enter state =>
        simp only [acts, WidAction.enterEntry, Option.some.injEq] at found
        subst found
        obtain ⟨rfl, rfl⟩ := Prod.mk.inj same
        refine ⟨member, fun trimmed => ?_, ?_⟩
        · obtain ⟨_, _, updates⟩ := trimmed_updates trimmed
          rw [acts] at updates
          cases updates
        · rw [acts, WidAction.edit, sound.enter_hash _ _ acts]
          rfl
      | _ => simp [acts, WidAction.enterEntry] at found
    · cases acts : action wid' with
      | update entry state =>
        simp only [acts, WidAction.updateEntry, Option.some.injEq] at found
        subst found
        obtain ⟨rfl, rfl⟩ := Prod.mk.inj same
        refine ⟨member, untrimmed, ?_⟩
        rw [acts, WidAction.edit, sound.update_hash _ _ _ acts]
        rfl
      | _ => simp [acts, WidAction.updateEntry] at found
  · rintro ⟨member, untrimmed, edited⟩
    cases acts : action wid with
    | leave tracked =>
      refine Or.inl (Or.inl ⟨⟨wid, tracked.fid, reason wid⟩,
        ⟨wid, member, by rw [acts]; rfl⟩, ?_⟩)
      simpa [acts, WidAction.edit, EntityLeave.edit] using edited
    | enter state =>
      refine Or.inl (Or.inr ⟨_, ⟨wid, member, by rw [acts]; rfl⟩, ?_⟩)
      simpa [acts, WidAction.edit, EntityEnter.edit, sound.enter_hash wid state acts]
        using edited
    | update entry state =>
      refine Or.inr ⟨_, ⟨wid, member, by rw [acts]; rfl, untrimmed⟩, ?_⟩
      simpa [acts, WidAction.edit, EntityUpdate.edit, sound.update_hash wid entry state acts]
        using edited
    | _ => simp [acts, WidAction.edit] at edited

theorem sealDelta_edits_distinct
    (result : LoopResult action reason tick connection wids scan) (distinct : wids.Nodup)
    (sound : ActionsSound acked action) (injective : FidsInjective acked)
    (header : FrameHeader) :
    (touched (sealDelta header (engine.trimUpdates acked scan)).edits).Nodup := by
  have leaves : (scan.leaves.map EntityLeave.wid).Nodup := by
    rw [result.leaves_eq]
    refine nodup_map_filterMap (fun wid leave found => ?_) distinct
    cases acts : action wid <;> simp [acts, WidAction.leaveEntry] at found
    rw [← found]
  have enters : (scan.enters.map EntityEnter.wid).Nodup := by
    rw [result.enters_eq]
    refine nodup_map_filterMap (fun wid enter found => ?_) distinct
    cases acts : action wid <;> simp [acts, WidAction.enterEntry] at found
    rw [← found]
  have updates : ((engine.trimUpdates acked scan).updates.map EntityUpdate.wid).Nodup :=
    trimUpdates_updates_wids result distinct
  have leave_acts : ∀ wid ∈ scan.leaves.map EntityLeave.wid,
      ∃ tracked, action wid = .leave tracked := by
    intro wid member
    obtain ⟨leave, in_leaves, rfl⟩ := List.mem_map.mp member
    rw [result.leaves_eq] at in_leaves
    obtain ⟨wid', -, found⟩ := List.mem_filterMap.mp in_leaves
    cases acts : action wid' with
    | leave tracked =>
      simp only [acts, WidAction.leaveEntry, Option.some.injEq] at found
      exact ⟨tracked, by rw [← found]; exact acts⟩
    | _ => simp [acts, WidAction.leaveEntry] at found
  have enter_acts : ∀ wid ∈ scan.enters.map EntityEnter.wid,
      ∃ state, action wid = .enter state := by
    intro wid member
    obtain ⟨enter, in_enters, rfl⟩ := List.mem_map.mp member
    rw [result.enters_eq] at in_enters
    obtain ⟨wid', -, found⟩ := List.mem_filterMap.mp in_enters
    cases acts : action wid' with
    | enter state =>
      simp only [acts, WidAction.enterEntry, Option.some.injEq] at found
      exact ⟨state, by rw [← found]; exact acts⟩
    | _ => simp [acts, WidAction.enterEntry] at found
  have update_acts : ∀ wid ∈ (engine.trimUpdates acked scan).updates.map EntityUpdate.wid,
      ∃ entry state, action wid = .update entry state := by
    intro wid member
    obtain ⟨update, in_updates, rfl⟩ := List.mem_map.mp member
    obtain ⟨wid', -, found, -⟩ :=
      (mem_trimUpdates_updates result distinct sound injective update).mp in_updates
    cases acts : action wid' with
    | update entry state =>
      simp only [acts, WidAction.updateEntry, Option.some.injEq] at found
      exact ⟨entry, state, by rw [← found]; exact acts⟩
    | _ => simp [acts, WidAction.updateEntry] at found
  have keys : (touched (sealDelta header (engine.trimUpdates acked scan)).edits).Perm
      (scan.leaves.map EntityLeave.wid ++ scan.enters.map EntityEnter.wid ++
        (engine.trimUpdates acked scan).updates.map EntityUpdate.wid) := by
    simp only [touched, Delta.edits, sealDelta, List.map_append, List.map_map,
      trimUpdates_leaves, trimUpdates_enters]
    exact (((List.perm_insertionSort _ _).map _).append
      ((List.perm_insertionSort _ _).map _)).append ((List.perm_insertionSort _ _).map _)
  refine keys.nodup_iff.mpr ?_
  refine List.Nodup.append (List.Nodup.append leaves enters ?_) updates ?_
  · intro wid left right
    obtain ⟨_, acts⟩ := leave_acts wid left
    obtain ⟨_, acts'⟩ := enter_acts wid right
    rw [acts] at acts'
    cases acts'
  · intro wid left right
    obtain ⟨_, _, acts'⟩ := update_acts wid right
    rcases List.mem_append.mp left with left | left
    · obtain ⟨_, acts⟩ := leave_acts wid left
      rw [acts] at acts'
      cases acts'
    · obtain ⟨_, acts⟩ := enter_acts wid left
      rw [acts] at acts'
      cases acts'

/-- The delta that is sent acts on any client view as the recorded operations do. -/
theorem sealDelta_script (result : LoopResult action reason tick connection wids scan)
    (distinct : wids.Nodup) (sound : ActionsSound acked action)
    (injective : FidsInjective acked) (header : FrameHeader) (client : View) :
    applyScript client (sealDelta header (engine.trimUpdates acked scan)).edits =
      applyScript client ((engine.trimUpdates acked scan).ops.map SentOp.edit) := by
  refine applyScript_congr client
    (sealDelta_edits_distinct result distinct sound injective header)
    (sent_edits_distinct result distinct) fun edit => ?_
  rw [mem_sealDelta_edits result distinct sound injective,
    mem_sent_edits result distinct sound injective]

end Trim

end GeoWorld.Projection
