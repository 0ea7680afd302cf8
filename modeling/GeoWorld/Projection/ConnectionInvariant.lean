import Mathlib
import GeoWorld.Projection.ViewConvergence

/-!
The invariant of one connection. Feature ids of the epoch are allocated once and
never shared, the acknowledged view and the records use them, the records are
ascending and lie above the acknowledged baseline, and, unless a keyframe is
pending, entries that nothing unsettled agree with the acknowledged view.
-/

namespace GeoWorld.Projection

open WorldModel Library ConnectionProjection ProjectionEngine

/-- The part of the invariant that concerns ids, records and the baseline. `latest`
bounds every snapshot id handed out so far. -/
structure ConnectionCore (latest : Nat) (connection : ConnectionProjection) : Prop where
  fid_bound : ∀ (wid : WorldId) (fid : FeatureId), connection.fidByWid[wid]? = some fid →
    fid < connection.nextFid
  fid_injective : ∀ (wid wid' : WorldId) (fid : FeatureId),
    connection.fidByWid[wid]? = some fid → connection.fidByWid[wid']? = some fid → wid = wid'
  acked_fid : ∀ (wid : WorldId) (entry : TrackedEntity),
    connection.ackedView[wid]? = some entry → connection.fidByWid[wid]? = some entry.fid
  record_fid : ∀ record ∈ connection.unackedRecords, ∀ op ∈ record.ops, op.kind ≠ .leave →
    connection.fidByWid[op.wid]? = some op.fid
  records_ascending : connection.unackedRecords.Pairwise
    fun first second => first.snapshotId < second.snapshotId
  records_window : ∀ record ∈ connection.unackedRecords,
    connection.ackedBaseline < record.snapshotId ∧ record.snapshotId ≤ latest
  baseline_le : connection.ackedBaseline ≤ latest

structure ConnectionInv (latest : Nat) (connection : ConnectionProjection) : Prop
    extends ConnectionCore latest connection where
  settled : connection.needsKeyframe = false → SettledAgree connection

namespace ConnectionCore

variable {latest : Nat} {connection : ConnectionProjection}

theorem acked_injective (core : ConnectionCore latest connection) :
    FidsInjective connection.ackedView := by
  intro wid wid' entry entry' found found' same
  refine core.fid_injective wid wid' entry.fid (core.acked_fid wid entry found) ?_
  rw [same]
  exact core.acked_fid wid' entry' found'

theorem mono (core : ConnectionCore latest connection) {later : Nat} (le : latest ≤ later) :
    ConnectionCore later connection :=
  { core with
    records_window := fun record member =>
      ⟨(core.records_window record member).1, (core.records_window record member).2.trans le⟩
    baseline_le := core.baseline_le.trans le }

theorem ensureFid (core : ConnectionCore latest connection) (wid : WorldId) :
    ConnectionCore latest (connection.ensureFid wid).2 := by
  unfold ConnectionProjection.ensureFid
  cases mapped : connection.fidOf wid with
  | some fid => exact core
  | none =>
    have keeps : ∀ (other : WorldId) (fid : FeatureId), connection.fidByWid[other]? = some fid →
        (connection.fidByWid.insert wid connection.nextFid)[other]? = some fid := by
      intro other fid found
      have different : other ≠ wid := by
        rintro rfl
        rw [ConnectionProjection.fidOf, found] at mapped
        cases mapped
      rw [lookup_insert_ne _ different, found]
    constructor
    · intro other fid found
      simp only [allocateFid, mapFid, lookup_insert] at found ⊢
      split at found
      · obtain rfl := Option.some.inj found
        exact Nat.lt_succ_self _
      · exact (core.fid_bound other fid found).trans (Nat.lt_succ_self _)
    · intro first second fid found found'
      simp only [allocateFid, mapFid, lookup_insert] at found found'
      split at found <;> split at found'
      · next same same' => rw [same, same']
      · obtain rfl := Option.some.inj found
        exact absurd (core.fid_bound second _ found') (lt_irrefl _)
      · obtain rfl := Option.some.inj found'
        exact absurd (core.fid_bound first _ found) (lt_irrefl _)
      · exact core.fid_injective first second fid found found'
    · exact fun other entry found => keeps other _ (core.acked_fid other entry found)
    · exact fun record member op in_ops kind =>
        keeps _ _ (core.record_fid record member op in_ops kind)
    · exact core.records_ascending
    · exact core.records_window
    · exact core.baseline_le

theorem ensureFids (core : ConnectionCore latest connection) (wids : List WorldId) :
    ConnectionCore latest (connection.ensureFids wids) := by
  induction wids using List.reverseRecOn with
  | nil => exact core
  | append_singleton rest wid ih =>
    rw [ensureFids_append_single]
    exact ih.ensureFid wid

end ConnectionCore

section Counts

theorem mem_countWids (counts : WidMap Nat) (ops : List SentOp) (wid : WorldId) :
    wid ∈ countWids counts ops ↔ wid ∈ counts ∨ wid ∈ ops.map SentOp.wid := by
  induction ops using List.reverseRecOn with
  | nil => simp [countWids]
  | append_singleton rest op ih =>
    have step : countWids counts (rest ++ [op]) = (countWids counts rest).insert op.wid
        (((countWids counts rest)[op.wid]?).getD 0 + 1) := by
      simp only [countWids, List.foldl_append, List.foldl_cons, List.foldl_nil]
    rw [step, Std.ExtTreeMap.mem_insert, Std.LawfulEqCmp.compare_eq_iff_eq, ih]
    simp only [List.map_append, List.map_cons, List.map_nil, List.mem_append,
      List.mem_singleton, @eq_comm _ wid op.wid]
    tauto

theorem releaseWid_lookup_ne (counts : WidMap Nat) {wid other : WorldId} (ne : other ≠ wid) :
    (releaseWid counts wid)[other]? = counts[other]? := by
  unfold releaseWid
  split
  · rfl
  · split
    · rw [lookup_erase_ne _ ne]
    · rw [lookup_insert_ne _ ne]

theorem releaseRecordWids_lookup (counts : WidMap Nat) (record : SentFrameRecord)
    {wid : WorldId} (absent : wid ∉ record.ops.map SentOp.wid) :
    (releaseRecordWids counts record)[wid]? = counts[wid]? := by
  unfold releaseRecordWids
  generalize record.ops = ops at absent
  induction ops generalizing counts with
  | nil => rfl
  | cons op rest ih =>
    simp only [List.map_cons, List.mem_cons, not_or] at absent
    rw [List.foldl_cons, ih _ absent.2, releaseWid_lookup_ne _ absent.1]

end Counts

/-- Evicting changes only the bookkeeping of records; the flag is raised as soon as
a record above the baseline is lost. -/
theorem evictLoop_result (maxFrames maxBytes : Nat) (records : List SentFrameRecord)
    (connection : ConnectionProjection) (same : connection.unackedRecords = records)
    (window : ∀ record ∈ records, connection.ackedBaseline < record.snapshotId) :
    evictLoop maxFrames maxBytes records connection = (false, connection) ∨
      ∃ kept bytes counts, kept <:+ records ∧ evictLoop maxFrames maxBytes records connection =
        (true, { connection with
          unackedRecords := kept, unackedBytes := bytes, unackedWidCounts := counts }) := by
  induction records generalizing connection with
  | nil => exact Or.inl rfl
  | cons record rest ih =>
    unfold evictLoop
    split
    · right
      have unacked : decide (record.snapshotId > connection.ackedBaseline) = true := by
        simpa using window record (by simp)
      have popped := ih (connection.popRecord record rest) rfl
        fun other member => window other (List.mem_cons_of_mem _ member)
      rcases popped with none_lost | ⟨kept, bytes, counts, suffix, lost⟩
      · exact ⟨rest, _, _, List.suffix_cons _ _, by rw [none_lost, unacked]; rfl⟩
      · exact ⟨kept, bytes, counts, suffix.trans (List.suffix_cons _ _),
          by rw [lost, unacked]; rfl⟩
    · exact Or.inl rfl

/-- Evicting touches nothing but the bookkeeping of records. -/
theorem evictLoop_frame (maxFrames maxBytes : Nat) (records : List SentFrameRecord)
    (connection : ConnectionProjection) (same : connection.unackedRecords = records) :
    ∃ kept bytes counts, kept <:+ records ∧
      (evictLoop maxFrames maxBytes records connection).2 = { connection with
        unackedRecords := kept, unackedBytes := bytes, unackedWidCounts := counts } := by
  induction records generalizing connection with
  | nil =>
    refine ⟨[], connection.unackedBytes, connection.unackedWidCounts, List.suffix_rfl, ?_⟩
    rw [evictLoop, ← same]
  | cons record rest ih =>
    unfold evictLoop
    split
    · obtain ⟨kept, bytes, counts, suffix, frame⟩ := ih (connection.popRecord record rest) rfl
      exact ⟨kept, bytes, counts, suffix.trans (List.suffix_cons _ _), frame⟩
    · refine ⟨record :: rest, connection.unackedBytes, connection.unackedWidCounts,
        List.suffix_rfl, ?_⟩
      rw [← same]

/-- Committing a frame appends its record, advances the sequence and may evict. -/
theorem commitFrame_frame (engine : ProjectionEngine) (connection : ConnectionProjection)
    (ops : List SentOp) :
    ∃ kept bytes counts needed,
      kept <:+ connection.unackedRecords ++
        [⟨engine.latestSnapshotId, ops, ops.length * sentOpBytes⟩] ∧
      engine.commitFrame connection ops = { connection with
        streamSequence := connection.streamSequence + 1
        unackedRecords := kept
        unackedBytes := bytes
        unackedWidCounts := counts
        needsKeyframe := needed } := by
  obtain ⟨kept, bytes, counts, suffix, frame⟩ := evictLoop_frame engine.config.maxUnackedFrames
    engine.config.maxUnackedBytes _
    (connection.recordSent engine.latestSnapshotId ops).advanceStreamSequence rfl
  have evicted : ((connection.recordSent engine.latestSnapshotId
      ops).advanceStreamSequence.evictUnacked engine.config.maxUnackedFrames
        engine.config.maxUnackedBytes).2 = _ := frame
  unfold commitFrame
  simp only
  split
  · exact ⟨kept, bytes, counts, true, suffix, by rw [evicted]; rfl⟩
  · exact ⟨kept, bytes, counts, connection.needsKeyframe, suffix, by rw [evicted]; rfl⟩

/-- Dropping through a snapshot id removes exactly the leading records up to it, and
only their ids can lose their count. -/
theorem dropLoop_result (snapshotId : Nat) (records : List SentFrameRecord)
    (connection : ConnectionProjection) (same : connection.unackedRecords = records) :
    ∃ bytes counts, dropLoop snapshotId records connection = { connection with
        unackedRecords := records.dropWhile fun record => record.snapshotId ≤ snapshotId
        unackedBytes := bytes
        unackedWidCounts := counts } ∧
      ∀ wid, wid ∉ (replayedOps records snapshotId).map SentOp.wid →
        counts[wid]? = connection.unackedWidCounts[wid]? := by
  induction records generalizing connection with
  | nil =>
    refine ⟨connection.unackedBytes, connection.unackedWidCounts, ?_, fun _ _ => rfl⟩
    rw [dropLoop, List.dropWhile_nil, ← same]
  | cons record rest ih =>
    unfold dropLoop replayedOps
    by_cases reached : record.snapshotId ≤ snapshotId
    · obtain ⟨bytes, counts, dropped, kept⟩ := ih (connection.popRecord record rest) rfl
      refine ⟨bytes, counts, ?_, fun wid absent => ?_⟩
      · rw [if_pos reached, dropped]
        simp [reached, popRecord]
      · rw [List.takeWhile_cons, if_pos (by simpa using reached), List.flatMap_cons,
          List.map_append, List.mem_append, not_or] at absent
        rw [kept wid absent.2]
        exact releaseRecordWids_lookup _ record absent.1
    · refine ⟨connection.unackedBytes, connection.unackedWidCounts, ?_, fun _ _ => rfl⟩
      rw [if_neg reached, List.dropWhile_cons, if_neg (by simpa using reached), ← same]

/-- Replaying recorded operations edits the acknowledged view. -/
theorem replay_view (acked : WidMap TrackedEntity) (ops : List SentOp) :
    viewOf (ops.foldl applySentOp acked) = applyScript (viewOf acked) (ops.map SentOp.edit) := by
  induction ops using List.reverseRecOn with
  | nil => rfl
  | append_singleton rest op ih =>
    rw [List.foldl_append, List.foldl_cons, List.foldl_nil, List.map_append, List.map_cons,
      List.map_nil, applyScript_append, ← ih]
    funext wid
    generalize rest.foldl applySentOp acked = view
    simp only [viewOf, applyScript, lastEdit, List.foldl_cons, List.foldl_nil]
    by_cases same : wid = op.wid
    · subst same
      unfold applySentOp SentOp.edit
      cases kind : op.kind <;> simp [TrackedEntity.entry]
    · unfold applySentOp SentOp.edit
      cases kind : op.kind <;>
        simp [lookup_insert_ne _ same, lookup_erase_ne _ same, Ne.symm same]

theorem replay_fids {fids : WidMap FeatureId} {acked : WidMap TrackedEntity}
    (acked_fid : ∀ (wid : WorldId) (entry : TrackedEntity), acked[wid]? = some entry →
      fids[wid]? = some entry.fid)
    {ops : List SentOp}
    (op_fid : ∀ op ∈ ops, op.kind ≠ .leave → fids[op.wid]? = some op.fid)
    (wid : WorldId) (entry : TrackedEntity)
    (found : (ops.foldl applySentOp acked)[wid]? = some entry) :
    fids[wid]? = some entry.fid := by
  induction ops using List.reverseRecOn generalizing wid entry with
  | nil => exact acked_fid wid entry found
  | append_singleton rest op ih =>
    have ih := ih fun other member => op_fid other (List.mem_append_left _ member)
    rw [List.foldl_append, List.foldl_cons, List.foldl_nil] at found
    unfold applySentOp at found
    by_cases same : wid = op.wid
    · subst same
      cases kind : op.kind with
      | leave => simp [kind] at found
      | _ =>
        simp only [kind, lookup_insert_self, Option.some.injEq] at found
        rw [op_fid op (by simp) (by simp [kind]), ← found]
    · cases kind : op.kind with
      | leave =>
        rw [kind] at found
        rw [lookup_erase_ne _ same] at found
        exact ih wid entry found
      | _ =>
        rw [kind] at found
        rw [lookup_insert_ne _ same] at found
        exact ih wid entry found

theorem mem_replayedOps {records : List SentFrameRecord} {snapshotId : Nat} {op : SentOp}
    (member : op ∈ replayedOps records snapshotId) : ∃ record ∈ records, op ∈ record.ops := by
  obtain ⟨record, in_prefix, in_ops⟩ := List.mem_flatMap.mp member
  exact ⟨record, (List.takeWhile_sublist _).subset in_prefix, in_ops⟩

theorem lt_of_mem_dropWhile {records : List SentFrameRecord} {snapshotId : Nat}
    (ascending : records.Pairwise fun first second => first.snapshotId < second.snapshotId)
    {record : SentFrameRecord}
    (member : record ∈ records.dropWhile fun record => record.snapshotId ≤ snapshotId) :
    snapshotId < record.snapshotId := by
  induction records with
  | nil => simp at member
  | cons head rest ih =>
    have tail := List.pairwise_cons.mp ascending
    by_cases reached : head.snapshotId ≤ snapshotId
    · rw [List.dropWhile_cons, if_pos (by simpa using reached)] at member
      exact ih tail.2 member
    · rw [List.dropWhile_cons, if_neg (by simpa using reached)] at member
      rcases List.mem_cons.mp member with rfl | later
      · omega
      · exact (not_le.mp reached).trans (tail.1 record later)

/-- What an accepted acknowledgement does to the connection. -/
theorem acknowledge_accepted {connection : ConnectionProjection} {snapshotId : Nat}
    (accepted : (connection.acknowledge snapshotId).1 = .accepted) :
    connection.epochSnapshotFloor < snapshotId ∧ connection.ackedBaseline < snapshotId ∧
    (∃ record ∈ connection.unackedRecords, record.snapshotId = snapshotId) ∧
    ∃ bytes counts, (connection.acknowledge snapshotId).2 = { connection with
        ackedView := (replayedOps connection.unackedRecords snapshotId).foldl applySentOp
          connection.ackedView
        ackedDirty := connection.ackedDirty ++
          (replayedOps connection.unackedRecords snapshotId).map SentOp.wid
        ackedBaseline := snapshotId
        unackedRecords := connection.unackedRecords.dropWhile
          fun record => record.snapshotId ≤ snapshotId
        unackedBytes := bytes
        unackedWidCounts := counts } ∧
      ∀ wid, wid ∉ (replayedOps connection.unackedRecords snapshotId).map SentOp.wid →
        counts[wid]? = connection.unackedWidCounts[wid]? := by
  unfold ConnectionProjection.acknowledge at accepted ⊢
  split at accepted
  · cases accepted
  · next above_floor =>
    rw [if_neg above_floor]
    split at accepted
    · cases accepted
    · next above_baseline =>
      rw [if_neg above_baseline]
      split at accepted
      · next known =>
        rw [if_pos known]
        obtain ⟨record, member, same⟩ := List.any_eq_true.mp known
        obtain ⟨bytes, counts, dropped, kept⟩ := dropLoop_result snapshotId
          connection.unackedRecords { connection with
            ackedView := (replayedOps connection.unackedRecords snapshotId).foldl applySentOp
              connection.ackedView
            ackedDirty := connection.ackedDirty ++
              (replayedOps connection.unackedRecords snapshotId).map SentOp.wid
            ackedBaseline := snapshotId } rfl
        exact ⟨not_le.mp above_floor, not_le.mp above_baseline,
          ⟨record, member, by simpa using same⟩, bytes, counts, dropped, kept⟩
      · cases accepted

theorem acknowledge_rejected {connection : ConnectionProjection} {snapshotId : Nat}
    (rejected : (connection.acknowledge snapshotId).1 ≠ .accepted) :
    (connection.acknowledge snapshotId).2 = connection := by
  unfold ConnectionProjection.acknowledge at rejected ⊢
  split
  · rfl
  · next above_floor =>
    rw [if_neg above_floor] at rejected
    split
    · rfl
    · next above_baseline =>
      rw [if_neg above_baseline] at rejected
      split
      · next known => simp [known] at rejected
      · rfl

namespace ConnectionInv

variable {latest : Nat} {connection : ConnectionProjection}

theorem fresh (id : ConnectionId) (subscription : Subscription) (latest : Nat) :
    ConnectionInv latest (({ id := id } : ConnectionProjection).setSubscription subscription) := by
  refine ⟨⟨?_, ?_, ?_, ?_, ?_, ?_, ?_⟩, ?_⟩ <;> simp [setSubscription]

theorem of_needsKeyframe (core : ConnectionCore latest connection)
    (needed : connection.needsKeyframe = true) : ConnectionInv latest connection :=
  ⟨core, fun unneeded => by rw [needed] at unneeded; cases unneeded⟩

theorem mono (inv : ConnectionInv latest connection) {later : Nat} (le : latest ≤ later) :
    ConnectionInv later connection :=
  ⟨inv.toConnectionCore.mono le, inv.settled⟩

theorem setSubscription (inv : ConnectionInv latest connection) (subscription : Subscription) :
    ConnectionInv latest (connection.setSubscription subscription) :=
  of_needsKeyframe { inv.toConnectionCore with } rfl

theorem scheduleKeyframe (inv : ConnectionInv latest connection) :
    ConnectionInv latest { connection with needsKeyframe := true } :=
  of_needsKeyframe { inv.toConnectionCore with } rfl

theorem resetEpoch (connection : ConnectionProjection) (latest : Nat)
    (reason : EpochResetReason) (floor : Nat) :
    ConnectionInv latest (connection.resetEpoch reason floor) := by
  refine of_needsKeyframe ⟨?_, ?_, ?_, ?_, ?_, ?_, ?_⟩ rfl <;>
    simp [ConnectionProjection.resetEpoch]

theorem acknowledge (inv : ConnectionInv latest connection) (snapshotId : Nat) :
    ConnectionInv latest (connection.acknowledge snapshotId).2 := by
  by_cases accepted : (connection.acknowledge snapshotId).1 = .accepted
  · obtain ⟨-, -, ⟨record, in_records, same⟩, bytes, counts, result, kept⟩ :=
      acknowledge_accepted accepted
    rw [result]
    have still : ∀ record, record ∈ connection.unackedRecords.dropWhile
        (fun record => decide (record.snapshotId ≤ snapshotId)) →
        record ∈ connection.unackedRecords :=
      fun record member => (List.dropWhile_sublist _).subset member
    refine ⟨⟨inv.fid_bound, inv.fid_injective, ?_, ?_, ?_, ?_, ?_⟩, ?_⟩
    · refine replay_fids inv.acked_fid fun op member => ?_
      obtain ⟨record, in_records, in_ops⟩ := mem_replayedOps member
      exact inv.record_fid record in_records op in_ops
    · exact fun record member => inv.record_fid record (still record member)
    · exact inv.records_ascending.sublist (List.dropWhile_sublist _)
    · exact fun record member => ⟨lt_of_mem_dropWhile inv.records_ascending member,
        (inv.records_window record (still record member)).2⟩
    · rw [← same]
      exact (inv.records_window record in_records).2
    · intro unneeded wid unsettled
      simp only [Unsettled, List.mem_append, not_or] at unsettled
      obtain ⟨⟨not_dirty, not_replayed⟩, uncounted⟩ := unsettled
      have settled := inv.settled unneeded wid
      have uncounted' : wid ∉ connection.unackedWidCounts := by
        rw [Std.ExtTreeMap.mem_iff_isSome_getElem?, ← kept wid not_replayed,
          ← Std.ExtTreeMap.mem_iff_isSome_getElem?]
        exact uncounted
      rw [settled (by simp only [Unsettled, not_or]; exact ⟨not_dirty, uncounted'⟩)]
      have untouched : wid ∉ touched
          ((replayedOps connection.unackedRecords snapshotId).map SentOp.edit) := by
        simpa [touched, SentOp.edit] using not_replayed
      exact (congrFun (replay_view connection.ackedView _) wid).trans
        (applyScript_untouched _ untouched) |>.symm
  · rw [acknowledge_rejected accepted]
    exact inv

/-- Sending a frame: its record is appended, then old records may be evicted. -/
theorem commitFrame {engine : ProjectionEngine} {ops : List SentOp}
    (core : ConnectionCore latest connection)
    (next : engine.latestSnapshotId = latest + 1)
    (op_fid : ∀ op ∈ ops, op.kind ≠ .leave → connection.fidByWid[op.wid]? = some op.fid)
    (settled : ∀ wid, ¬ Unsettled connection wid → wid ∉ ops.map SentOp.wid →
      viewOf connection.currentView wid = viewOf connection.ackedView wid) :
    ConnectionInv engine.latestSnapshotId (engine.commitFrame connection ops) := by
  have sent : ConnectionCore engine.latestSnapshotId
      (connection.recordSent engine.latestSnapshotId ops).advanceStreamSequence := by
    rw [next]
    constructor
    · exact core.fid_bound
    · exact core.fid_injective
    · exact core.acked_fid
    · intro record member op in_ops kind
      rcases List.mem_append.mp member with earlier | last
      · exact core.record_fid record earlier op in_ops kind
      · obtain rfl := List.mem_singleton.mp last
        exact op_fid op in_ops kind
    · refine List.pairwise_append.mpr ⟨core.records_ascending, List.pairwise_singleton _ _, ?_⟩
      intro first member second last
      obtain rfl := List.mem_singleton.mp last
      exact Nat.lt_succ_of_le (core.records_window first member).2
    · intro record member
      rcases List.mem_append.mp member with earlier | last
      · exact ⟨(core.records_window record earlier).1,
          (core.records_window record earlier).2.trans (Nat.le_succ _)⟩
      · obtain rfl := List.mem_singleton.mp last
        exact ⟨Nat.lt_succ_of_le core.baseline_le, le_rfl⟩
    · exact core.baseline_le.trans (Nat.le_succ _)
  unfold ProjectionEngine.commitFrame
  rcases evictLoop_result engine.config.maxUnackedFrames engine.config.maxUnackedBytes _
      (connection.recordSent engine.latestSnapshotId ops).advanceStreamSequence rfl
      (fun record member => (sent.records_window record member).1) with
    none_lost | ⟨kept, bytes, counts, suffix, lost⟩
  · have unchanged : evictUnacked
        (connection.recordSent engine.latestSnapshotId ops).advanceStreamSequence
        engine.config.maxUnackedFrames engine.config.maxUnackedBytes = _ := none_lost
    simp only [unchanged, Bool.false_eq_true, if_false]
    refine ⟨sent, fun _ wid unsettled => ?_⟩
    simp only [Unsettled, recordSent, advanceStreamSequence, mem_countWids, not_or] at unsettled
    exact settled wid (by simp only [Unsettled, not_or]; exact ⟨unsettled.1, unsettled.2.1⟩)
      unsettled.2.2
  · have evicted : evictUnacked
        (connection.recordSent engine.latestSnapshotId ops).advanceStreamSequence
        engine.config.maxUnackedFrames engine.config.maxUnackedBytes = _ := lost
    simp only [evicted, if_true]
    refine of_needsKeyframe ⟨sent.fid_bound, sent.fid_injective, sent.acked_fid, ?_,
      sent.records_ascending.sublist suffix.sublist, ?_, sent.baseline_le⟩ rfl
    · exact fun record member => sent.record_fid record (suffix.subset member)
    · exact fun record member => sent.records_window record (suffix.subset member)

end ConnectionInv

end GeoWorld.Projection
