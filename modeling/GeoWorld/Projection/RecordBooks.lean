import Mathlib
import GeoWorld.Library.KeyTally
import GeoWorld.Projection.KeyframeSchedule

/-!
The bookkeeping of the frames that were sent and not acknowledged: the byte total, the
multiset of their ids, the bounds on both after a build, and the keyframe that follows the loss
of a record.
-/

namespace GeoWorld.Projection

open WorldModel Library ConnectionProjection ProjectionEngine

def SentFrameRecord.wids (record : SentFrameRecord) : List WorldId :=
  record.ops.map SentOp.wid

/-- The ids in the operations of the records, each as often as it occurs. -/
def recordWids (records : List SentFrameRecord) : Multiset WorldId :=
  ((records.flatMap SentFrameRecord.wids : List WorldId) : Multiset WorldId)

def recordBytes (records : List SentFrameRecord) : Nat :=
  (records.map SentFrameRecord.bytes).sum

/-- The aggregates of a connection are those of its records. -/
structure ExactBooks (connection : ConnectionProjection) : Prop where
  record_bytes : ∀ record ∈ connection.unackedRecords,
    record.bytes = record.ops.length * sentOpBytes
  record_wids : ∀ record ∈ connection.unackedRecords, record.wids.Nodup
  bytes_eq : connection.unackedBytes = recordBytes connection.unackedRecords
  counts_eq : Tallies connection.unackedWidCounts (recordWids connection.unackedRecords)

/-- The bounds that eviction restores. -/
structure WithinLimits (maxFrames maxBytes : Nat) (connection : ConnectionProjection) :
    Prop where
  frames : connection.unackedRecords.length ≤ maxFrames
  bytes : connection.unackedBytes ≤ maxBytes

structure RecordsKept (config : ProjectionConfig) (connection : ConnectionProjection) : Prop
    extends ExactBooks connection,
      WithinLimits config.maxUnackedFrames config.maxUnackedBytes connection where
  counts_positive : ∀ wid : WorldId, connection.unackedWidCounts[wid]? ≠ some 0
  ascending : connection.unackedRecords.Pairwise
    fun first second => first.snapshotId < second.snapshotId
  unacked : ∀ record ∈ connection.unackedRecords, connection.ackedBaseline < record.snapshotId

namespace BuiltFrame

def recordIds (connection : ConnectionProjection) : List Nat :=
  connection.unackedRecords.map SentFrameRecord.snapshotId

/-- Sending the frame evicted a record above the acknowledged baseline, an older one or its
own. -/
def LosesRecord (built : BuiltFrame) : Prop :=
  ∃ snapshotId ∈ recordIds built.plan.connection ++ [built.frame.header.snapshotId],
    built.plan.connection.ackedBaseline < snapshotId ∧
      snapshotId ∉ recordIds built.after.connection

instance (built : BuiltFrame) : Decidable built.LosesRecord :=
  inferInstanceAs (Decidable (∃ snapshotId ∈ _, _))

end BuiltFrame

/-- The books of a connection are kept in every state of its run. -/
structure BooksKept (config : ProjectionConfig) (id : ConnectionId) (log : FrameLog) : Prop where
  records_kept : ∀ slot, log.engine.connections[id]? = some slot →
    RecordsKept config slot.connection
  keyframe_follows : log.built.IsChain fun first second =>
    first.LosesRecord → second.frame.isKeyframe = true

section Books

variable {connection : ConnectionProjection} {record : SentFrameRecord}
  {rest : List SentFrameRecord} {ops : List SentOp}

@[simp] theorem recordWids_cons (record : SentFrameRecord) (rest : List SentFrameRecord) :
    recordWids (record :: rest) = record.wids + recordWids rest := by
  simp [recordWids]

@[simp] theorem recordWids_concat (records : List SentFrameRecord) (record : SentFrameRecord) :
    recordWids (records ++ [record]) = recordWids records + record.wids := by
  simp [recordWids]

theorem countWids_eq (counts : WidMap Nat) (ops : List SentOp) :
    countWids counts ops = (ops.map SentOp.wid).foldl tallyAdd counts := by
  rw [List.foldl_map]
  rfl

theorem releaseRecordWids_eq (counts : WidMap Nat) (record : SentFrameRecord) :
    releaseRecordWids counts record = record.wids.foldl tallyRelease counts := by
  rw [SentFrameRecord.wids, List.foldl_map]
  rfl

theorem ExactBooks.empty (none : connection.unackedRecords = [])
    (bytes : connection.unackedBytes = 0) (counts : connection.unackedWidCounts = ∅) :
    ExactBooks connection := by
  refine ⟨by simp [none], by simp [none], by simp [none, bytes, recordBytes], ?_⟩
  rw [none, counts]
  exact Tallies.empty

theorem ExactBooks.recordSent (books : ExactBooks connection) (snapshotId : Nat)
    (distinct : (ops.map SentOp.wid).Nodup) : ExactBooks (connection.recordSent snapshotId ops) := by
  constructor
  · intro record member
    rcases List.mem_append.mp member with earlier | last
    · exact books.record_bytes record earlier
    · obtain rfl := List.mem_singleton.mp last
      rfl
  · intro record member
    rcases List.mem_append.mp member with earlier | last
    · exact books.record_wids record earlier
    · obtain rfl := List.mem_singleton.mp last
      exact distinct
  · simp [ConnectionProjection.recordSent, recordBytes, books.bytes_eq]
  · simp only [ConnectionProjection.recordSent, recordWids_concat, countWids_eq]
    exact books.counts_eq.addAll _

/-- The byte total never falls below the record that is removed. -/
theorem ExactBooks.bytes_cons (books : ExactBooks connection)
    (first : connection.unackedRecords = record :: rest) :
    connection.unackedBytes = record.bytes + recordBytes rest := by
  rw [books.bytes_eq, first, recordBytes, List.map_cons, List.sum_cons]
  rfl

theorem ExactBooks.popRecord (books : ExactBooks connection)
    (first : connection.unackedRecords = record :: rest) :
    ExactBooks (connection.popRecord record rest) := by
  have still : ∀ other ∈ rest, other ∈ connection.unackedRecords := by
    intro other member
    rw [first]
    exact List.mem_cons_of_mem _ member
  constructor
  · exact fun other member => books.record_bytes other (still other member)
  · exact fun other member => books.record_wids other (still other member)
  · simp only [ConnectionProjection.popRecord, books.bytes_cons first, Nat.add_sub_cancel_left]
  · have counts := books.counts_eq
    rw [first, recordWids_cons] at counts
    simp only [ConnectionProjection.popRecord, releaseRecordWids_eq]
    exact counts.releaseAll

theorem WithinLimits.popRecord {maxFrames maxBytes : Nat}
    (limits : WithinLimits maxFrames maxBytes connection)
    (first : connection.unackedRecords = record :: rest) :
    WithinLimits maxFrames maxBytes (connection.popRecord record rest) := by
  have frames := limits.frames
  rw [first, List.length_cons] at frames
  exact ⟨by simp only [ConnectionProjection.popRecord]; omega,
    (Nat.sub_le _ _).trans limits.bytes⟩

/-- Eviction ends within its limits: without records there are no bytes left. -/
theorem evictLoop_books (maxFrames maxBytes : Nat) (records : List SentFrameRecord)
    (connection : ConnectionProjection) (same : connection.unackedRecords = records)
    (books : ExactBooks connection) :
    ExactBooks (evictLoop maxFrames maxBytes records connection).2 ∧
      WithinLimits maxFrames maxBytes (evictLoop maxFrames maxBytes records connection).2 := by
  induction records generalizing connection with
  | nil =>
    refine ⟨books, by simp [evictLoop, same], ?_⟩
    simp [evictLoop, books.bytes_eq, same, recordBytes]
  | cons record rest ih =>
    unfold evictLoop
    split
    · exact ih _ rfl (books.popRecord same)
    · next fits =>
      simp only [not_or, not_lt] at fits
      exact ⟨books, by simpa [same] using fits.1, fits.2⟩

/-- What every removal of the oldest record keeps, an acknowledgement keeps. -/
theorem dropLoop_keeps {holds : ConnectionProjection → Prop}
    (pops : ∀ {connection record rest}, holds connection →
      connection.unackedRecords = record :: rest → holds (connection.popRecord record rest))
    (snapshotId : Nat) (records : List SentFrameRecord) (connection : ConnectionProjection)
    (same : connection.unackedRecords = records) (initially : holds connection) :
    holds (dropLoop snapshotId records connection) := by
  induction records generalizing connection with
  | nil => exact initially
  | cons record rest ih =>
    unfold dropLoop
    split
    · exact ih _ rfl (pops initially same)
    · exact initially

theorem acknowledge_keeps {holds : ConnectionProjection → Prop}
    (pops : ∀ {connection record rest}, holds connection →
      connection.unackedRecords = record :: rest → holds (connection.popRecord record rest))
    (replays : ∀ {connection : ConnectionProjection} {view dirty baseline}, holds connection →
      holds { connection with
        ackedView := view
        ackedDirty := dirty
        ackedBaseline := baseline })
    (snapshotId : Nat) (initially : holds connection) :
    holds (connection.acknowledge snapshotId).2 := by
  unfold ConnectionProjection.acknowledge
  split
  · exact initially
  · split
    · exact initially
    · split
      · exact dropLoop_keeps pops snapshotId _ _ rfl (replays initially)
      · exact initially

/-- Operations other than `on_projection` keep the books. -/
theorem slotEffect_books {config : ProjectionConfig} {slot : Slot} (latest : Nat)
    (id : ConnectionId) (event : EngineEvent) (books : ExactBooks slot.connection)
    (limits : WithinLimits config.maxUnackedFrames config.maxUnackedBytes slot.connection) :
    ExactBooks (slotEffect latest id slot event).connection ∧
      WithinLimits config.maxUnackedFrames config.maxUnackedBytes
        (slotEffect latest id slot event).connection := by
  refine @slotEffect_keeps (fun connection => ExactBooks connection ∧
    WithinLimits config.maxUnackedFrames config.maxUnackedBytes connection) latest id slot event
    (fun subscription => ?_) ?_ ?_ (fun snapshotId => ?_) ⟨books, limits⟩
  · exact ⟨{ books with }, { limits with }⟩
  · exact ⟨.empty rfl rfl rfl, Nat.zero_le _, Nat.zero_le _⟩
  · exact ⟨{ books with }, { limits with }⟩
  · exact ⟨acknowledge_keeps ExactBooks.popRecord (fun books => { books with }) snapshotId books,
      acknowledge_keeps WithinLimits.popRecord (fun limits => { limits with }) snapshotId limits⟩

/-- No id is counted more often than there are records. -/
theorem RecordsKept.count_le {config : ProjectionConfig} (kept : RecordsKept config connection)
    {wid : WorldId} {count : Nat} (found : connection.unackedWidCounts[wid]? = some count) :
    count ≤ config.maxUnackedFrames := by
  have total : count = ((connection.unackedRecords.map SentFrameRecord.wids).map
      (List.count wid)).sum := by
    have counted := kept.counts_eq.getD_eq wid
    rw [found, Option.getD_some, recordWids, Multiset.coe_count, List.count_flatMap] at counted
    rw [counted, List.map_map]
  have once : ∀ occurrences ∈ (connection.unackedRecords.map SentFrameRecord.wids).map
      (List.count wid), occurrences ≤ 1 := by
    intro occurrences member
    obtain ⟨wids, listed, rfl⟩ := List.mem_map.mp member
    obtain ⟨record, in_records, rfl⟩ := List.mem_map.mp listed
    exact List.nodup_iff_count_le_one.mp (kept.record_wids record in_records) wid
  have bounded := List.sum_le_card_nsmul _ 1 once
  rw [← total, List.length_map, List.length_map, smul_eq_mul, mul_one] at bounded
  exact bounded.trans kept.frames

end Books

section Build

variable {engine : ProjectionEngine} {world : World} {tick : UInt64} {slot : Slot}
  {connection before : ConnectionProjection}

structure SameBooks (connection before : ConnectionProjection) : Prop where
  records : connection.unackedRecords = before.unackedRecords
  bytes : connection.unackedBytes = before.unackedBytes
  counts : connection.unackedWidCounts = before.unackedWidCounts
  baseline : connection.ackedBaseline = before.ackedBaseline

theorem ExactBooks.congr (books : ExactBooks before) (same : SameBooks connection before) :
    ExactBooks connection := by
  obtain ⟨record_bytes, record_wids, bytes_eq, counts_eq⟩ := books
  rw [← same.records] at record_bytes record_wids bytes_eq counts_eq
  exact ⟨record_bytes, record_wids, same.bytes.trans bytes_eq, same.counts ▸ counts_eq⟩

theorem WithinLimits.congr {maxFrames maxBytes : Nat}
    (limits : WithinLimits maxFrames maxBytes before) (same : SameBooks connection before) :
    WithinLimits maxFrames maxBytes connection :=
  ⟨same.records ▸ limits.frames, same.bytes ▸ limits.bytes⟩

/-- Allocating feature ids leaves the books alone. -/
theorem sameBooks_ensureFids (connection : ConnectionProjection) (wids : List WorldId) :
    SameBooks (connection.ensureFids wids) connection := by
  obtain ⟨_, _, _, frame⟩ := ensureFids_frame connection wids
  rw [frame]
  exact ⟨rfl, rfl, rfl, rfl⟩

theorem commitFrame_books {ops : List SentOp} (books : ExactBooks connection)
    (distinct : (ops.map SentOp.wid).Nodup) :
    ExactBooks (engine.commitFrame connection ops) ∧
      WithinLimits engine.config.maxUnackedFrames engine.config.maxUnackedBytes
        (engine.commitFrame connection ops) := by
  have sent : ExactBooks (connection.recordSent engine.latestSnapshotId ops).advanceStreamSequence :=
    { books.recordSent engine.latestSnapshotId distinct with }
  have evicted := evictLoop_books engine.config.maxUnackedFrames engine.config.maxUnackedBytes _ _
    rfl sent
  unfold commitFrame evictUnacked
  simp only
  split
  · exact ⟨{ evicted.1 with }, { evicted.2 with }⟩
  · exact evicted

/-- What a build does to the books of the connection its plan starts from. -/
inductive BuiltBooks (engine : ProjectionEngine) (before : ConnectionProjection) :
    Option StateFrame → ConnectionProjection → Prop where
  | silent {after : ConnectionProjection} (same : SameBooks after before) :
      BuiltBooks engine before none after
  | sent {base : ConnectionProjection} {ops : List SentOp} {frame : StateFrame}
      (same : SameBooks base before) (distinct : (ops.map SentOp.wid).Nodup)
      (numbered : frame.header.snapshotId = engine.latestSnapshotId) :
      BuiltBooks engine before (some frame) (engine.commitFrame base ops)

theorem buildFrame_books (ready : BuildReady engine slot) :
    BuiltBooks engine (engine.planFrame world tick slot).connection
      (engine.buildFrame world tick slot).1 (engine.buildFrame world tick slot).2.connection := by
  obtain ⟨distinct, -, -⟩ := ready.plan_sound world tick
  obtain ⟨plan, planned⟩ : ∃ plan, engine.planFrame world tick slot = plan := ⟨_, rfl⟩
  unfold buildFrame
  rw [planned] at distinct ⊢
  simp only
  split
  · rw [buildKeyframe_eq]
    have scanned := (engine.keyframeScan_result plan.connection tick distinct).connection_eq
    have same := sameBooks_ensureFids plan.connection
      (plan.visible.filter fun wid => (engine.keyframeAction wid).isEnter)
    rw [← scanned] at same
    exact .sent ⟨same.records, same.bytes, same.counts, same.baseline⟩
      (keyframeOps_distinct distinct) rfl
  · have result := scanDelta_result engine world tick slot.throttlePending distinct
    have same := sameBooks_ensureFids plan.connection
      ((loopWids engine slot.throttlePending plan).filter fun wid =>
        (engine.widAction plan.connection plan.visible tick wid).isEnter)
    rw [← result.connection_eq] at same
    unfold finishDelta
    split
    · exact .silent same
    · refine .sent ?_ (trimUpdates_ops_nodup result
        (loopWids_nodup engine slot.throttlePending distinct)) rfl
      simp only [trimUpdates_connection]
      exact ⟨same.records, same.bytes, same.counts, same.baseline⟩

/-- A commit that asks for no keyframe has kept every record. -/
theorem commitFrame_keeps {latest : Nat} {ops : List SentOp} (core : ConnectionCore latest before)
    (next : engine.latestSnapshotId = latest + 1) (same : SameBooks connection before) :
    (engine.commitFrame connection ops).needsKeyframe = true ∨
      (engine.commitFrame connection ops).unackedRecords = before.unackedRecords ++
        [⟨engine.latestSnapshotId, ops, ops.length * sentOpBytes⟩] := by
  refine (commitFrame_needs core next same.records same.baseline).imp_right fun longer => ?_
  obtain ⟨kept, _, _, _, suffix, committed⟩ := commitFrame_frame engine connection ops
  rw [committed] at longer ⊢
  rw [same.records] at suffix
  refine suffix.eq_of_length_le ?_
  simp only [List.length_append, List.length_singleton] at longer ⊢
  omega

/-- A build that loses a record leaves a keyframe to be sent. -/
theorem loses_needs {built : BuiltFrame} (genuine : FrameLog.Genuine built)
    (loses : built.LosesRecord) : built.after.connection.needsKeyframe = true := by
  obtain ⟨latest, next, inv⟩ := genuine.ready.plan_connection built.world built.tick
  obtain ⟨frame, sent, shape⟩ := Option.map_eq_some_iff.mp genuine.sent
  have same_frame : built.frame = frame := by rw [← shape]
  have books := @buildFrame_books built.engine built.world built.tick built.slot genuine.ready
  have after_eq : built.after.connection =
    (built.engine.buildFrame built.world built.tick built.slot).2.connection := rfl
  obtain ⟨snapshotId, member, -, absent⟩ := loses
  rw [sent] at books
  rw [after_eq] at absent ⊢
  revert absent
  generalize (built.engine.buildFrame built.world built.tick built.slot).2.connection = after
    at books
  intro absent
  cases books with
  | @sent base ops _ same distinct numbered =>
    refine (commitFrame_keeps inv.toConnectionCore next same).resolve_right fun all => absurd ?_ absent
    rw [BuiltFrame.recordIds, all, List.map_append, List.map_singleton, ← numbered, ← same_frame]
    exact member

end Build

structure BooksInv (config : ProjectionConfig) (id : ConnectionId) (log : FrameLog) : Prop
    extends FrameLog.GenuineInv log where
  config_eq : log.engine.config = config
  books : ∀ slot, log.engine.connections[id]? = some slot → ExactBooks slot.connection ∧
    WithinLimits config.maxUnackedFrames config.maxUnackedBytes slot.connection
  follows : log.built.IsChain fun first second =>
    first.LosesRecord → second.frame.isKeyframe = true
  pending : ∀ slot, log.engine.connections[id]? = some slot → ∀ last ∈ log.built.getLast?,
    last.LosesRecord → slot.connection.needsKeyframe = true

section Run

variable {config : ProjectionConfig} {id : ConnectionId} {log after : FrameLog}
  {event : EngineEvent}

theorem planFrame_books (engine : ProjectionEngine) (world : World) (tick : UInt64) {slot : Slot}
    (books : ExactBooks slot.connection) :
    ExactBooks (engine.planFrame world tick slot).connection := by
  unfold planFrame
  simp only
  split
  · exact .empty rfl rfl rfl
  · exact books

theorem planFrame_limits (engine : ProjectionEngine) (world : World) (tick : UInt64) {slot : Slot}
    {maxFrames maxBytes : Nat} (limits : WithinLimits maxFrames maxBytes slot.connection) :
    WithinLimits maxFrames maxBytes (engine.planFrame world tick slot).connection := by
  unfold planFrame
  simp only
  split
  · exact ⟨Nat.zero_le _, Nat.zero_le _⟩
  · exact limits

/-- A pending keyframe is what the next build sends. -/
theorem build_pending {engine : ProjectionEngine} {world : World} {tick : UInt64} {slot : Slot}
    (ready : BuildReady engine slot) (needed : slot.connection.needsKeyframe = true) :
    ∃ frame, (engine.buildFrame world tick slot).1 = some frame ∧ frame.isKeyframe = true :=
  ((buildFrame_schedules ready).due (.inl (build_forced (.inl needed)))).1

/-- A projection that finds the connection keeps its books. -/
theorem BooksInv.project (inv : BooksInv config id log) {world : World} {tick : UInt64}
    {refreshed : ProjectionEngine} {slot : Slot}
    (refresh : log.engine.refreshGlobalView world tick = some refreshed)
    (found : log.engine.connections[id]? = some slot)
    (kept : refreshed.connections[id]? = some slot) :
    (ExactBooks (refreshed.buildSlot world tick slot).connection ∧
      WithinLimits config.maxUnackedFrames config.maxUnackedBytes
        (refreshed.buildSlot world tick slot).connection) ∧
    (log.built ++ (frameBuilt refreshed world tick slot).toList).IsChain (fun first second =>
      first.LosesRecord → second.frame.isKeyframe = true) ∧
    ∀ last ∈ (log.built ++ (frameBuilt refreshed world tick slot).toList).getLast?,
      last.LosesRecord → (refreshed.buildSlot world tick slot).connection.needsKeyframe = true := by
  obtain ⟨-, steps⟩ := refreshGlobalView_step inv.engine_inv.global_inv refresh
  have ready := inv.engine_inv.buildReady refresh kept
  have same_config : refreshed.config = config := steps.config_eq.trans inv.config_eq
  obtain ⟨exact_before, limits_before⟩ := inv.books slot found
  have planned := planFrame_books refreshed world tick exact_before
  have planned_limits := planFrame_limits refreshed world tick limits_before
  have built := @buildFrame_books refreshed world tick slot ready
  have after_eq : (refreshed.buildSlot world tick slot).connection =
    (refreshed.buildFrame world tick slot).2.connection := rfl
  refine ⟨?_, ?_⟩
  · rw [after_eq, ← same_config]
    rw [← same_config] at planned_limits
    revert built
    generalize (refreshed.buildFrame world tick slot).1 = frame
    generalize (refreshed.buildFrame world tick slot).2.connection = connection
    intro built
    cases built with
    | silent same => exact ⟨planned.congr same, planned_limits.congr same⟩
    | sent same distinct => exact commitFrame_books (planned.congr same) distinct
  · cases sent : frameBuilt refreshed world tick slot with
    | none =>
      rw [Option.toList_none, List.append_nil]
      refine ⟨inv.follows, fun last isLast loses => ?_⟩
      obtain ⟨frame, built, -⟩ :=
        @build_pending refreshed world tick slot ready (inv.pending slot found last isLast loses)
      rw [frameBuilt, built] at sent
      cases sent
    | some entry =>
      obtain ⟨frame, built, shape⟩ := Option.map_eq_some_iff.mp sent
      have genuine : FrameLog.Genuine entry := by
        subst shape
        exact ⟨ready, sent⟩
      rw [Option.toList_some]
      refine ⟨List.isChain_append.mpr ⟨inv.follows, .singleton _, ?_⟩, fun last isLast loses => ?_⟩
      · intro last isLast first isFirst loses
        obtain rfl := Option.some.inj isFirst
        obtain ⟨other, built_other, keyframe⟩ :=
          @build_pending refreshed world tick slot ready (inv.pending slot found last isLast loses)
        obtain rfl := Option.some.inj (built.symm.trans built_other)
        rw [← shape]
        exact keyframe
      · rw [List.getLast?_concat] at isLast
        obtain rfl := Option.some.inj isLast
        have needed := loses_needs genuine loses
        subst shape
        exact needed

theorem booksInv_step (inv : BooksInv config id log) (step : log.step id event = some after) :
    BooksInv config id after := by
  have genuine := inv.toGenuineInv.step step
  have stepped := FrameLog.step_engine step
  obtain ⟨same_config, -⟩ := settings_of_step inv.engine_inv stepped
  have config_eq : after.engine.config = config := same_config.trans inv.config_eq
  cases found : after.engine.connections[id]? with
  | none =>
    have none := FrameLog.built_absent step (by simp [found])
    refine ⟨genuine, config_eq, ?_, by simp [none], ?_⟩ <;>
      exact fun slot present => by rw [found] at present; cases present
  | some slot =>
    have advance := FrameLog.advance_of_step inv.engine_inv step found
    have kept : (ExactBooks slot.connection ∧
        WithinLimits config.maxUnackedFrames config.maxUnackedBytes slot.connection) ∧
        after.built.IsChain (fun first second =>
          first.LosesRecord → second.frame.isKeyframe = true) ∧
        ∀ last ∈ after.built.getLast?, last.LosesRecord → slot.connection.needsKeyframe = true := by
      revert advance
      generalize after.built = built
      intro advance
      cases advance with
      | built refresh found_old kept => exact inv.project refresh found_old kept
      | @changed _ old other found_old =>
        obtain ⟨books, limits⟩ := inv.books old found_old
        refine ⟨slotEffect_books _ id event books limits, inv.follows, fun last isLast loses => ?_⟩
        exact (slotEffect_schedule _ id event).2.2.1 (inv.pending old found_old last isLast loses)
      | created =>
        exact ⟨⟨.empty rfl rfl rfl, Nat.zero_le _, Nat.zero_le _⟩, by simp, by simp⟩
    refine ⟨genuine, config_eq, fun other present => ?_, kept.2.1, fun other present => ?_⟩
    · obtain rfl := Option.some.inj (present.symm.trans found)
      exact kept.1
    · obtain rfl := Option.some.inj (present.symm.trans found)
      exact kept.2.2

/-- In every run the aggregates of the records are exact and bounded, the records stand in order
above the acknowledged baseline, and a keyframe follows the loss of one. -/
theorem records_kept_exactly (config : ProjectionConfig) (policy : ProjectionPolicy)
    (id : ConnectionId) {events : List EngineEvent} {log : FrameLog}
    (run : AnyRun (FrameLog.Step id) (.initial config policy) events log) :
    BooksKept config id log := by
  have start : BooksInv config id (.initial config policy) := by
    refine ⟨⟨EngineInv.initial config policy, by simp [FrameLog.initial]⟩, rfl, ?_,
      by simp [FrameLog.initial], ?_⟩ <;> simp [FrameLog.initial]
  have inv := run.invariant start fun _ _ _ _ step inv => booksInv_step inv step
  refine ⟨fun slot found => ?_, inv.follows⟩
  obtain ⟨books, limits⟩ := inv.books slot found
  have connection_inv := (inv.engine_inv.slots id slot found).connection_inv
  exact ⟨books, limits, books.counts_eq.ne_zero, connection_inv.records_ascending,
    fun record member => (connection_inv.records_window record member).1⟩

/-- One record is kept. -/
def forgetful : ProjectionConfig :=
  { originConfig with maxUnackedFrames := 1 }

/-- Nothing is acknowledged, so the second record evicts the first. -/
def unansweredEvents : List EngineEvent :=
  [.addConnection 7 originArea, .onProjection originWorld 1, .onProjection originWorldBoth 2,
    .onProjection originWorldBoth 3]

theorem unanswered_computed :
    (runLabels (FrameLog.step 7) (.initial forgetful {}) unansweredEvents).map
      (fun log => log.built.map fun built => (built.frame.isKeyframe, decide built.LosesRecord)) =
        some [(true, false), (false, true), (true, true)] := by
  decide +kernel

theorem records_kept_unanswered : ∃ log : FrameLog,
    (log.built.map fun built => (built.frame.isKeyframe, decide built.LosesRecord)) =
        [(true, false), (false, true), (true, true)] ∧
      BooksKept forgetful 7 log := by
  obtain ⟨log, computed, frames⟩ := Option.map_eq_some_iff.mp unanswered_computed
  exact ⟨log, frames, records_kept_exactly forgetful {} 7
    (GuardedRun.of_runLabels computed fun _ _ => trivial)⟩

end Run

end GeoWorld.Projection
