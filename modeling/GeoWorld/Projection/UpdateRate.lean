import Mathlib
import GeoWorld.Projection.CachedScan
import GeoWorld.Projection.WellFormedDelta

/-!
The rate of a throttled entity. The tick of its last update is kept in the current view; a delta
that goes out while the entity is held back can replace that entry by the acknowledged one, which
has no tick, and the entity is then sent again too early.
-/

namespace GeoWorld.Projection

open WorldModel Library ConnectionProjection ProjectionEngine

/-- The ticks between two updates of a throttled entity. -/
def rateInterval (config : ProjectionConfig) (frequency : FrequencyClass) : Nat :=
  let engine : ProjectionEngine := { config := config }
  (engine.intervalTicks (engine.updateFrequencyHz frequency)).toNat

/-- The entities that leave or enter in the frame. -/
def StateFrame.moved : StateFrame → List WorldId
  | .keyframe _ => []
  | .delta content => content.leaves.map EntityLeave.wid ++ content.enters.map EntityEnter.wid

def BuiltFrame.Updates (wid : WorldId) (built : BuiltFrame) : Prop :=
  wid ∈ built.frame.updates.map EntityUpdate.wid

/-- A delta through which the entity stays in view, in this frequency class. -/
structure Stays (wid : WorldId) (frequency : FrequencyClass) (built : BuiltFrame) : Prop where
  delta : built.frame.isKeyframe = false
  unmoved : wid ∉ built.frame.moved
  frequency_eq : (built.engine.globalView[wid]?).map
    (fun state => state.projected.metadata.frequency) = some frequency

/-- The entity was updated in `first` and has stayed since. -/
def UpdatedSince (wid : WorldId) (frequency : FrequencyClass) (first : BuiltFrame)
    (frames : List BuiltFrame) : Prop :=
  ∃ earlier later, frames = earlier ++ first :: later ∧ first.Updates wid ∧
    ∀ built ∈ first :: later, Stays wid frequency built

/-- Updates of a throttled entity that stays in view are an interval apart. -/
def RespectsRate (config : ProjectionConfig) (log : FrameLog) : Prop :=
  ∀ earlier second later, log.built = earlier ++ second :: later →
    ∀ wid frequency first, frequency ≠ .onChange → UpdatedSince wid frequency first earlier →
      second.Updates wid → Stays wid frequency second →
        first.time + rateInterval config frequency ≤ second.time

/-- A delta goes out that puts the acknowledged entry of `wid` in place of its current one: its
operations are not settled and it is not sent again, or it is sent again and trimmed. -/
def Overwrites (engine : ProjectionEngine) (world : World) (tick : UInt64) (slot : Slot)
    (wid : WorldId) : Prop :=
  let plan := engine.planFrame world tick slot
  let wids := loopWids engine slot.throttlePending plan
  let action := engine.widAction slot.connection plan.visible tick
  ¬ (plan.forced ∨ plan.periodic) ∧ (∃ other ∈ wids, (action other).Sends) ∧
    (Unsettled slot.connection wid ∧ ¬ (wid ∈ wids ∧ (action wid).Sends) ∨
      wid ∈ wids ∧ Trimmed engine.config.maxUpdatesPerFrame action wids wid)

/-- The next update of the entity is not due one tick from now. -/
def HeldBack (engine : ProjectionEngine) (tick : UInt64) (slot : Slot) (wid : WorldId) : Prop :=
  ∃ state, engine.globalView[wid]? = some state ∧
    state.projected.metadata.frequency ≠ .onChange ∧
    tick.toNat + 1 < (lastSentTick slot.connection.currentView wid).toNat +
      rateInterval engine.config state.projected.metadata.frequency

/-- No entity is held back when its entry is replaced by one with an earlier tick. -/
def KeepsLastSent (id : ConnectionId) (log : FrameLog) : EngineEvent → Prop
  | .onProjection world tick => ∀ refreshed ∈ log.engine.refreshGlobalView world tick,
    ∀ slot ∈ refreshed.connections[id]?, ∀ wid, Overwrites refreshed world tick slot wid →
      HeldBack refreshed tick slot wid →
        (lastSentTick slot.connection.currentView wid).toNat ≤
          (lastSentTick slot.connection.ackedView wid).toNat
  | _ => True

section Lists

variable {α : Type*} {P : List α → α → Prop} {items : List α} {last : α}

/-- Every element against those before it, when one is appended. -/
theorem forall_split_concat
    (earlier_hold : ∀ earlier item later, items = earlier ++ item :: later → P earlier item)
    (last_holds : P items last) :
    ∀ earlier item later, items ++ [last] = earlier ++ item :: later → P earlier item := by
  intro earlier item later split
  rcases List.eq_nil_or_concat later with rfl | ⟨rest, final, rfl⟩
  · obtain ⟨rfl, same⟩ := List.append_inj' split rfl
    obtain rfl := (List.singleton_inj.mp same)
    exact last_holds
  · rw [List.concat_eq_append, ← List.cons_append, ← List.append_assoc] at split
    obtain ⟨front, -⟩ := List.append_inj' split rfl
    exact earlier_hold earlier item rest front

end Lists

section Since

variable {wid : WorldId} {frequency : FrequencyClass} {first last : BuiltFrame}
  {frames : List BuiltFrame}

theorem updatedSince_concat (since : UpdatedSince wid frequency first (frames ++ [last])) :
    Stays wid frequency last ∧
      (first = last ∧ last.Updates wid ∨ UpdatedSince wid frequency first frames) := by
  obtain ⟨earlier, later, split, updates, stays⟩ := since
  rcases List.eq_nil_or_concat later with rfl | ⟨rest, final, rfl⟩
  · obtain ⟨rfl, same⟩ := List.append_inj' split rfl
    obtain rfl := (List.singleton_inj.mp same)
    exact ⟨stays last (by simp), .inl ⟨rfl, updates⟩⟩
  · rw [List.concat_eq_append] at stays split
    rw [← List.cons_append, ← List.append_assoc] at split
    obtain ⟨rfl, same⟩ := List.append_inj' split rfl
    obtain rfl := (List.singleton_inj.mp same)
    exact ⟨stays last (by simp), .inr ⟨earlier, rest, rfl, updates, fun built member =>
      stays built (by
        rcases List.mem_cons.mp member with rfl | inside
        · simp
        · simp [inside])⟩⟩

end Since

section Build

variable {engine : ProjectionEngine} {world : World} {tick : UInt64} {slot : Slot}

theorem lastSentTick_of_lookup {left right : WidMap TrackedEntity} {wid : WorldId}
    (same : left[wid]? = right[wid]?) : lastSentTick left wid = lastSentTick right wid := by
  unfold lastSentTick
  rw [same]

theorem lastSentTick_of_entry {view : WidMap TrackedEntity} {wid : WorldId}
    {tracked : TrackedEntity} (found : view[wid]? = some tracked) :
    lastSentTick view wid = tracked.lastSentTick := by
  unfold lastSentTick
  rw [found]

theorem lastSentTick_of_absent {view : WidMap TrackedEntity} {wid : WorldId}
    (absent : view[wid]? = none) : lastSentTick view wid = 0 := by
  unfold lastSentTick
  rw [absent]

/-- The current view behind a commit is the one before it. -/
theorem commitFrame_views (base : ConnectionProjection) (ops : List SentOp) :
    (engine.commitFrame base ops).currentView = base.currentView ∧
      (engine.commitFrame base ops).ackedView = base.ackedView ∧
      (base.needsKeyframe = true → (engine.commitFrame base ops).needsKeyframe = true) := by
  unfold commitFrame
  obtain ⟨_, _, _, -, frame⟩ := evictLoop_frame engine.config.maxUnackedFrames
    engine.config.maxUnackedBytes _
    (base.recordSent engine.latestSnapshotId ops).advanceStreamSequence rfl
  have evicted : ((base.recordSent engine.latestSnapshotId
      ops).advanceStreamSequence.evictUnacked engine.config.maxUnackedFrames
        engine.config.maxUnackedBytes).2 = _ := frame
  simp only
  split
  · rw [evicted]
    exact ⟨rfl, rfl, fun _ => rfl⟩
  · rw [evicted]
    exact ⟨rfl, rfl, fun needed => needed⟩

/-- The entry of an entity in the current view behind a delta. -/
inductive EntryAfter (engine : ProjectionEngine) (world : World) (tick : UInt64) (slot : Slot)
    (delta : Delta) (wid : WorldId) : Option TrackedEntity → Prop where
  | moved {entry : Option TrackedEntity}
      (moves : wid ∈ (StateFrame.delta delta).moved)
      (now : ∀ tracked ∈ entry, tracked.lastSentTick = tick) :
      EntryAfter engine world tick slot delta wid entry
  | updated {tracked : TrackedEntity}
      (updates : wid ∈ delta.updates.map EntityUpdate.wid) (now : tracked.lastSentTick = tick) :
      EntryAfter engine world tick slot delta wid (some tracked)
  | overwritten (unsent : wid ∉ delta.updates.map EntityUpdate.wid)
      (overwrites : Overwrites engine world tick slot wid) :
      EntryAfter engine world tick slot delta wid slot.connection.ackedView[wid]?
  | kept (unsent : wid ∉ delta.updates.map EntityUpdate.wid) :
      EntryAfter engine world tick slot delta wid slot.connection.currentView[wid]?

/-- The updates of a delta, id by id. -/
theorem updates_iff (ready : BuildReady engine slot) {delta : Delta}
    (built : (engine.buildFrame world tick slot).1 = some (.delta delta)) (wid : WorldId) :
    wid ∈ delta.updates.map EntityUpdate.wid ↔
      wid ∈ loopWids engine slot.throttlePending (engine.planFrame world tick slot) ∧
      (∃ entry state, engine.widAction slot.connection (engine.planFrame world tick slot).visible
        tick wid = .update entry state) ∧
      ¬ Trimmed engine.config.maxUpdatesPerFrame
        (engine.widAction slot.connection (engine.planFrame world tick slot).visible tick)
        (loopWids engine slot.throttlePending (engine.planFrame world tick slot)) wid := by
  obtain ⟨distinct, -, -⟩ := ready.plan_sound world tick
  obtain ⟨_, -, inv⟩ := ready.connection_inv
  have build := deltaBuild ready built
  have apart := loopWids_nodup engine slot.throttlePending distinct
  have sound := widAction_sound ready.global_inv.hashes slot.connection
    (engine.planFrame world tick slot).visible tick
  have trimmed_iff := @mem_trimUpdates_updates engine _ _ _ _ _ _ _ build.loop apart sound
    inv.acked_injective
  have sorted : ∀ update, update ∈ delta.updates ↔ update ∈ (engine.trimUpdates
      slot.connection.ackedView (engine.scanDelta world tick slot.throttlePending
        (engine.planFrame world tick slot))).updates := by
    intro update
    rw [build.content]
    exact List.mem_insertionSort _
  rw [List.mem_map]
  constructor
  · rintro ⟨update, member, rfl⟩
    obtain ⟨other, inside, found, untrimmed⟩ := (trimmed_iff update).mp ((sorted update).mp member)
    obtain rfl := WidAction.updateEntry_wid found
    refine ⟨inside, ?_, untrimmed⟩
    cases acts : engine.widAction slot.connection (engine.planFrame world tick slot).visible tick
        update.wid with
    | update entry state => exact ⟨entry, state, rfl⟩
    | _ => simp [acts, WidAction.updateEntry] at found
  · rintro ⟨inside, ⟨entry, state, acts⟩, untrimmed⟩
    refine ⟨⟨wid, entry.fid, { state.projected with fid := entry.fid }⟩, ?_, rfl⟩
    exact (sorted _).mpr ((trimmed_iff _).mpr ⟨wid, inside, by rw [acts]; rfl, untrimmed⟩)

theorem entryAfter (ready : BuildReady engine slot) {delta : Delta}
    (built : (engine.buildFrame world tick slot).1 = some (.delta delta)) (wid : WorldId) :
    EntryAfter engine world tick slot delta wid
      (engine.buildFrame world tick slot).2.connection.currentView[wid]? := by
  obtain ⟨distinct, -, -⟩ := ready.plan_sound world tick
  obtain ⟨_, -, inv⟩ := ready.connection_inv
  have build := deltaBuild ready built
  have sent_iff := updates_iff ready built wid
  have loop := build.loop
  have content := build.content
  have apart := loopWids_nodup engine slot.throttlePending distinct
  have sound := widAction_sound ready.global_inv.hashes slot.connection
    (engine.planFrame world tick slot).visible tick
  have busy : ∃ other ∈ loopWids engine slot.throttlePending (engine.planFrame world tick slot),
      (engine.widAction slot.connection (engine.planFrame world tick slot).visible tick
        other).Sends := by
    by_contra quiet
    push Not at quiet
    exact build.busy ((quiet_iff loop).mpr quiet)
  have overwrites : (Unsettled slot.connection wid ∧ ¬ (wid ∈ loopWids engine slot.throttlePending
      (engine.planFrame world tick slot) ∧ (engine.widAction slot.connection
        (engine.planFrame world tick slot).visible tick wid).Sends) ∨
      wid ∈ loopWids engine slot.throttlePending (engine.planFrame world tick slot) ∧
      Trimmed engine.config.maxUpdatesPerFrame (engine.widAction slot.connection
        (engine.planFrame world tick slot).visible tick) (loopWids engine slot.throttlePending
          (engine.planFrame world tick slot)) wid) → Overwrites engine world tick slot wid :=
    fun replaced => ⟨build.undue, busy, replaced⟩
  rw [build.after, (commitFrame_views _ _).1, converged, convergeView_lookup,
    trimUpdates_connection, trimUpdates_frameLeaves]
  obtain ⟨scan, scanned⟩ : ∃ scan, engine.scanDelta world tick slot.throttlePending
      (engine.planFrame world tick slot) = scan := ⟨_, rfl⟩
  obtain ⟨wids, visited⟩ : ∃ wids, loopWids engine slot.throttlePending
      (engine.planFrame world tick slot) = wids := ⟨_, rfl⟩
  obtain ⟨action, acting⟩ : ∃ action, engine.widAction slot.connection
      (engine.planFrame world tick slot).visible tick = action := ⟨_, rfl⟩
  rw [scanned] at loop content ⊢
  rw [visited] at loop sent_iff apart overwrites
  rw [acting] at loop sent_iff sound overwrites
  obtain ⟨_, _, _, frame⟩ := ensureFids_frame slot.connection
    (wids.filter fun wid => (action wid).isEnter)
  have same := loop.connection_eq.trans frame
  have fallback : (if Unsettled scan.connection wid then scan.connection.ackedView[wid]?
      else scan.connection.currentView[wid]?) =
        if Unsettled slot.connection wid then slot.connection.ackedView[wid]?
        else slot.connection.currentView[wid]? := by
    have unsettled : Unsettled scan.connection wid ↔ Unsettled slot.connection wid := by
      rw [same]
      exact Iff.rfl
    simp only [unsettled]
    rw [same]
  rw [fallback]
  have idle : wid ∉ delta.updates.map EntityUpdate.wid → ¬ (wid ∈ wids ∧ (action wid).Sends) →
      EntryAfter engine world tick slot delta wid
        (if Unsettled slot.connection wid then slot.connection.ackedView[wid]?
          else slot.connection.currentView[wid]?) := by
    intro unsent quiet
    by_cases unsettled : Unsettled slot.connection wid
    · rw [if_pos unsettled]
      exact .overwritten unsent (overwrites (.inl ⟨unsettled, quiet⟩))
    · rw [if_neg unsettled]
      exact .kept unsent
  by_cases member : wid ∈ wids
  · have landing := @trimUpdates_frameOps engine _ _ _ _ _ _ _ loop apart sound
      inv.acked_injective wid member
    have leave_iff : wid ∈ scan.frameLeaves ↔ ((action wid).leaving).isSome := by
      rw [Std.ExtTreeMap.mem_iff_isSome_getElem?, loop.frameLeaves_eq, if_pos member]
    have untrimmed : (∀ entry state, action wid ≠ .update entry state) →
        ¬ Trimmed engine.config.maxUpdatesPerFrame action wids wid := by
      intro other trimmed
      obtain ⟨entry, state, updates⟩ := trimmed_updates trimmed
      exact other entry state updates
    have unsent : (∀ entry state, action wid ≠ .update entry state) →
        wid ∉ delta.updates.map EntityUpdate.wid := by
      intro other sent
      obtain ⟨-, ⟨entry, state, updates⟩, -⟩ := sent_iff.mp sent
      exact other entry state updates
    cases acts : action wid with
    | leave tracked =>
      rw [if_pos (leave_iff.mpr (by rw [acts]; rfl))]
      refine .moved ?_ (by simp)
      have left : (⟨wid, tracked.fid, engine.leaveReason slot.connection
          (engine.planFrame world tick slot).bounds world wid⟩ : EntityLeave) ∈
            (engine.trimUpdates slot.connection.ackedView scan).leaves := by
        rw [trimUpdates_leaves, loop.leaves_eq]
        exact List.mem_filterMap.mpr ⟨wid, member, by rw [acts]; rfl⟩
      rw [content]
      exact List.mem_append_left _ (List.mem_map.mpr ⟨_, (List.mem_insertionSort _).mpr left, rfl⟩)
    | enter state =>
      rw [if_neg (mt leave_iff.mp (by rw [acts]; simp [WidAction.leaving])), landing,
        if_neg (untrimmed (by simp [acts])), acts]
      refine .moved ?_ (fun tracked same => by obtain rfl := Option.some.inj same; rfl)
      have entered : (⟨wid, scan.connection.fidIn wid, { state.projected with
          fid := scan.connection.fidIn wid }⟩ : EntityEnter) ∈
            (engine.trimUpdates slot.connection.ackedView scan).enters := by
        rw [trimUpdates_enters, loop.enters_eq]
        exact List.mem_filterMap.mpr ⟨wid, member, by rw [acts]; rfl⟩
      rw [content]
      exact List.mem_append_right _
        (List.mem_map.mpr ⟨_, (List.mem_insertionSort _).mpr entered, rfl⟩)
    | update entry state =>
      rw [if_neg (mt leave_iff.mp (by rw [acts]; simp [WidAction.leaving])), landing]
      by_cases trimmed : Trimmed engine.config.maxUpdatesPerFrame action wids wid
      · have acked := sound.update_acked wid entry state acts
        rw [if_pos trimmed, acked, Option.some_or, ← acked]
        refine .overwritten (fun sent => (sent_iff.mp sent).2.2 trimmed) ?_
        exact overwrites (.inr ⟨member, trimmed⟩)
      · rw [if_neg trimmed, acts]
        exact .updated (sent_iff.mpr ⟨member, ⟨entry, state, acts⟩, trimmed⟩) rfl
    | skip =>
      rw [if_neg (mt leave_iff.mp (by rw [acts]; simp [WidAction.leaving])), landing,
        if_neg (untrimmed (by simp [acts])), acts]
      exact idle (unsent (by simp [acts])) (by simp [acts, WidAction.Sends])
    | throttle =>
      rw [if_neg (mt leave_iff.mp (by rw [acts]; simp [WidAction.leaving])), landing,
        if_neg (untrimmed (by simp [acts])), acts]
      exact idle (unsent (by simp [acts])) (by simp [acts, WidAction.Sends])
  · have no_leave : wid ∉ scan.frameLeaves := by
      rw [Std.ExtTreeMap.mem_iff_isSome_getElem?, loop.frameLeaves_eq, if_neg member]
      simp
    rw [if_neg no_leave, trimUpdates_frameOps_outside loop member, Option.none_or]
    exact idle (fun sent => member (sent_iff.mp sent).1) (fun sends => member sends.1)

/-- Behind a keyframe every entry of the current view was sent in this tick. -/
theorem keyframe_views (ready : BuildReady engine slot) {keyframe : Keyframe}
    (built : (engine.buildFrame world tick slot).1 = some (.keyframe keyframe)) :
    (∀ (wid : WorldId) (tracked : TrackedEntity),
      (engine.buildFrame world tick slot).2.connection.currentView[wid]? = some tracked →
        tracked.lastSentTick = tick) ∧
    (engine.buildFrame world tick slot).2.connection.ackedView =
      (engine.planFrame world tick slot).connection.ackedView := by
  obtain ⟨distinct, -, -⟩ := ready.plan_sound world tick
  obtain ⟨plan, planned⟩ : ∃ plan, engine.planFrame world tick slot = plan := ⟨_, rfl⟩
  unfold buildFrame at built ⊢
  rw [planned] at built distinct ⊢
  simp only at built ⊢
  split
  · have loop := engine.keyframeScan_result plan.connection tick distinct
    obtain ⟨_, _, _, frame⟩ := ensureFids_frame plan.connection
      (plan.visible.filter fun wid => (engine.keyframeAction wid).isEnter)
    have same : (engine.keyframeScan plan.connection plan.visible tick).connection = _ :=
      loop.connection_eq.trans frame
    rw [buildKeyframe_eq]
    simp only
    rw [(commitFrame_views _ _).1, (commitFrame_views _ _).2.1]
    refine ⟨fun wid tracked found => ?_, ?_⟩
    · have landed : (engine.keyframeScan plan.connection plan.visible tick).nextView[wid]? = _ :=
        loop.frameOps_eq wid
      rw [keyframeConnection, landed] at found
      split at found
      · rcases keyframeAction_cases engine wid with acts | ⟨state, acts⟩
        · rw [acts] at found
          cases found
        · rw [acts] at found
          obtain rfl := Option.some.inj found
          rfl
      · cases found
    · simp only [keyframeConnection, same]
  · next undue =>
    rw [if_neg undue] at built
    obtain ⟨_, -, shape⟩ := Option.map_eq_some_iff.mp built
    cases shape

/-- A build that sends nothing leaves the views alone. -/
theorem silent_views (ready : BuildReady engine slot)
    (built : (engine.buildFrame world tick slot).1 = none) :
    (engine.buildFrame world tick slot).2.connection.currentView = slot.connection.currentView ∧
      (engine.buildFrame world tick slot).2.connection.ackedView = slot.connection.ackedView ∧
      slot.connection.needsKeyframe = false := by
  obtain ⟨distinct, -, -⟩ := ready.plan_sound world tick
  have loop := scanDelta_result engine world tick slot.throttlePending distinct
  obtain ⟨plan, planned⟩ : ∃ plan, engine.planFrame world tick slot = plan := ⟨_, rfl⟩
  have unforced := @BuildReady.plan_unforced engine slot world tick
  unfold buildFrame at built ⊢
  rw [planned] at built unforced loop ⊢
  simp only at built ⊢
  split
  · next due =>
    rw [if_pos due] at built
    cases built
  · next undue =>
    rw [Bool.or_eq_true] at undue
    obtain ⟨same_plan, unneeded⟩ := unforced (Bool.eq_false_iff.mpr fun forced =>
      undue (.inl forced))
    obtain ⟨_, _, _, frame⟩ := ensureFids_frame plan.connection
      ((loopWids engine slot.throttlePending plan).filter fun wid =>
        (engine.widAction plan.connection plan.visible tick wid).isEnter)
    have same := loop.connection_eq.trans frame
    rw [same_plan] at same
    rw [if_neg (by rwa [Bool.or_eq_true])] at built
    obtain ⟨scan, scanned⟩ : ∃ scan, engine.scanDelta world tick slot.throttlePending plan = scan :=
      ⟨_, rfl⟩
    rw [scanned] at same built ⊢
    unfold finishDelta at built ⊢
    split
    · refine ⟨?_, ?_, unneeded⟩ <;> simp only [same]
    · next busy =>
      rw [if_neg busy] at built
      cases built

theorem delta_views (ready : BuildReady engine slot) {delta : Delta}
    (built : (engine.buildFrame world tick slot).1 = some (.delta delta)) :
    (engine.buildFrame world tick slot).2.connection.ackedView = slot.connection.ackedView ∧
      slot.connection.needsKeyframe = false := by
  have build := deltaBuild ready built
  have unforced : (engine.planFrame world tick slot).forced = false :=
    Bool.eq_false_iff.mpr fun forced => build.undue (.inl forced)
  obtain ⟨_, _, _, frame⟩ := ensureFids_frame slot.connection
    ((loopWids engine slot.throttlePending (engine.planFrame world tick slot)).filter fun wid =>
      (engine.widAction slot.connection (engine.planFrame world tick slot).visible tick wid).isEnter)
  have same := build.loop.connection_eq.trans frame
  refine ⟨?_, (BuildReady.plan_unforced unforced).2⟩
  rw [build.after, (commitFrame_views _ _).2.1]
  simp only [converged, trimUpdates_connection, same]

end Build

/-- The last projection, 0 before the first. -/
def FrameLog.now (log : FrameLog) : Nat :=
  (log.lastTick.map UInt64.toNat).getD 0

/-- The current view knows when a throttled entity was last sent, or its interval is over. -/
structure RateMemory (config : ProjectionConfig) (log : FrameLog)
    (connection : ConnectionProjection) : Prop where
  untimed : ∀ (wid : WorldId) (entry : TrackedEntity), connection.ackedView[wid]? = some entry →
    entry.lastSentTick = 0
  past : ∀ wid, (lastSentTick connection.currentView wid).toNat ≤ log.now
  remembers : connection.needsKeyframe = false → ∀ wid frequency first,
    frequency ≠ .onChange → UpdatedSince wid frequency first log.built →
      first.time ≤ (lastSentTick connection.currentView wid).toNat ∨
        first.time + rateInterval config frequency ≤ log.now + 1

structure RateInv (config : ProjectionConfig) (id : ConnectionId) (log : FrameLog) : Prop where
  respects : RespectsRate config log
  engine_inv : EngineInv log.engine
  config_eq : log.engine.config = config
  started : log.lastTick = none → log.built = []
  memory : ∀ slot, log.engine.connections[id]? = some slot → RateMemory config log slot.connection

section Memory

variable {config : ProjectionConfig} {log after : FrameLog} {connection : ConnectionProjection}

theorem lastSentTick_zero_of_untimed {view : WidMap TrackedEntity}
    (untimed : ∀ (wid : WorldId) (entry : TrackedEntity), view[wid]? = some entry →
      entry.lastSentTick = 0) (wid : WorldId) : lastSentTick view wid = 0 := by
  unfold lastSentTick
  cases found : view[wid]? with
  | none => rfl
  | some entry => exact untimed wid entry found

/-- Acknowledged entries carry no tick. -/
theorem applySentOp_untimed {view : WidMap TrackedEntity}
    (untimed : ∀ (wid : WorldId) (entry : TrackedEntity), view[wid]? = some entry →
      entry.lastSentTick = 0) (op : SentOp) :
    ∀ (wid : WorldId) (entry : TrackedEntity), (applySentOp view op)[wid]? = some entry →
      entry.lastSentTick = 0 := by
  intro wid entry found
  have written : (({ (view[op.wid]?).getD {} with fid := op.fid, entityHash := op.entityHash } :
      TrackedEntity)).lastSentTick = 0 := by
    cases old : view[op.wid]? with
    | none => rfl
    | some tracked => exact untimed op.wid tracked old
  unfold applySentOp at found
  cases kind : op.kind with
  | leave =>
    simp only [kind, lookup_erase] at found
    split at found
    · cases found
    · exact untimed wid entry found
  | enter =>
    simp only [kind, lookup_insert] at found
    split at found
    · obtain rfl := Option.some.inj found
      exact written
    · exact untimed wid entry found
  | update =>
    simp only [kind, lookup_insert] at found
    split at found
    · obtain rfl := Option.some.inj found
      exact written
    · exact untimed wid entry found

theorem foldl_applySentOp_untimed (ops : List SentOp) {view : WidMap TrackedEntity}
    (untimed : ∀ (wid : WorldId) (entry : TrackedEntity), view[wid]? = some entry →
      entry.lastSentTick = 0) :
    ∀ (wid : WorldId) (entry : TrackedEntity), (ops.foldl applySentOp view)[wid]? = some entry →
      entry.lastSentTick = 0 := by
  induction ops generalizing view with
  | nil => exact untimed
  | cons op rest ih => exact ih (applySentOp_untimed untimed op)

/-- Operations other than a projection. -/
theorem RateMemory.slotEffect {slot : Slot} (memory : RateMemory config log slot.connection)
    (latest : Nat) (id : ConnectionId) (event : EngineEvent) (built : after.built = log.built)
    (now : after.now = log.now) :
    RateMemory config after (slotEffect latest id slot event).connection := by
  have reset : ∀ connection : ConnectionProjection, connection.ackedView = ∅ →
      connection.currentView = ∅ → connection.needsKeyframe = true →
        RateMemory config after connection := by
    intro connection acked current needed
    refine ⟨fun wid entry found => ?_, fun wid => ?_, fun unneeded => ?_⟩
    · simp [acked] at found
    · rw [current, lastSentTick_zero_of_untimed (by simp)]
      exact Nat.zero_le _
    · rw [needed] at unneeded
      cases unneeded
  have same : ∀ connection : ConnectionProjection,
      (∀ (wid : WorldId) (entry : TrackedEntity), connection.ackedView[wid]? = some entry →
        entry.lastSentTick = 0) →
      connection.currentView = slot.connection.currentView →
      (connection.needsKeyframe = false → slot.connection.needsKeyframe = false) →
        RateMemory config after connection := by
    intro connection untimed current needs
    refine ⟨untimed, fun wid => ?_, fun unneeded => ?_⟩
    · rw [current, now]
      exact memory.past wid
    · rw [current, now, built]
      exact memory.remembers (needs unneeded)
  refine @slotEffect_keeps (RateMemory config after) latest id slot event
    (fun _ => same _ memory.untimed rfl (by simp [setSubscription])) (reset _ rfl rfl rfl)
    (same _ memory.untimed rfl (by simp)) (fun snapshotId => ?_)
    (same _ memory.untimed rfl (fun unneeded => unneeded))
  by_cases accepted : (slot.connection.acknowledge snapshotId).1 = .accepted
  · obtain ⟨-, -, -, bytes, counts, result, -⟩ := acknowledge_accepted accepted
    rw [result]
    exact same _ (foldl_applySentOp_untimed _ memory.untimed) rfl (fun unneeded => unneeded)
  · rw [acknowledge_rejected accepted]
    exact same _ memory.untimed rfl (fun unneeded => unneeded)

end Memory

section Project

variable {config : ProjectionConfig} {log after : FrameLog} {engine : ProjectionEngine}
  {world : World} {tick : UInt64} {slot : Slot}

/-- An update of a throttled entity comes at least an interval after the last one known. -/
theorem update_due (ready : BuildReady engine slot) {delta : Delta}
    (built : (engine.buildFrame world tick slot).1 = some (.delta delta)) {wid : WorldId}
    (updates : wid ∈ delta.updates.map EntityUpdate.wid) {frequency : FrequencyClass}
    (throttled : frequency ≠ .onChange)
    (frequency_eq : (engine.globalView[wid]?).map
      (fun state => state.projected.metadata.frequency) = some frequency)
    (past : (lastSentTick slot.connection.currentView wid).toNat ≤ tick.toNat) :
    (lastSentTick slot.connection.currentView wid).toNat + rateInterval engine.config frequency ≤
      tick.toNat := by
  obtain ⟨-, ⟨entry, state, acts⟩, -⟩ := (updates_iff ready built wid).mp updates
  obtain ⟨known, found, rfl⟩ := Option.map_eq_some_iff.mp frequency_eq
  have free : ¬ engine.Throttled slot.connection.currentView tick wid
      known.projected.metadata.frequency := by
    unfold widAction at acts
    split at acts
    · cases acked : slot.connection.ackedView[wid]? with
      | none => simp [found, acked] at acts
      | some old =>
        simp only [found, acked] at acts
        split_ifs at acts with _ held
        exact held
    · cases acked : slot.connection.ackedView[wid]? <;> simp [acked] at acts
  have elapsed : ¬ tick - lastSentTick slot.connection.currentView wid <
      engine.intervalTicks (engine.updateFrequencyHz known.projected.metadata.frequency) :=
    fun early => free ⟨throttled, early⟩
  rw [UInt64.lt_iff_toNat_lt, UInt64.toNat_sub_of_le _ _ (UInt64.le_iff_toNat_le.mpr past)] at elapsed
  have interval : rateInterval engine.config known.projected.metadata.frequency =
      (engine.intervalTicks
        (engine.updateFrequencyHz known.projected.metadata.frequency)).toNat := rfl
  omega

/-- A delta keeps the memory of the entities that stay in view. -/
theorem RateMemory.delta (memory : RateMemory config log slot.connection)
    (config_eq : engine.config = config) (ready : BuildReady engine slot) {delta : Delta}
    (built : (engine.buildFrame world tick slot).1 = some (.delta delta))
    (now_le : log.now ≤ tick.toNat)
    (keeps : ∀ wid, Overwrites engine world tick slot wid → HeldBack engine tick slot wid →
      (lastSentTick slot.connection.currentView wid).toNat ≤
        (lastSentTick slot.connection.ackedView wid).toNat)
    (appended : after.built = log.built ++ [⟨engine, world, tick, slot, .delta delta⟩])
    (now : after.now = tick.toNat) :
    RateMemory config after (engine.buildFrame world tick slot).2.connection := by
  obtain ⟨acked, unneeded⟩ := delta_views ready built
  have current_le := fun wid => (memory.past wid).trans now_le
  refine ⟨?_, fun wid => ?_, fun _ wid frequency first throttled since => ?_⟩
  · rw [acked]
    exact memory.untimed
  · rw [now]
    have entry_after := entryAfter ready built wid
    revert entry_after
    generalize found : (engine.buildFrame world tick slot).2.connection.currentView[wid]? = entry
    intro entry_after
    cases entry_after with
    | moved moves sent =>
      cases entry with
      | none =>
        rw [lastSentTick_of_absent found]
        exact Nat.zero_le _
      | some tracked => rw [lastSentTick_of_entry found, sent tracked rfl]
    | updated updates sent => rw [lastSentTick_of_entry found, sent]
    | overwritten =>
      rw [lastSentTick_of_lookup found, lastSentTick_zero_of_untimed memory.untimed]
      exact Nat.zero_le _
    | kept =>
      rw [lastSentTick_of_lookup found]
      exact current_le wid
  · rw [appended] at since
    obtain ⟨stays, updated⟩ := updatedSince_concat since
    have known : first.time ≤ (lastSentTick slot.connection.currentView wid).toNat ∨
        first.time + rateInterval config frequency ≤ log.now + 1 ∨
        wid ∈ delta.updates.map EntityUpdate.wid ∧ first.time = tick.toNat := by
      rcases updated with ⟨rfl, updates⟩ | earlier
      · exact .inr (.inr ⟨updates, rfl⟩)
      · rcases memory.remembers unneeded wid frequency first throttled earlier with near | far
        · exact .inl near
        · exact .inr (.inl far)
    rw [now]
    have entry_after := entryAfter ready built wid
    revert entry_after
    generalize found : (engine.buildFrame world tick slot).2.connection.currentView[wid]? = entry
    intro entry_after
    have below := current_le wid
    cases entry_after with
    | moved moves => exact absurd moves stays.unmoved
    | updated updates sent =>
      rw [lastSentTick_of_entry found, sent]
      omega
    | overwritten unsent overwrites =>
      rw [lastSentTick_of_lookup found]
      rcases known with near | far | ⟨updates, -⟩
      · by_cases held : HeldBack engine tick slot wid
        · exact .inl (near.trans (keeps wid overwrites held))
        · right
          obtain ⟨state, in_view, rfl⟩ := Option.map_eq_some_iff.mp stays.frequency_eq
          by_contra late
          refine held ⟨state, in_view, throttled, ?_⟩
          rw [config_eq]
          omega
      · right
        omega
      · exact absurd updates unsent
    | kept unsent =>
      rw [lastSentTick_of_lookup found]
      rcases known with near | far | ⟨updates, -⟩
      · exact .inl near
      · right
        omega
      · exact absurd updates unsent

/-- A projection that finds the connection keeps the rate and the memory of it. -/
theorem RateMemory.project (memory : RateMemory config log slot.connection)
    (respects : RespectsRate config log) (started : log.lastTick = none → log.built = [])
    (config_eq : engine.config = config) (ready : BuildReady engine slot)
    (consecutive : log.Consecutive (.onProjection world tick))
    (keeps : ∀ wid, Overwrites engine world tick slot wid → HeldBack engine tick slot wid →
      (lastSentTick slot.connection.currentView wid).toNat ≤
        (lastSentTick slot.connection.ackedView wid).toNat)
    (appended : after.built = log.built ++ (frameBuilt engine world tick slot).toList)
    (now : after.now = tick.toNat) :
    RespectsRate config after ∧
      RateMemory config after (engine.buildFrame world tick slot).2.connection := by
  have now_le : log.now ≤ tick.toNat := by
    unfold FrameLog.now
    cases last : log.lastTick with
    | none => exact Nat.zero_le _
    | some before =>
      have next := consecutive before last
      simp only [Option.map_some, Option.getD_some]
      omega
  have follows : log.built ≠ [] → tick.toNat = log.now + 1 := by
    intro nonempty
    unfold FrameLog.now
    cases last : log.lastTick with
    | none => exact absurd (started last) nonempty
    | some before => exact consecutive before last
  have empty_plan : ∀ (wid : WorldId) (entry : TrackedEntity),
      (engine.planFrame world tick slot).connection.ackedView[wid]? = some entry →
        entry.lastSentTick = 0 := by
    unfold planFrame
    simp only
    split
    · intro wid entry found
      simp [resetEpoch] at found
    · exact memory.untimed
  cases sent : (engine.buildFrame world tick slot).1 with
  | none =>
    have same : after.built = log.built := by simpa [frameBuilt, sent] using appended
    obtain ⟨current, acked, unneeded⟩ := silent_views ready sent
    refine ⟨fun earlier second later split => respects earlier second later (same ▸ split), ?_⟩
    refine ⟨by rw [acked]; exact memory.untimed, fun wid => ?_, ?_⟩
    · rw [current, now]
      exact (memory.past wid).trans now_le
    · intro _ wid frequency first throttled since
      rw [same] at since
      rw [current, now]
      rcases memory.remembers unneeded wid frequency first throttled since with near | far
      · exact .inl near
      · exact .inr (far.trans (Nat.succ_le_succ now_le))
  | some frame =>
    rw [frameBuilt, sent, Option.map_some, Option.toList_some] at appended
    cases frame with
    | keyframe content =>
      obtain ⟨current, acked⟩ := keyframe_views ready sent
      refine ⟨?_, by rw [acked]; exact empty_plan, fun wid => ?_, ?_⟩
      · rw [RespectsRate, appended]
        refine forall_split_concat respects fun wid frequency first _ _ _ stays => ?_
        exact absurd stays.delta (by simp [StateFrame.isKeyframe])
      · rw [now]
        cases found : (engine.buildFrame world tick slot).2.connection.currentView[wid]? with
        | none =>
          rw [lastSentTick_of_absent found]
          exact Nat.zero_le _
        | some tracked => rw [lastSentTick_of_entry found, current wid tracked found]
      · intro _ wid frequency first _ since
        rw [appended] at since
        exact absurd (updatedSince_concat since).1.delta (by simp [StateFrame.isKeyframe])
    | delta content =>
      refine ⟨?_, memory.delta config_eq ready sent now_le keeps appended now⟩
      rw [RespectsRate, appended]
      refine forall_split_concat respects fun wid frequency first throttled since updates stays => ?_
      have due := update_due ready sent updates throttled stays.frequency_eq
        ((memory.past wid).trans now_le)
      rw [config_eq] at due
      obtain ⟨-, unneeded⟩ := delta_views ready sent
      change first.time + rateInterval config frequency ≤ tick.toNat
      rcases memory.remembers unneeded wid frequency first throttled since with near | far
      · omega
      · have nonempty : log.built ≠ [] := by
          obtain ⟨earlier, later, split, -⟩ := since
          simp [split]
        rw [follows nonempty]
        exact far

end Project

section Run

variable {config : ProjectionConfig} {id : ConnectionId} {log after : FrameLog}
  {event : EngineEvent}

theorem rateInv_step (inv : RateInv config id log) (consecutive : log.Consecutive event)
    (keeps : KeepsLastSent id log event) (step : log.step id event = some after) :
    RateInv config id after := by
  have engine_inv := inv.engine_inv.step (FrameLog.step_engine step)
  have config_eq : after.engine.config = config :=
    (settings_of_step inv.engine_inv (FrameLog.step_engine step)).1.trans inv.config_eq
  have fresh : after.built = [] → RespectsRate config after := by
    intro none earlier second later split
    rw [none] at split
    simp at split
  cases found : after.engine.connections[id]? with
  | none =>
    have built := FrameLog.built_absent step (by simp [found])
    refine ⟨fresh built, engine_inv, config_eq, fun _ => built, fun slot present => ?_⟩
    rw [found] at present
    cases present
  | some slot =>
    have advance := FrameLog.advance_of_step inv.engine_inv step found
    have ticked := FrameLog.step_lastTick step
    revert advance
    generalize list : after.built = built
    intro advance
    suffices both : RespectsRate config after ∧ RateMemory config after slot.connection ∧
        (after.lastTick = none → after.built = []) by
      refine ⟨both.1, engine_inv, config_eq, both.2.2, fun other present => ?_⟩
      obtain rfl := Option.some.inj (present.symm.trans found)
      exact both.2.1
    cases advance with
    | @built world tick refreshed old refresh found_old kept =>
      obtain ⟨-, steps⟩ := refreshGlobalView_step inv.engine_inv.global_inv refresh
      have now : after.now = tick.toNat := by
        rw [FrameLog.now, ticked]
        rfl
      obtain ⟨respects, memory⟩ := (inv.memory old found_old).project inv.respects inv.started
        (steps.config_eq.trans inv.config_eq) (inv.engine_inv.buildReady refresh kept) consecutive
        (keeps refreshed refresh old kept) list now
      refine ⟨respects, memory, fun none => ?_⟩
      rw [ticked] at none
      cases none
    | @changed _ old other found_old =>
      have last : after.lastTick = log.lastTick :=
        ticked.trans (FrameLog.tickAfter_other other _)
      have now : after.now = log.now := by rw [FrameLog.now, FrameLog.now, last]
      refine ⟨?_, (inv.memory old found_old).slotEffect _ id event list now, fun none => ?_⟩
      · rw [RespectsRate, list]
        exact inv.respects
      · rw [list]
        exact inv.started (last ▸ none)
    | created absent =>
      refine ⟨fresh list, ⟨?_, fun wid => ?_, fun unneeded => ?_⟩, fun _ => list⟩
      · simp [freshSlot, setSubscription]
      · rw [lastSentTick_of_absent (by simp [freshSlot, setSubscription])]
        exact Nat.zero_le _
      · simp [freshSlot, setSubscription] at unneeded

/-- In every run with consecutive ticks in which no last-sent tick is lost, throttled entities
respect their rate. -/
theorem updates_respect_rate (config : ProjectionConfig) (policy : ProjectionPolicy)
    (id : ConnectionId) {events : List EngineEvent} {log : FrameLog}
    (run : GuardedRun (FrameLog.Step id)
      (fun log event => log.Consecutive event ∧ KeepsLastSent id log event)
      (.initial config policy) events log) : RespectsRate config log := by
  have start : RateInv config id (.initial config policy) := by
    refine ⟨?_, EngineInv.initial config policy, rfl, fun _ => rfl, fun slot found => ?_⟩
    · intro earlier second later split
      simp [FrameLog.initial] at split
    · simp [FrameLog.initial] at found
  exact (run.invariant start fun _ _ _ allowed step inv =>
    rateInv_step inv allowed.1 allowed.2 step).respects

def heldBack (engine : ProjectionEngine) (tick : UInt64) (slot : Slot) (wid : WorldId) : Bool :=
  (engine.globalView[wid]?).any fun state =>
    decide (state.projected.metadata.frequency ≠ .onChange ∧
      tick.toNat + 1 < (lastSentTick slot.connection.currentView wid).toNat +
        rateInterval engine.config state.projected.metadata.frequency)

/-- No entity that a delta of this build could overwrite is held back. -/
def noneHeldBack (engine : ProjectionEngine) (world : World) (tick : UInt64) (slot : Slot) : Bool :=
  let plan := engine.planFrame world tick slot
  let wids := loopWids engine slot.throttlePending plan
  let action := engine.widAction slot.connection plan.visible tick
  plan.forced || plan.periodic || !(wids.any fun other => decide (action other).Sends) ||
    (slot.connection.ackedDirty ++ slot.connection.unackedWidCounts.keys ++ wids).all fun wid =>
      !heldBack engine tick slot wid

def keepsLastSent (id : ConnectionId) (log : FrameLog) : EngineEvent → Bool
  | .onProjection world tick =>
    (log.engine.refreshGlobalView world tick).all fun refreshed =>
      (refreshed.connections[id]?).all fun slot => noneHeldBack refreshed world tick slot
  | _ => true

theorem keepsLastSent_of_check (check : keepsLastSent id log event = true) :
    KeepsLastSent id log event := by
  cases event with
  | onProjection world tick =>
    intro refreshed refresh slot found wid overwrites held
    simp only [keepsLastSent, Option.all_eq_true] at check
    have none := check refreshed refresh slot found
    obtain ⟨undue, ⟨other, inside, sends⟩, replaced⟩ := overwrites
    obtain ⟨state, known, throttled, early⟩ := held
    have held : heldBack refreshed tick slot wid = true := by
      rw [heldBack, known]
      simpa using ⟨throttled, early⟩
    have listed : wid ∈ slot.connection.ackedDirty ++ slot.connection.unackedWidCounts.keys ++
        loopWids refreshed slot.throttlePending (refreshed.planFrame world tick slot) := by
      simp only [List.mem_append, Std.ExtTreeMap.mem_keys]
      rcases replaced with ⟨unsettled, -⟩ | ⟨visited, -⟩
      · exact .inl unsettled
      · exact .inr visited
    simp only [noneHeldBack, Bool.or_eq_true, Bool.not_eq_true', List.all_eq_true] at none
    rcases none with (due | quiet) | free
    · exact absurd due undue
    · rw [List.any_eq_false] at quiet
      exact absurd (decide_eq_true sends) (quiet other inside)
    · rw [free wid listed] at held
      cases held
  | _ => trivial

/-- Slow entities are sent every third tick. -/
def slowConfig : ProjectionConfig :=
  { originConfig with slowFrequencyHz := 20 }

def slowPolicy : ProjectionPolicy :=
  { frequencyResolver := some fun _ => .slow }

def touch (world : World) (id : WorldId) : World :=
  (world.setProperty id [97] (.integer 5)).2

/-- Object 2 is sent at tick 4, changes again and is sent at tick 7. -/
def pacedEvents : List EngineEvent :=
  let changed := touch originWorldBoth 2
  let again := touch changed 2
  [.addConnection 7 originArea, .onProjection originWorldBoth 1, .acknowledge 7 1,
    .onProjection originWorldBoth 2, .onProjection originWorldBoth 3, .onProjection changed 4,
    .acknowledge 7 4, .onProjection again 5, .onProjection again 6, .onProjection again 7]

theorem paced_computed :
    (runLabels (fun (log : FrameLog) event =>
        if log.isConsecutive event && keepsLastSent 7 log event then log.step 7 event else none)
        (.initial slowConfig slowPolicy) pacedEvents).map
      (fun log => log.built.map fun built =>
        (built.time, built.frame.updates.map EntityUpdate.wid)) =
      some [(1, []), (4, [2]), (7, [2])] := by
  decide +kernel

theorem updates_respect_rate_paced : ∃ log : FrameLog,
    (log.built.map fun built => (built.time, built.frame.updates.map EntityUpdate.wid)) =
      [(1, []), (4, [2]), (7, [2])] ∧ RespectsRate slowConfig log := by
  obtain ⟨log, computed, updates⟩ := Option.map_eq_some_iff.mp paced_computed
  have sound : ∀ log event, (log.isConsecutive event && keepsLastSent 7 log event) = true →
      log.Consecutive event ∧ KeepsLastSent 7 log event := by
    intro log event check
    rw [Bool.and_eq_true] at check
    exact ⟨FrameLog.consecutive_of_check check.1, keepsLastSent_of_check check.2⟩
  exact ⟨log, updates, updates_respect_rate slowConfig slowPolicy 7 (.of_checked sound computed)⟩

/-- While object 2 is held back at tick 5, object 1 is sent. -/
def forgottenEvents : List EngineEvent :=
  let changed := touch originWorldBoth 2
  let both := touch (touch changed 2) 1
  [.addConnection 7 originArea, .onProjection originWorldBoth 1, .acknowledge 7 1,
    .onProjection originWorldBoth 2, .onProjection originWorldBoth 3, .onProjection changed 4,
    .acknowledge 7 4, .onProjection both 5, .onProjection both 6]

/-- Object `wid` is updated in the second and in the last of four frames, too early. -/
def sentEarly (config : ProjectionConfig) (wid : WorldId) (log : FrameLog) : Bool :=
  match log.built with
  | [_, first, between, second] =>
    decide (wid ∈ first.frame.updates.map EntityUpdate.wid) &&
      decide (wid ∈ second.frame.updates.map EntityUpdate.wid) &&
      ([first, between, second].all fun built => !built.frame.isKeyframe &&
        decide (wid ∉ built.frame.moved) &&
        decide ((built.engine.globalView[wid]?).map
          (fun state => state.projected.metadata.frequency) = some .slow)) &&
      decide (second.time < first.time + rateInterval config .slow)
  | _ => false

theorem forgotten_computed :
    (runLabels (fun (log : FrameLog) event =>
        if log.isConsecutive event then log.step 7 event else none)
        (.initial slowConfig slowPolicy) forgottenEvents).map (sentEarly slowConfig 2) =
      some true := by
  decide +kernel

/-- A delta for another entity makes the server forget when a throttled one was last sent. -/
theorem last_sent_forgotten : ¬ ∀ (config : ProjectionConfig) (policy : ProjectionPolicy)
    (id : ConnectionId) (events : List EngineEvent) (log : FrameLog),
    GuardedRun (FrameLog.Step id) FrameLog.Consecutive (.initial config policy) events log →
      RespectsRate config log := by
  intro always
  obtain ⟨log, computed, early⟩ := Option.map_eq_some_iff.mp forgotten_computed
  have respects := always slowConfig slowPolicy 7 _ log
    (.of_checked (fun _ _ check => FrameLog.consecutive_of_check check) computed)
  unfold sentEarly at early
  split at early
  · next zeroth first between second split =>
    simp only [Bool.and_eq_true, decide_eq_true_eq, List.all_eq_true, Bool.not_eq_true'] at early
    obtain ⟨⟨⟨updates, again⟩, stays⟩, soon⟩ := early
    have stay : ∀ built ∈ [first, between, second], Stays 2 .slow built := fun built member =>
      ⟨(stays built member).1.1, (stays built member).1.2, (stays built member).2⟩
    have since : UpdatedSince 2 .slow first [zeroth, first, between] :=
      ⟨[zeroth], [between], rfl, updates, fun built member =>
        stay built (List.mem_append_left [second] member)⟩
    have rate := respects [zeroth, first, between] second [] split 2 .slow first (by simp) since
      again (stay second (by simp))
    omega
  · cases early

end Run

end GeoWorld.Projection
