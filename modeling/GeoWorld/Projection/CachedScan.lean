import Mathlib
import GeoWorld.Projection.SlotSteps

/-!
The two candidate loops of the delta branch. With a cached visible set the loop
visits only candidate ids, otherwise every visible and every acknowledged id. Both
loops carry out the same action on an id, so they make the same frame exactly when
every id with something to do is a candidate, up to updates that saturation would
drop anyway.
-/

namespace GeoWorld.Projection

open WorldModel Library ConnectionProjection ProjectionEngine

/-- What the delta branch makes of a loop: the frame with its record, if anything is
sent, and the throttled ids. -/
structure DeltaOutcome where
  sent : Option (Delta × List SentOp)
  throttlePending : WidSet

namespace ProjectionEngine

def deltaOutcome (engine : ProjectionEngine) (connection : ConnectionProjection)
    (tick : UInt64) (scan : DeltaScan) : DeltaOutcome where
  sent :=
    if scan.enters.isEmpty && scan.updates.isEmpty && scan.leaves.isEmpty then none
    else some (sealDelta (engine.frameHeader connection tick connection.ackedBaseline)
        (engine.trimUpdates connection.ackedView scan),
      (engine.trimUpdates connection.ackedView scan).ops)
  throttlePending := scan.throttlePending

theorem finishDelta_outcome (engine : ProjectionEngine) (connection : ConnectionProjection)
    (tick : UInt64) (scan : DeltaScan) : (engine.finishDelta connection tick scan).1 =
      (engine.deltaOutcome connection tick scan).sent.map Prod.fst := by
  unfold finishDelta deltaOutcome
  split <;> rfl

/-- The outcome of the loop over the candidates of a plan. -/
def cachedOutcome (engine : ProjectionEngine) (world : World) (tick : UInt64) (slot : Slot) :
    DeltaOutcome :=
  let plan := engine.planFrame world tick slot
  engine.deltaOutcome plan.connection tick (engine.scanCandidates plan.connection plan.bounds
    world slot.throttlePending plan.visible tick)

/-- The outcome of the full loop for the same plan. -/
def fullOutcome (engine : ProjectionEngine) (world : World) (tick : UInt64) (slot : Slot) :
    DeltaOutcome :=
  let plan := engine.planFrame world tick slot
  engine.deltaOutcome plan.connection tick
    (engine.scanAll plan.connection plan.bounds world plan.visible tick)

end ProjectionEngine

/-- The same frame and the same throttled ids. The full loop records leaves in the order
of a hash map, so records are compared without their order. -/
def DeltaOutcome.Same (first second : DeltaOutcome) : Prop :=
  Option.Rel (fun lhs rhs => lhs.1 = rhs.1 ∧ lhs.2.Perm rhs.2) first.sent second.sent ∧
    first.throttlePending = second.throttlePending

/-- Every id of `whole` with something to do is in `part`, except updates that a frame
over `whole` drops; and if there are such updates, `part` has something to send. -/
def Complete (limit : Nat) (action : WorldId → WidAction) (part whole : List WorldId) : Prop :=
  (∀ wid ∈ whole, action wid ≠ .skip → wid ∉ part → Trimmed limit action whole wid) ∧
    ((∃ wid ∈ whole, action wid ≠ .skip ∧ wid ∉ part) → ∃ wid ∈ part, (action wid).Sends)

section Loops

variable {engine : ProjectionEngine} {action : WorldId → WidAction}
variable {reason : WorldId → LeaveReason} {tick : UInt64} {connection : ConnectionProjection}
variable {wids : List WorldId} {scan : DeltaScan}

theorem quiet_iff (result : LoopResult action reason tick connection wids scan) :
    (scan.enters.isEmpty && scan.updates.isEmpty && scan.leaves.isEmpty) = true ↔
      ∀ wid ∈ wids, ¬ (action wid).Sends := by
  simp only [Bool.and_eq_true, List.isEmpty_iff, result.enters_eq, result.updates_eq,
    result.leaves_eq, List.filterMap_eq_nil_iff]
  constructor
  · rintro ⟨⟨no_enter, no_update⟩, no_leave⟩ wid member sends
    have no_enter := no_enter wid member
    have no_update := no_update wid member
    have no_leave := no_leave wid member
    cases acts : action wid with
    | skip => exact sends.1 acts
    | throttle => exact sends.2 acts
    | enter state => simp [acts, WidAction.enterEntry] at no_enter
    | update entry state => simp [acts, WidAction.updateEntry] at no_update
    | leave tracked => simp [acts, WidAction.leaveEntry] at no_leave
  · intro quiet
    refine ⟨⟨fun wid member => ?_, fun wid member => ?_⟩, fun wid member => ?_⟩
    all_goals
      have silent := quiet wid member
      cases acts : action wid <;> simp [acts, WidAction.Sends] at silent <;> rfl

/-- The frame that is sent, with its record. -/
theorem sent_eq (engine : ProjectionEngine)
    (result : LoopResult action reason tick connection wids scan) :
    (engine.deltaOutcome connection tick scan).sent =
      if ∃ wid ∈ wids, (action wid).Sends then
        some (sealDelta (engine.frameHeader connection tick connection.ackedBaseline)
            (engine.trimUpdates connection.ackedView scan),
          (engine.trimUpdates connection.ackedView scan).ops)
      else none := by
  have quiet := quiet_iff result
  unfold deltaOutcome
  by_cases sends : ∃ wid ∈ wids, (action wid).Sends
  · have busy : ¬ (scan.enters.isEmpty && scan.updates.isEmpty && scan.leaves.isEmpty) = true := by
      rw [quiet]
      push Not
      exact sends
    rw [if_pos sends]
    exact if_neg busy
  · rw [if_neg sends]
    exact if_pos (quiet.mpr fun wid member acts => sends ⟨wid, member, acts⟩)

end Loops

section Compare

variable {engine : ProjectionEngine} {action : WorldId → WidAction}
variable {reason : WorldId → LeaveReason} {tick : UInt64} {connection : ConnectionProjection}
variable {part whole : List WorldId} {scan scan' : DeltaScan}

theorem trimmed_part_iff {limit : Nat} {acked : WidMap TrackedEntity}
    (sound : ActionsSound acked action) (injective : FidsInjective acked)
    (distinct : part.Nodup) (distinct' : whole.Nodup)
    (within : ∀ wid ∈ part, action wid ≠ .skip → wid ∈ whole)
    (omitted : ∀ wid ∈ whole, action wid ≠ .skip → wid ∉ part → Trimmed limit action whole wid)
    {wid : WorldId} (member : wid ∈ whole) :
    Trimmed limit action part wid ↔ Trimmed limit action whole wid := by
  refine exists_congr fun update => and_congr_right fun found => ?_
  have entry : ∀ {wid}, wid ∈ whole → ∀ {update}, (action wid).updateEntry wid = some update →
      update ∈ updateEntries action whole :=
    fun in_whole _ found => List.mem_filterMap.mpr ⟨_, in_whole, found⟩
  refine le_rank_iff_of_omitted (updateEntries_nodup action distinct)
    (updateEntries_nodup action distinct') ?_ ?_ ?_ (entry member found)
  · intro other in_part
    obtain ⟨source, member_part, acts⟩ := List.mem_filterMap.mp in_part
    refine entry (within source member_part fun skips => ?_) acts
    rw [skips] at acts
    cases acts
  · intro lhs left rhs right le ge
    exact updates_fid_injective sound injective left right (fid_eq_of_trimBefore le ge)
  · intro other in_whole outside
    obtain ⟨source, member_whole, acts⟩ := List.mem_filterMap.mp in_whole
    have missing : source ∉ part := fun member_part =>
      outside (List.mem_filterMap.mpr ⟨source, member_part, acts⟩)
    have acting : action source ≠ .skip := by
      intro skips
      rw [skips] at acts
      cases acts
    obtain ⟨same, found', large⟩ := omitted source member_whole acting missing
    rw [Option.mem_def, acts] at found'
    obtain rfl := Option.some.inj found'
    exact large

/-- The loops over `part` and over `whole` from one connection. -/
structure LoopPair (engine : ProjectionEngine) (action : WorldId → WidAction)
    (reason : WorldId → LeaveReason) (tick : UInt64) (connection : ConnectionProjection)
    (part whole : List WorldId) (scan scan' : DeltaScan) : Prop where
  part_result : LoopResult action reason tick connection part scan
  whole_result : LoopResult action reason tick connection whole scan'
  part_distinct : part.Nodup
  whole_distinct : whole.Nodup
  within : ∀ wid ∈ part, action wid ≠ .skip → wid ∈ whole
  part_entering : (part.filter fun wid => (action wid).isEnter).Pairwise (· < ·)
  whole_entering : (whole.filter fun wid => (action wid).isEnter).Pairwise (· < ·)
  sound : ActionsSound connection.ackedView action
  leave_acked : ∀ wid tracked, action wid = .leave tracked →
    connection.ackedView[wid]? = some tracked
  injective : FidsInjective connection.ackedView

namespace LoopPair

variable (pair : LoopPair engine action reason tick connection part whole scan scan')
variable (complete : ∀ wid ∈ whole, action wid ≠ .skip → wid ∉ part →
  Trimmed engine.config.maxUpdatesPerFrame action whole wid)

include pair complete in
/-- An id with something to do that no update trims is visited by both loops or by none. -/
theorem mem_iff {wid : WorldId} (acts : action wid ≠ .skip)
    (untrimmed : ¬ Trimmed engine.config.maxUpdatesPerFrame action whole wid) :
    wid ∈ part ↔ wid ∈ whole := by
  refine ⟨fun member => pair.within wid member acts, fun member => ?_⟩
  by_contra outside
  exact untrimmed (complete wid member acts outside)

theorem untrimmed_of_not_update {limit : Nat} {wids : List WorldId} {wid : WorldId}
    (other : ∀ entry state, action wid ≠ .update entry state) :
    ¬ Trimmed limit action wids wid := by
  intro trimmed
  obtain ⟨entry, state, updates⟩ := trimmed_updates trimmed
  exact other entry state updates

include pair complete in
theorem entering_eq : (part.filter fun wid => (action wid).isEnter) =
    whole.filter fun wid => (action wid).isEnter := by
  have members : ∀ wid, (wid ∈ part.filter fun wid => (action wid).isEnter) ↔
      wid ∈ whole.filter fun wid => (action wid).isEnter := by
    intro wid
    rw [List.mem_filter, List.mem_filter]
    refine and_congr_left fun enters => ?_
    cases acts : action wid with
    | enter state =>
      exact pair.mem_iff complete (by simp [acts])
        (untrimmed_of_not_update fun _ _ => by simp [acts])
    | _ => simp [acts, WidAction.isEnter] at enters
  have perm := (List.perm_ext_iff_of_nodup (pair.part_distinct.filter _)
    (pair.whole_distinct.filter _)).mpr members
  refine perm.eq_of_pairwise (fun a b _ _ before after => ?_) pair.part_entering
    pair.whole_entering
  exact absurd (UInt64.lt_trans before after) (UInt64.lt_irrefl a)

include pair complete in
theorem connection_eq : scan.connection = scan'.connection := by
  rw [pair.part_result.connection_eq, pair.whole_result.connection_eq,
    pair.entering_eq complete]

include pair complete in
theorem enters_eq : scan.enters = scan'.enters := by
  have from_entering : ∀ (wids : List WorldId) (fid : WorldId → FeatureId),
      (wids.filterMap fun wid => (action wid).enterEntry wid (fid wid)) =
        (wids.filter fun wid => (action wid).isEnter).filterMap fun wid =>
          (action wid).enterEntry wid (fid wid) := by
    intro wids fid
    rw [List.filterMap_filter]
    refine List.filterMap_congr fun wid _ => ?_
    cases action wid <;> rfl
  rw [pair.part_result.enters_eq, pair.whole_result.enters_eq, from_entering part,
    from_entering whole, pair.entering_eq complete, pair.connection_eq complete]

include pair complete in
theorem leaves_sorted_eq :
    (scan.leaves.insertionSort fun lhs rhs => lhs.fid ≤ rhs.fid) =
      scan'.leaves.insertionSort fun lhs rhs => lhs.fid ≤ rhs.fid := by
  have of_result : ∀ {wids : List WorldId} {scan : DeltaScan},
      LoopResult action reason tick connection wids scan → wids.Nodup →
      scan.leaves.Nodup ∧ ∀ leave, leave ∈ scan.leaves ↔
        ∃ wid ∈ wids, ∃ tracked, action wid = .leave tracked ∧
          (⟨wid, tracked.fid, reason wid⟩ : EntityLeave) = leave := by
    intro wids scan result distinct
    have keyed : ∀ wid leave, (action wid).leaveEntry (reason wid) wid = some leave →
        leave.wid = wid := by
      intro wid leave found
      cases acts : action wid <;> simp [acts, WidAction.leaveEntry] at found
      rw [← found]
    refine ⟨?_, fun leave => ?_⟩
    · rw [result.leaves_eq]
      exact List.Nodup.of_map EntityLeave.wid (nodup_map_filterMap keyed distinct)
    · rw [result.leaves_eq, List.mem_filterMap]
      refine exists_congr fun wid => and_congr_right fun _ => ?_
      cases action wid <;> simp [WidAction.leaveEntry]
  obtain ⟨part_nodup, part_mem⟩ := of_result pair.part_result pair.part_distinct
  obtain ⟨whole_nodup, whole_mem⟩ := of_result pair.whole_result pair.whole_distinct
  refine insertionSort_congr ((List.perm_ext_iff_of_nodup part_nodup whole_nodup).mpr
    fun leave => ?_) fun lhs left rhs right le ge => ?_
  · rw [part_mem, whole_mem]
    refine exists_congr fun wid => and_congr_left ?_
    rintro ⟨tracked, acts, -⟩
    exact pair.mem_iff complete (by simp [acts])
      (untrimmed_of_not_update fun _ _ => by simp [acts])
  · obtain ⟨wid, -, tracked, acts, rfl⟩ := (part_mem lhs).mp left
    obtain ⟨wid', -, tracked', acts', rfl⟩ := (part_mem rhs).mp right
    obtain rfl := pair.injective wid wid' tracked tracked' (pair.leave_acked wid tracked acts)
      (pair.leave_acked wid' tracked' acts') (le_antisymm le ge)
    rw [acts] at acts'
    obtain rfl := WidAction.leave.inj acts'
    rfl

include pair complete in
/-- Both loops send the same operation of an id, or both drop or omit it. -/
theorem sent_iff {wid : WorldId} (acts : action wid ≠ .skip) :
    wid ∈ part ∧ ¬ Trimmed engine.config.maxUpdatesPerFrame action part wid ↔
      wid ∈ whole ∧ ¬ Trimmed engine.config.maxUpdatesPerFrame action whole wid := by
  have trimmed_iff : ∀ {wid}, wid ∈ whole →
      (Trimmed engine.config.maxUpdatesPerFrame action part wid ↔
        Trimmed engine.config.maxUpdatesPerFrame action whole wid) :=
    trimmed_part_iff pair.sound pair.injective pair.part_distinct pair.whole_distinct pair.within
      complete
  constructor
  · rintro ⟨member, untrimmed⟩
    have member' := pair.within wid member acts
    exact ⟨member', mt (trimmed_iff member').mpr untrimmed⟩
  · rintro ⟨member, untrimmed⟩
    exact ⟨(pair.mem_iff complete acts untrimmed).mpr member,
      mt (trimmed_iff member).mp untrimmed⟩

include pair complete in
theorem exists_sent_iff {chosen : WorldId → Prop}
    (acting : ∀ wid, chosen wid → action wid ≠ .skip) :
    (∃ wid ∈ part, chosen wid ∧
        ¬ Trimmed engine.config.maxUpdatesPerFrame action part wid) ↔
      ∃ wid ∈ whole, chosen wid ∧
        ¬ Trimmed engine.config.maxUpdatesPerFrame action whole wid := by
  refine exists_congr fun wid => ?_
  constructor
  · rintro ⟨member, chose, untrimmed⟩
    have both := (pair.sent_iff complete (acting wid chose)).mp ⟨member, untrimmed⟩
    exact ⟨both.1, chose, both.2⟩
  · rintro ⟨member, chose, untrimmed⟩
    have both := (pair.sent_iff complete (acting wid chose)).mpr ⟨member, untrimmed⟩
    exact ⟨both.1, chose, both.2⟩

include pair complete in
theorem updates_sorted_eq :
    ((engine.trimUpdates connection.ackedView scan).updates.insertionSort
        fun lhs rhs => lhs.fid ≤ rhs.fid) =
      (engine.trimUpdates connection.ackedView scan').updates.insertionSort
        fun lhs rhs => lhs.fid ≤ rhs.fid := by
  have mem_iff : ∀ update, update ∈ (engine.trimUpdates connection.ackedView scan).updates ↔
      update ∈ (engine.trimUpdates connection.ackedView scan').updates := by
    intro update
    rw [mem_trimUpdates_updates pair.part_result pair.part_distinct pair.sound pair.injective,
      mem_trimUpdates_updates pair.whole_result pair.whole_distinct pair.sound pair.injective]
    refine pair.exists_sent_iff complete fun wid found skips => ?_
    rw [skips] at found
    cases found
  refine insertionSort_congr ((List.perm_ext_iff_of_nodup
    (List.Nodup.of_map EntityUpdate.wid
      (trimUpdates_updates_wids pair.part_result pair.part_distinct))
    (List.Nodup.of_map EntityUpdate.wid
      (trimUpdates_updates_wids pair.whole_result pair.whole_distinct))).mpr mem_iff)
    fun lhs left rhs right le ge => ?_
  have listed : ∀ update ∈ (engine.trimUpdates connection.ackedView scan).updates,
      update ∈ updateEntries action part := by
    intro update member
    obtain ⟨wid, in_part, found, -⟩ := (mem_trimUpdates_updates pair.part_result
      pair.part_distinct pair.sound pair.injective update).mp member
    exact List.mem_filterMap.mpr ⟨wid, in_part, found⟩
  exact updates_fid_injective pair.sound pair.injective (listed lhs left) (listed rhs right)
    (le_antisymm le ge)

include pair complete in
theorem ops_perm : (engine.trimUpdates connection.ackedView scan).ops.Perm
    (engine.trimUpdates connection.ackedView scan').ops := by
  refine (List.perm_ext_iff_of_nodup
    (List.Nodup.of_map SentOp.wid (trimUpdates_ops_nodup pair.part_result pair.part_distinct))
    (List.Nodup.of_map SentOp.wid (trimUpdates_ops_nodup pair.whole_result
      pair.whole_distinct))).mpr fun op => ?_
  rw [mem_trimUpdates_ops pair.part_result pair.part_distinct pair.sound pair.injective,
    mem_trimUpdates_ops pair.whole_result pair.whole_distinct pair.sound pair.injective,
    pair.connection_eq complete]
  refine pair.exists_sent_iff complete fun wid found skips => ?_
  rw [skips] at found
  cases found

include pair complete in
theorem throttle_eq : scan.throttlePending = scan'.throttlePending := by
  refine Std.ExtTreeSet.ext_mem fun wid => ?_
  rw [pair.part_result.throttle_iff, pair.whole_result.throttle_iff]
  refine and_congr_left fun acts => ?_
  exact pair.mem_iff complete (by simp [acts])
    (untrimmed_of_not_update fun _ _ => by simp [acts])

include pair in
theorem same_of_complete
    (complete : Complete engine.config.maxUpdatesPerFrame action part whole) :
    (engine.deltaOutcome connection tick scan).Same
      (engine.deltaOutcome connection tick scan') := by
  refine ⟨?_, pair.throttle_eq complete.1⟩
  rw [sent_eq engine pair.part_result, sent_eq engine pair.whole_result]
  have sends_iff : (∃ wid ∈ part, (action wid).Sends) ↔ ∃ wid ∈ whole, (action wid).Sends := by
    constructor
    · rintro ⟨wid, member, sends⟩
      exact ⟨wid, pair.within wid member sends.1, sends⟩
    · rintro ⟨wid, member, sends⟩
      by_cases visited : wid ∈ part
      · exact ⟨wid, visited, sends⟩
      · exact complete.2 ⟨wid, member, sends.1, visited⟩
  have frames : sealDelta (engine.frameHeader connection tick connection.ackedBaseline)
        (engine.trimUpdates connection.ackedView scan) =
      sealDelta (engine.frameHeader connection tick connection.ackedBaseline)
        (engine.trimUpdates connection.ackedView scan') := by
    unfold sealDelta
    rw [pair.updates_sorted_eq complete.1, trimUpdates_leaves, trimUpdates_leaves,
      trimUpdates_enters, trimUpdates_enters, pair.enters_eq complete.1,
      pair.leaves_sorted_eq complete.1]
  by_cases sends : ∃ wid ∈ part, (action wid).Sends
  · rw [if_pos sends, if_pos (sends_iff.mp sends)]
    exact .some ⟨frames, pair.ops_perm complete.1⟩
  · rw [if_neg sends, if_neg (mt sends_iff.mpr sends)]
    exact .none

/-- When the full loop sends a frame and the outcomes are the same, so does the other. -/
theorem sent_of_same (same : (engine.deltaOutcome connection tick scan).Same
      (engine.deltaOutcome connection tick scan'))
    (result : LoopResult action reason tick connection part scan)
    (result' : LoopResult action reason tick connection whole scan')
    (sends : ∃ wid ∈ whole, (action wid).Sends) :
    (∃ wid ∈ part, (action wid).Sends) ∧
      (engine.trimUpdates connection.ackedView scan).ops.Perm
        (engine.trimUpdates connection.ackedView scan').ops := by
  have rel := same.1
  rw [sent_eq engine result, sent_eq engine result', if_pos sends] at rel
  by_cases part_sends : ∃ wid ∈ part, (action wid).Sends
  · rw [if_pos part_sends] at rel
    cases rel with
    | some both => exact ⟨part_sends, both.2⟩
  · rw [if_neg part_sends] at rel
    cases rel

include pair in
theorem complete_of_same (same : (engine.deltaOutcome connection tick scan).Same
      (engine.deltaOutcome connection tick scan')) :
    Complete engine.config.maxUpdatesPerFrame action part whole := by
  have missed_trimmed : ∀ wid ∈ whole, action wid ≠ .skip → wid ∉ part →
      Trimmed engine.config.maxUpdatesPerFrame action whole wid := by
    intro wid member acts outside
    by_cases throttled : action wid = .throttle
    · have held : wid ∈ scan'.throttlePending :=
        (pair.whole_result.throttle_iff wid).mpr ⟨member, throttled⟩
      have throttles : scan.throttlePending = scan'.throttlePending := same.2
      rw [← throttles, pair.part_result.throttle_iff] at held
      exact absurd held.1 outside
    · by_contra untrimmed
      obtain ⟨-, perm⟩ := sent_of_same same pair.part_result pair.whole_result
        ⟨wid, member, acts, throttled⟩
      obtain ⟨op, found⟩ : ∃ op, (action wid).op wid (scan'.connection.fidIn wid) = some op := by
        cases chosen : action wid with
        | skip => exact absurd chosen acts
        | throttle => exact absurd chosen throttled
        | _ => exact ⟨_, rfl⟩
      have in_whole := (mem_trimUpdates_ops pair.whole_result pair.whole_distinct pair.sound
        pair.injective op).mpr ⟨wid, member, found, untrimmed⟩
      obtain ⟨other, in_part, found', -⟩ := (mem_trimUpdates_ops pair.part_result
        pair.part_distinct pair.sound pair.injective op).mp (perm.mem_iff.mpr in_whole)
      have same_wid : other = wid :=
        (WidAction.op_wid found').symm.trans (WidAction.op_wid found)
      exact outside (same_wid ▸ in_part)
  refine ⟨missed_trimmed, ?_⟩
  rintro ⟨wid, member, acts, outside⟩
  obtain ⟨entry, state, updates⟩ := trimmed_updates (missed_trimmed wid member acts outside)
  have sends : (action wid).Sends := ⟨acts, by simp [updates]⟩
  exact (sent_of_same same pair.part_result pair.whole_result ⟨wid, member, sends⟩).1

end LoopPair

end Compare

/-- The candidates of the next build are complete: no other visible or acknowledged id
has something to do, except for updates the frame would drop. -/
def CandidatesComplete (engine : ProjectionEngine) (world : World) (tick : UInt64)
    (slot : Slot) : Prop :=
  let plan := engine.planFrame world tick slot
  Complete engine.config.maxUpdatesPerFrame
    (engine.widAction plan.connection plan.visible tick)
    (engine.candidates plan.connection slot.throttlePending plan.visible)
    (allWids plan.connection plan.visible)

theorem widAction_leave_acked {engine : ProjectionEngine} {connection : ConnectionProjection}
    {visible : List WorldId} {tick : UInt64} {wid : WorldId} {tracked : TrackedEntity}
    (leaves : engine.widAction connection visible tick wid = .leave tracked) :
    connection.ackedView[wid]? = some tracked := by
  unfold widAction at leaves
  by_cases seen : wid ∈ visible
  · simp only [seen, if_true] at leaves
    split at leaves
    · cases leaves
    · cases leaves
    · split_ifs at leaves
  · simp only [seen, if_false] at leaves
    cases acked : connection.ackedView[wid]? <;> simp [acked] at leaves
    rw [leaves]

theorem widAction_skip_outside {engine : ProjectionEngine} {connection : ConnectionProjection}
    {visible : List WorldId} {tick : UInt64} {wid : WorldId}
    (outside : wid ∉ allWids connection visible) :
    engine.widAction connection visible tick wid = .skip := by
  rw [mem_allWids, not_or] at outside
  have unacked : connection.ackedView[wid]? = none :=
    Std.ExtTreeMap.getElem?_eq_none outside.2
  simp only [widAction, outside.1, if_false, unacked]

theorem widAction_enter_visible {engine : ProjectionEngine} {connection : ConnectionProjection}
    {visible : List WorldId} {tick : UInt64} {wid : WorldId}
    (enters : (engine.widAction connection visible tick wid).isEnter = true) :
    wid ∈ visible := by
  by_contra hidden
  simp only [widAction, hidden, if_false] at enters
  cases acked : connection.ackedView[wid]? <;> simp [acked, WidAction.isEnter] at enters

theorem candidates_ascending (engine : ProjectionEngine) (connection : ConnectionProjection)
    (pendingCandidates : WidSet) (visible : List WorldId) :
    (engine.candidates connection pendingCandidates visible).Pairwise (· < ·) := by
  have sorted : (engine.candidates connection pendingCandidates visible).Pairwise (· ≤ ·) :=
    (List.pairwise_insertionSort _ _).sublist (List.dedup_sublist _)
  have distinct := candidates_nodup engine connection pendingCandidates visible
  exact (sorted.and distinct).imp fun both => UInt64.lt_of_le_of_ne both.1 both.2

theorem planPair {engine : ProjectionEngine} {slot : Slot} (ready : BuildReady engine slot)
    (world : World) (tick : UInt64) :
    LoopPair engine
      (engine.widAction (engine.planFrame world tick slot).connection
        (engine.planFrame world tick slot).visible tick)
      (engine.leaveReason (engine.planFrame world tick slot).connection
        (engine.planFrame world tick slot).bounds world)
      tick (engine.planFrame world tick slot).connection
      (engine.candidates (engine.planFrame world tick slot).connection slot.throttlePending
        (engine.planFrame world tick slot).visible)
      (allWids (engine.planFrame world tick slot).connection
        (engine.planFrame world tick slot).visible)
      (engine.scanCandidates (engine.planFrame world tick slot).connection
        (engine.planFrame world tick slot).bounds world slot.throttlePending
        (engine.planFrame world tick slot).visible tick)
      (engine.scanAll (engine.planFrame world tick slot).connection
        (engine.planFrame world tick slot).bounds world
        (engine.planFrame world tick slot).visible tick) := by
  have ascending := ready.plan_ascending world tick
  obtain ⟨distinct, -, -⟩ := ready.plan_sound world tick
  obtain ⟨latest, -, inv⟩ := ready.plan_connection world tick
  generalize engine.planFrame world tick slot = plan at ascending distinct inv ⊢
  refine ⟨engine.loopResult plan.bounds world plan.connection plan.visible tick
      (candidates_nodup _ _ _ _), ?_, candidates_nodup _ _ _ _,
    allWids_nodup _ distinct, ?_, ?_, ?_, widAction_sound ready.global_inv.hashes _ _ _,
    fun _ _ => widAction_leave_acked, inv.acked_injective⟩
  · rw [scanAll_eq]
    exact engine.loopResult plan.bounds world plan.connection plan.visible tick
      (allWids_nodup _ distinct)
  · intro wid _ acts
    by_contra outside
    exact acts (widAction_skip_outside outside)
  · exact (candidates_ascending _ _ _ _).filter _
  · rw [allWids, List.filter_append]
    have no_others : (plan.connection.ackedView.keys.filter (· ∉ plan.visible)).filter
        (fun wid => (engine.widAction plan.connection plan.visible tick wid).isEnter) = [] := by
      refine List.filter_eq_nil_iff.mpr fun wid member enters => ?_
      have hidden := (List.mem_filter.mp member).2
      simp only [decide_eq_true_eq] at hidden
      exact hidden (widAction_enter_visible enters)
    rw [no_others, List.append_nil]
    exact ascending.filter _

abbrev EngineStep (before : ProjectionEngine) (event : EngineEvent) (after : ProjectionEngine) :
    Prop :=
  before.step event = some after

theorem engineInv_of_run (config : ProjectionConfig) (policy : ProjectionPolicy)
    {events : List EngineEvent} {engine : ProjectionEngine}
    (run : AnyRun EngineStep { config := config, policy := policy } events engine) :
    EngineInv engine :=
  run.invariant (EngineInv.initial config policy) fun _ _ _ _ step inv => inv.step step

/-- In every reachable state, a build that takes the cached path makes the frame of the
candidate loop, and that is the frame of the full loop exactly when the candidates are
complete. -/
theorem cached_build_same_iff (config : ProjectionConfig) (policy : ProjectionPolicy)
    {events : List EngineEvent} {engine : ProjectionEngine}
    (run : AnyRun EngineStep { config := config, policy := policy } events engine)
    {world : World} {tick : UInt64} {refreshed : ProjectionEngine}
    (refresh : engine.refreshGlobalView world tick = some refreshed)
    {id : ConnectionId} {slot : Slot} (found : refreshed.connections[id]? = some slot)
    (cached : (refreshed.planFrame world tick slot).fromCache = true)
    (delta : ((refreshed.planFrame world tick slot).forced ||
      (refreshed.planFrame world tick slot).periodic) = false) :
    (refreshed.buildFrame world tick slot).1 =
        (refreshed.cachedOutcome world tick slot).sent.map (fun sent => .delta sent.1) ∧
      (refreshed.buildFrame world tick slot).2.throttlePending =
        (refreshed.cachedOutcome world tick slot).throttlePending ∧
      ((refreshed.cachedOutcome world tick slot).Same (refreshed.fullOutcome world tick slot) ↔
        CandidatesComplete refreshed world tick slot) := by
  have ready := (engineInv_of_run config policy run).buildReady refresh found
  have pair := planPair ready world tick
  have branch : ¬ ((refreshed.planFrame world tick slot).forced ||
      (refreshed.planFrame world tick slot).periodic) = true := by rw [delta]; exact Bool.false_ne_true
  refine ⟨?_, ?_, pair.complete_of_same, pair.same_of_complete⟩
  · simp only [buildFrame, if_neg branch, finishDelta_outcome, scanDelta, if_pos cached,
      Option.map_map]
    rfl
  · simp only [buildFrame, if_neg branch, scanDelta, if_pos cached]
    rfl

def originEngine : ProjectionEngine :=
  { config := originConfig }

/-- A quiet second tick: the cached path finds nothing to do, and rightly so. -/
theorem cached_build_same_quiet :
    ∃ refreshed slot, (refreshed.cachedOutcome originWorld 2 slot).sent = none ∧
      (refreshed.buildFrame originWorld 2 slot).1 = none ∧
      ((refreshed.cachedOutcome originWorld 2 slot).Same
          (refreshed.fullOutcome originWorld 2 slot) ↔
        CandidatesComplete refreshed originWorld 2 slot) := by
  have computed : ((runLabels ProjectionEngine.step originEngine
      [.addConnection 7 originArea, .onProjection originWorld 1, .acknowledge 7 1]).bind
        fun engine => (engine.refreshGlobalView originWorld 2).bind fun refreshed =>
          (refreshed.connections[(7 : ConnectionId)]?).map fun slot =>
            ((refreshed.planFrame originWorld 2 slot).fromCache,
              (refreshed.planFrame originWorld 2 slot).forced ||
                (refreshed.planFrame originWorld 2 slot).periodic,
              (refreshed.cachedOutcome originWorld 2 slot).sent.isNone)) =
        some (true, false, true) := by
    decide +kernel
  obtain ⟨engine, reached, rest⟩ := Option.bind_eq_some_iff.mp computed
  obtain ⟨refreshed, refresh, rest⟩ := Option.bind_eq_some_iff.mp rest
  obtain ⟨slot, found, shape⟩ := Option.map_eq_some_iff.mp rest
  simp only [Prod.mk.injEq, Option.isNone_iff_eq_none] at shape
  obtain ⟨cached, delta, quiet⟩ := shape
  have run : AnyRun EngineStep originEngine _ engine :=
    GuardedRun.of_runLabels reached fun _ _ => trivial
  obtain ⟨frame, -, same⟩ :=
    cached_build_same_iff originConfig {} run refresh found cached delta
  refine ⟨refreshed, slot, quiet, ?_, same⟩
  rw [frame, quiet, Option.map_none]

/-- Object 1 is entered, leaves before the enter is acknowledged, and only then is it
acknowledged: it is neither a candidate nor visible, but the full loop sees it leave. -/
def lateAckEvents : List EngineEvent :=
  [.addConnection 7 originArea, .onProjection originWorld 1, .acknowledge 7 1,
    .onProjection originWorldBoth 2, .onProjection (originWorldBoth.erase 1).2 3,
    .acknowledge 7 2]

theorem cached_build_same_fails :
    ¬ ∀ (config : ProjectionConfig) (policy : ProjectionPolicy) (events : List EngineEvent)
      (engine : ProjectionEngine) (world : World) (tick : UInt64)
      (refreshed : ProjectionEngine) (id : ConnectionId) (slot : Slot),
      AnyRun EngineStep { config := config, policy := policy } events engine →
      engine.refreshGlobalView world tick = some refreshed →
      refreshed.connections[id]? = some slot →
      (refreshed.planFrame world tick slot).fromCache = true →
      ((refreshed.planFrame world tick slot).forced ||
        (refreshed.planFrame world tick slot).periodic) = false →
      (refreshed.cachedOutcome world tick slot).Same (refreshed.fullOutcome world tick slot) := by
  intro claim
  have computed : ((runLabels ProjectionEngine.step originEngine lateAckEvents).bind
        fun engine => (engine.refreshGlobalView (originWorldBoth.erase 1).2 4).bind
          fun refreshed => (refreshed.connections[(7 : ConnectionId)]?).map fun slot =>
            ((refreshed.planFrame (originWorldBoth.erase 1).2 4 slot).fromCache,
              (refreshed.planFrame (originWorldBoth.erase 1).2 4 slot).forced ||
                (refreshed.planFrame (originWorldBoth.erase 1).2 4 slot).periodic,
              (refreshed.cachedOutcome (originWorldBoth.erase 1).2 4 slot).sent.isNone,
              (refreshed.fullOutcome (originWorldBoth.erase 1).2 4 slot).sent.isSome)) =
        some (true, false, true, true) := by
    decide +kernel
  obtain ⟨engine, reached, rest⟩ := Option.bind_eq_some_iff.mp computed
  obtain ⟨refreshed, refresh, rest⟩ := Option.bind_eq_some_iff.mp rest
  obtain ⟨slot, found, shape⟩ := Option.map_eq_some_iff.mp rest
  simp only [Prod.mk.injEq, Option.isNone_iff_eq_none] at shape
  obtain ⟨cached, delta, nothing, something⟩ := shape
  have run : AnyRun EngineStep originEngine _ engine :=
    GuardedRun.of_runLabels reached fun _ _ => trivial
  obtain ⟨rel, -⟩ := claim originConfig {} lateAckEvents engine _ 4 refreshed 7 slot run refresh
    found cached delta
  obtain ⟨sent, full⟩ := Option.isSome_iff_exists.mp something
  rw [nothing, full] at rel
  cases rel

end GeoWorld.Projection
