import Mathlib
import GeoWorld.Projection.DeltaOutcome

/-!
The in-place update of the current view after a delta. An id with a landing
point or a leave of this frame takes it, an id touched by unacknowledged or
freshly acknowledged operations falls back to the acknowledged view, and every
other id keeps its entry. When entries that nothing touched agree with the
acknowledged view, the new view is the acknowledged view with the operations of
the frame on top.
-/

namespace GeoWorld.Projection

open WorldModel Library ConnectionProjection ProjectionEngine

theorem revertToAcked_lookup (acked view : WidMap TrackedEntity) (wid other : WorldId) :
    (revertToAcked acked view wid)[other]? =
      if other = wid then acked[wid]? else view[other]? := by
  unfold revertToAcked
  cases at_acked : acked[wid]? with
  | none => rw [lookup_erase]
  | some tracked => rw [lookup_insert]

/-- Ids whose entry may differ from the acknowledged one: freshly acknowledged
operations or operations not acknowledged yet. -/
def Unsettled (connection : ConnectionProjection) (wid : WorldId) : Prop :=
  wid ∈ connection.ackedDirty ∨ wid ∈ connection.unackedWidCounts

instance (connection : ConnectionProjection) (wid : WorldId) :
    Decidable (Unsettled connection wid) :=
  inferInstanceAs (Decidable (_ ∨ _))

theorem convergeView_lookup (connection : ConnectionProjection)
    (frameOps : WidMap TrackedEntity) (frameLeaves : WidMap FeatureId) (wid : WorldId) :
    (convergeView connection frameOps frameLeaves)[wid]? =
      if wid ∈ frameLeaves then none
      else (frameOps[wid]?).or (if Unsettled connection wid then connection.ackedView[wid]?
        else connection.currentView[wid]?) := by
  simp only [convergeView]
  rw [lookup_foldl_erase, lookup_foldl_insert]
  have reverted : ∀ (view : WidMap TrackedEntity) (wids : List WorldId) (skip : WorldId → Bool),
      (wids.foldl (fun acc changed =>
        if skip changed then acc else revertToAcked connection.ackedView acc changed) view)[wid]? =
        if wid ∈ wids then
          (if skip wid then none else some (connection.ackedView[wid]?)).getD view[wid]?
        else view[wid]? := by
    intro view wids skip
    refine lookup_foldl_edits view wids
      (fun changed => if skip changed then none else some (connection.ackedView[changed]?))
      _ ?_ wid
    intro acc changed other
    by_cases skipped : skip changed = true
    · by_cases same : other = changed <;> simp [skipped, same]
    · simp only [skipped, Bool.false_eq_true, if_false, revertToAcked_lookup,
        Option.getD_some]
  have unreverted : ∀ (view : WidMap TrackedEntity) (wids : List WorldId) (skip : WorldId → Bool),
      (wids.foldl (fun acc changed =>
        if skip changed then acc else revertToAcked connection.ackedView acc changed) view)[wid]? =
        if wid ∈ wids ∧ skip wid = false then connection.ackedView[wid]? else view[wid]? := by
    intro view wids skip
    rw [reverted]
    cases skip wid <;> by_cases member : wid ∈ wids <;> simp [member]
  rw [unreverted _ connection.unackedWidCounts.keys fun changed =>
      frameOps.contains changed || frameLeaves.contains changed,
    unreverted _ connection.ackedDirty fun changed =>
      (frameOps.contains changed || frameLeaves.contains changed) ||
        connection.unackedWidCounts.contains changed]
  simp only [Std.ExtTreeMap.mem_keys, Unsettled]
  by_cases leaves : wid ∈ frameLeaves
  · simp [leaves]
  · have no_leave : frameLeaves.contains wid = false := by
      rw [← Bool.not_eq_true, ← Std.ExtTreeMap.mem_iff_contains]
      exact leaves
    cases landed : frameOps[wid]? with
    | some tracked => simp [leaves]
    | none =>
      have no_op : frameOps.contains wid = false := by
        rw [Std.ExtTreeMap.contains_eq_isSome_getElem?, landed]
        rfl
      by_cases counted : wid ∈ connection.unackedWidCounts
      · simp [leaves, no_leave, no_op, counted]
      · have uncounted : connection.unackedWidCounts.contains wid = false := by
          rw [← Bool.not_eq_true, ← Std.ExtTreeMap.mem_iff_contains]
          exact counted
        simp [leaves, no_leave, no_op, counted, uncounted]

/-- Entries of the current view that nothing unsettled agree with the acknowledged view. -/
def SettledAgree (connection : ConnectionProjection) : Prop :=
  ∀ wid, ¬ Unsettled connection wid →
    viewOf connection.currentView wid = viewOf connection.ackedView wid

section Outcome

variable (engine : ProjectionEngine) {action : WorldId → WidAction}
variable {reason : WorldId → LeaveReason} {tick : UInt64} {connection : ConnectionProjection}
variable {wids : List WorldId} {scan : DeltaScan}

theorem delta_view (result : LoopResult action reason tick connection wids scan)
    (distinct : wids.Nodup) (sound : ActionsSound connection.ackedView action)
    (injective : FidsInjective connection.ackedView) (settled : SettledAgree connection) :
    viewOf (convergeView scan.connection
        (engine.trimUpdates connection.ackedView scan).frameOps
        (engine.trimUpdates connection.ackedView scan).frameLeaves) =
      applyScript (viewOf connection.ackedView)
        ((engine.trimUpdates connection.ackedView scan).ops.map SentOp.edit) := by
  obtain ⟨nextFid, fidByWid, widByFid, frame⟩ :=
    ensureFids_frame connection (wids.filter fun wid => (action wid).isEnter)
  have same_base : ∀ wid, (if Unsettled scan.connection wid then scan.connection.ackedView[wid]?
      else scan.connection.currentView[wid]?).map TrackedEntity.entry =
        viewOf connection.ackedView wid := by
    intro wid
    rw [result.connection_eq, frame]
    by_cases unsettled : Unsettled connection wid
    · have : Unsettled { connection with
          nextFid := nextFid, fidByWid := fidByWid, widByFid := widByFid } wid := unsettled
      rw [if_pos this]
      rfl
    · have : ¬ Unsettled { connection with
          nextFid := nextFid, fidByWid := fidByWid, widByFid := widByFid } wid := unsettled
      rw [if_neg this]
      exact settled wid unsettled
  have script_distinct : (touched ((engine.trimUpdates connection.ackedView scan).ops.map
      SentOp.edit)).Nodup := sent_edits_distinct result distinct
  funext wid
  rw [viewOf, convergeView_lookup, trimUpdates_frameLeaves]
  have silent : (wid ∉ wids ∨ Trimmed engine.config.maxUpdatesPerFrame action wids wid ∨
      (action wid).edit (scan.connection.fidIn wid) = none) →
      applyScript (viewOf connection.ackedView)
        ((engine.trimUpdates connection.ackedView scan).ops.map SentOp.edit) wid =
        viewOf connection.ackedView wid := by
    intro inactive
    refine applyScript_untouched _ fun mentioned => ?_
    obtain ⟨edit, member, rfl⟩ := List.mem_map.mp mentioned
    obtain ⟨in_wids, untrimmed, edited⟩ :=
      (mem_sent_edits result distinct sound injective edit).mp member
    rcases inactive with outside | trimmed | none_edit
    · exact outside in_wids
    · exact untrimmed trimmed
    · rw [none_edit] at edited
      cases edited
  have spoken : ∀ value, wid ∈ wids →
      ¬ Trimmed engine.config.maxUpdatesPerFrame action wids wid →
      (action wid).edit (scan.connection.fidIn wid) = some value →
      applyScript (viewOf connection.ackedView)
        ((engine.trimUpdates connection.ackedView scan).ops.map SentOp.edit) wid = value := by
    intro value in_wids untrimmed edited
    exact applyScript_of_mem _ script_distinct
      ((mem_sent_edits result distinct sound injective (wid, value)).mpr
        ⟨in_wids, untrimmed, edited⟩)
  by_cases member : wid ∈ wids
  · have leave_iff : wid ∈ scan.frameLeaves ↔ ((action wid).leaving).isSome := by
      rw [Std.ExtTreeMap.mem_iff_isSome_getElem?, result.frameLeaves_eq, if_pos member]
    have landing : (engine.trimUpdates connection.ackedView scan).frameOps[wid]? = _ :=
      trimUpdates_frameOps result distinct sound injective member
    cases acts : action wid with
    | leave tracked =>
      have untrimmed : ¬ Trimmed engine.config.maxUpdatesPerFrame action wids wid := by
        intro trimmed
        obtain ⟨_, _, updates⟩ := trimmed_updates trimmed
        rw [acts] at updates
        cases updates
      rw [if_pos (leave_iff.mpr (by rw [acts]; rfl)),
        spoken none member untrimmed (by rw [acts]; rfl)]
      rfl
    | enter state =>
      have untrimmed : ¬ Trimmed engine.config.maxUpdatesPerFrame action wids wid := by
        intro trimmed
        obtain ⟨_, _, updates⟩ := trimmed_updates trimmed
        rw [acts] at updates
        cases updates
      rw [if_neg (mt leave_iff.mp (by rw [acts]; simp [WidAction.leaving])), landing,
        if_neg untrimmed, acts, spoken _ member untrimmed (by rw [acts]; rfl)]
      rfl
    | update entry state =>
      rw [if_neg (mt leave_iff.mp (by rw [acts]; simp [WidAction.leaving])), landing]
      by_cases trimmed : Trimmed engine.config.maxUpdatesPerFrame action wids wid
      · rw [if_pos trimmed, silent (Or.inr (Or.inl trimmed)),
          sound.update_acked wid entry state acts, Option.some_or, viewOf,
          sound.update_acked wid entry state acts]
      · rw [if_neg trimmed, acts, spoken _ member trimmed (by rw [acts]; rfl)]
        rfl
    | _ =>
      have untrimmed : ¬ Trimmed engine.config.maxUpdatesPerFrame action wids wid := by
        intro trimmed
        obtain ⟨_, _, updates⟩ := trimmed_updates trimmed
        rw [acts] at updates
        cases updates
      rw [if_neg (mt leave_iff.mp (by rw [acts]; simp [WidAction.leaving])), landing,
        if_neg untrimmed, acts, silent (Or.inr (Or.inr (by rw [acts]; rfl)))]
      exact same_base wid
  · have no_leave : wid ∉ scan.frameLeaves := by
      rw [Std.ExtTreeMap.mem_iff_isSome_getElem?, result.frameLeaves_eq, if_neg member]
      simp
    rw [if_neg no_leave, trimUpdates_frameOps_outside result member, Option.none_or,
      silent (Or.inl member)]
    exact same_base wid

end Outcome

end GeoWorld.Projection
