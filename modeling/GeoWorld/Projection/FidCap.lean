import Mathlib
import GeoWorld.Gateway.TickDivisors
import GeoWorld.Projection.CachedScan
import GeoWorld.Projection.FeatureIds
import GeoWorld.Projection.KeyframeSchedule

/-!
The cap on feature ids. A build that would exceed it starts a new epoch, but counts neither the
ids it maps in the new epoch nor, with a cached visible set, those it maps in the old one.
-/

namespace GeoWorld.Projection

open WorldModel Library ConnectionProjection ProjectionEngine

/-- The build has room for every id it may map, in the epoch it maps them in. -/
def FidsFit (engine : ProjectionEngine) (connection : ConnectionProjection)
    (result : VisibleResult) : Prop :=
  if engine.FidsExhausted connection result then
    result.visible.length ≤ engine.config.maxFeatureIdsPerEpoch
  else
    connection.fidCount + unmappedCount connection result.visible ≤
      engine.config.maxFeatureIdsPerEpoch

instance (engine : ProjectionEngine) (connection : ConnectionProjection)
    (result : VisibleResult) : Decidable (FidsFit engine connection result) :=
  inferInstanceAs (Decidable (if engine.FidsExhausted connection result then _ else _))

/-- The visible set for which a build gave up an epoch, and the one the epoch began with. -/
structure EpochReset where
  visible : List WorldId
  start : Option (List WorldId)
  deriving DecidableEq

structure EpochLog where
  engine : ProjectionEngine
  /-- The visible set of the first build of the epoch. -/
  start : Option (List WorldId) := none
  resets : List EpochReset := []

namespace EpochLog

def built (log : EpochLog) (refreshed : ProjectionEngine) (world : World) (tick : UInt64)
    (slot : Slot) : EpochLog :=
  let visible := (refreshed.planFrame world tick slot).visible
  if (refreshed.buildSlot world tick slot).connection.streamEpoch =
      slot.connection.streamEpoch then
    { log with start := log.start.or (some visible) }
  else
    { log with start := some visible, resets := log.resets ++ [⟨visible, log.start⟩] }

def observe (id : ConnectionId) (log : EpochLog) : EngineEvent → EpochLog
  | .onProjection world tick =>
    ((log.engine.refreshGlobalView world tick).bind fun refreshed =>
      (refreshed.connections[id]?).map (log.built refreshed world tick)).getD log
  | .resetStreamEpoch other => if other = id then { log with start := none } else log
  | _ => log

/-- A connection that is added again starts over. -/
def step (id : ConnectionId) (log : EpochLog) (event : EngineEvent) : Option EpochLog :=
  (log.engine.step event).map fun engine =>
    if (log.engine.connections[id]?).isSome ∧ (engine.connections[id]?).isSome then
      { log.observe id event with engine := engine }
    else
      { engine := engine }

abbrev Step (id : ConnectionId) (before : EpochLog) (event : EngineEvent) (after : EpochLog) :
    Prop :=
  before.step id event = some after

def initial (config : ProjectionConfig) (policy : ProjectionPolicy) : EpochLog where
  engine := { config := config, policy := policy }

end EpochLog

/-- The build of `id` in this projection has room. -/
def RoomForFids (id : ConnectionId) (log : EpochLog) : EngineEvent → Prop
  | .onProjection world tick => ∀ refreshed ∈ log.engine.refreshGlobalView world tick,
    ∀ slot ∈ refreshed.connections[id]?, FidsFit refreshed slot.connection
      (refreshed.resolveVisible slot.connection slot.visibleCache
        (refreshed.resolveBounds slot.connection) world)
  | _ => True

/-- The cap holds, and an epoch is given up only for another visible set than it began with. -/
structure CapRespected (id : ConnectionId) (cap : Nat) (log : EpochLog) : Prop where
  within : ∀ slot, log.engine.connections[id]? = some slot → slot.connection.fidCount ≤ cap
  no_repeat : ∀ reset ∈ log.resets, ∃ first, reset.start = some first ∧ first ≠ reset.visible

section Build

variable {engine : ProjectionEngine} {world : World} {tick : UInt64} {slot : Slot}
  {connection : ConnectionProjection} {wids visible : List WorldId}

theorem fidOf_ensureFid_ne (connection : ConnectionProjection) {wid other : WorldId}
    (different : other ≠ wid) : (connection.ensureFid wid).2.fidOf other = connection.fidOf other := by
  unfold ConnectionProjection.ensureFid
  cases known : connection.fidOf wid with
  | some fid => rfl
  | none => exact lookup_insert_ne _ different _

theorem fidOf_ensureFids_of_notMem (connection : ConnectionProjection) {wid : WorldId}
    (absent : wid ∉ wids) : (connection.ensureFids wids).fidOf wid = connection.fidOf wid := by
  induction wids using List.reverseRecOn with
  | nil => rfl
  | append_singleton rest last ih =>
    simp only [List.mem_append, List.mem_singleton, not_or] at absent
    rw [ensureFids_append_single, fidOf_ensureFid_ne _ absent.2, ih absent.1]

theorem fidCount_ensureFid (connection : ConnectionProjection) (wid : WorldId) :
    (connection.ensureFid wid).2.fidCount =
      connection.fidCount + if (connection.fidOf wid).isNone then 1 else 0 := by
  unfold ConnectionProjection.ensureFid
  cases known : connection.fidOf wid with
  | some fid => rfl
  | none =>
    have absent : connection.fidByWid.contains wid = false := by
      rw [Std.ExtTreeMap.contains_eq_isSome_getElem?]
      exact Option.isSome_eq_false_iff.mpr (Option.isNone_iff_eq_none.mpr known)
    simp only [allocateFid, mapFid, fidCount, Std.ExtTreeMap.size_insert, absent,
      Bool.false_eq_true, if_false, Option.isNone_none, if_true]

/-- Allocation maps exactly the ids that had no feature id. -/
theorem fidCount_ensureFids (connection : ConnectionProjection) (distinct : wids.Nodup) :
    (connection.ensureFids wids).fidCount =
      connection.fidCount + unmappedCount connection wids := by
  induction wids using List.reverseRecOn with
  | nil => rfl
  | append_singleton rest wid ih =>
    obtain ⟨distinct_rest, -, apart⟩ := List.nodup_append.mp distinct
    have absent : wid ∉ rest := fun member => apart wid member wid (by simp) rfl
    rw [ensureFids_append_single, fidCount_ensureFid, ih distinct_rest,
      fidOf_ensureFids_of_notMem connection absent, unmappedCount, unmappedCount,
      List.countP_append, List.countP_singleton, Nat.add_assoc]

theorem unmappedCount_le (connection : ConnectionProjection) (distinct : wids.Nodup)
    (inside : wids ⊆ visible) : unmappedCount connection wids ≤ unmappedCount connection visible :=
  (distinct.subperm inside).countP_le _

theorem unmappedCount_empty (none : connection.fidByWid = ∅) (visible : List WorldId) :
    unmappedCount connection visible = visible.length := by
  rw [unmappedCount, List.countP_eq_length]
  intro wid _
  simp [fidOf, none]

/-- What a build maps: some of the visible ids, all of them in a forced keyframe. -/
theorem buildFrame_maps (ready : BuildReady engine slot) : ∃ wids, wids.Nodup ∧
    wids ⊆ (engine.planFrame world tick slot).visible ∧
    ((engine.planFrame world tick slot).forced = true →
      wids = (engine.planFrame world tick slot).visible) ∧
    (engine.buildFrame world tick slot).2.connection.fidByWid =
      ((engine.planFrame world tick slot).connection.ensureFids wids).fidByWid := by
  obtain ⟨distinct, known, -⟩ := ready.plan_sound world tick
  obtain ⟨plan, planned⟩ : ∃ plan, engine.planFrame world tick slot = plan := ⟨_, rfl⟩
  unfold buildFrame
  rw [planned] at distinct known ⊢
  simp only
  split
  · have scanned := (engine.keyframeScan_result plan.connection tick distinct).connection_eq
    have all : (plan.visible.filter fun wid => (engine.keyframeAction wid).isEnter) =
        plan.visible := by
      refine List.filter_eq_self.mpr fun wid member => ?_
      obtain ⟨state, found⟩ := Option.isSome_iff_exists.mp
        (Std.ExtTreeMap.mem_iff_isSome_getElem?.mp (known wid member))
      rw [keyframeAction_enter.mpr found]
      rfl
    rw [all] at scanned
    refine ⟨plan.visible, distinct, List.Subset.refl _, fun _ => rfl, ?_⟩
    rw [buildKeyframe_eq, commitFrame_fids, ← scanned]
    rfl
  · next undue =>
    rw [Bool.or_eq_true, not_or] at undue
    have result := scanDelta_result engine world tick slot.throttlePending distinct
    refine ⟨(loopWids engine slot.throttlePending plan).filter fun wid =>
        (engine.widAction plan.connection plan.visible tick wid).isEnter,
      (loopWids_nodup engine slot.throttlePending distinct).filter _, fun wid member => ?_,
      fun forced => absurd forced undue.1, ?_⟩
    · exact widAction_enter_visible (List.mem_filter.mp member).2
    · rw [← result.connection_eq]
      unfold finishDelta
      split
      · rfl
      · simp only [commitFrame_fids, trimUpdates_connection]

theorem planFrame_result (engine : ProjectionEngine) (world : World) (tick : UInt64)
    (slot : Slot) : (engine.planFrame world tick slot).visible =
      (engine.resolveVisible slot.connection slot.visibleCache
        (engine.resolveBounds slot.connection) world).visible := rfl

/-- With room, what a build maps stays within the cap. -/
theorem planFrame_fits (fits : FidsFit engine slot.connection (engine.resolveVisible
      slot.connection slot.visibleCache (engine.resolveBounds slot.connection) world)) :
    (engine.planFrame world tick slot).connection.fidCount +
        unmappedCount (engine.planFrame world tick slot).connection
          (engine.planFrame world tick slot).visible ≤ engine.config.maxFeatureIdsPerEpoch := by
  rw [planFrame_result]
  unfold planFrame
  simp only
  unfold FidsFit at fits
  split
  · next exhausted =>
    rw [if_pos exhausted] at fits
    rw [unmappedCount_empty (by rfl)]
    simpa [fidCount, resetEpoch] using fits
  · next room =>
    rw [if_neg room] at fits
    exact fits

theorem buildFrame_within (ready : BuildReady engine slot)
    (fits : FidsFit engine slot.connection (engine.resolveVisible slot.connection
      slot.visibleCache (engine.resolveBounds slot.connection) world)) :
    (engine.buildFrame world tick slot).2.connection.fidCount ≤
      engine.config.maxFeatureIdsPerEpoch := by
  obtain ⟨wids, distinct, inside, -, maps⟩ := @buildFrame_maps engine world tick slot ready
  have counted := fidCount_ensureFids (engine.planFrame world tick slot).connection distinct
  have fewer := unmappedCount_le (engine.planFrame world tick slot).connection distinct inside
  have room := @planFrame_fits engine world tick slot fits
  rw [fidCount, maps, ← fidCount]
  omega

/-- In a new epoch every visible id is mapped, however many there are. -/
theorem exhausted_fidCount (ready : BuildReady engine slot)
    (exhausted : engine.FidsExhausted slot.connection (engine.resolveVisible slot.connection
      slot.visibleCache (engine.resolveBounds slot.connection) world)) :
    (engine.buildFrame world tick slot).2.connection.fidCount =
      (engine.planFrame world tick slot).visible.length := by
  obtain ⟨wids, distinct, -, all, maps⟩ := @buildFrame_maps engine world tick slot ready
  have forced : (engine.planFrame world tick slot).forced = true := by
    simp [planFrame, exhausted]
  have fresh : (engine.planFrame world tick slot).connection =
      slot.connection.resetEpoch .fidExhausted engine.latestSnapshotId := by
    simp [planFrame, exhausted]
  rw [all forced] at distinct maps
  have counted := fidCount_ensureFids (engine.planFrame world tick slot).connection distinct
  rw [fresh, unmappedCount_empty rfl] at counted
  rw [fidCount, maps, ← fidCount, fresh, counted]
  simp [fidCount, resetEpoch]

end Build

/-- The feature ids of a connection against the visible set its epoch began with. -/
structure EpochStarted (cap : Nat) (start : Option (List WorldId))
    (connection : ConnectionProjection) : Prop where
  within : connection.fidCount ≤ cap
  fresh : start = none → connection.fidByWid = ∅ ∧ connection.needsKeyframe = true
  started : ∀ visible, start = some visible →
    ∀ wid ∈ visible, (connection.fidOf wid).isSome

structure EpochInv (id : ConnectionId) (config : ProjectionConfig) (log : EpochLog) : Prop where
  engine_inv : EngineInv log.engine
  config_eq : log.engine.config = config
  epoch_started : ∀ slot, log.engine.connections[id]? = some slot →
    EpochStarted config.maxFeatureIdsPerEpoch log.start slot.connection
  no_repeat : ∀ reset ∈ log.resets, ∃ first, reset.start = some first ∧ first ≠ reset.visible

section Run

variable {id : ConnectionId} {config : ProjectionConfig} {log after : EpochLog}
  {event : EngineEvent}

section Project

variable {refreshed : ProjectionEngine} {world : World} {tick : UInt64} {slot : Slot}
  {start : Option (List WorldId)}

/-- Room for the visible ids is missing only when they are not those the epoch began with. -/
theorem exhausted_differs
    (epoch : EpochStarted refreshed.config.maxFeatureIdsPerEpoch start slot.connection)
    (fits : FidsFit refreshed slot.connection (refreshed.resolveVisible slot.connection
      slot.visibleCache (refreshed.resolveBounds slot.connection) world))
    (exhausted : refreshed.FidsExhausted slot.connection (refreshed.resolveVisible slot.connection
      slot.visibleCache (refreshed.resolveBounds slot.connection) world)) :
    ∃ first, start = some first ∧ first ≠ (refreshed.planFrame world tick slot).visible := by
  rw [planFrame_result]
  generalize refreshed.resolveVisible slot.connection slot.visibleCache
    (refreshed.resolveBounds slot.connection) world = result at fits exhausted
  unfold FidsFit at fits
  rw [if_pos exhausted] at fits
  unfold FidsExhausted at exhausted
  cases begun : start with
  | none =>
    have none := (epoch.fresh begun).1
    have counted : slot.connection.fidCount = 0 := by simp [fidCount, none]
    rw [counted, unmappedCount_empty none] at exhausted
    split at exhausted <;> omega
  | some first =>
    refine ⟨first, rfl, fun same => ?_⟩
    have mapped : unmappedCount slot.connection result.visible = 0 := by
      refine List.countP_eq_zero.mpr fun wid member => ?_
      have present := epoch.started first begun wid (same ▸ member)
      simpa using Option.isSome_iff_ne_none.mp present
    have within := epoch.within
    rw [mapped] at exhausted
    split at exhausted <;> omega

theorem forced_maps (ready : BuildReady refreshed slot)
    (forced : (refreshed.planFrame world tick slot).forced = true) {wid : WorldId}
    (member : wid ∈ (refreshed.planFrame world tick slot).visible) :
    ((refreshed.buildFrame world tick slot).2.connection.fidOf wid).isSome := by
  obtain ⟨wids, -, -, all, maps⟩ := @buildFrame_maps refreshed world tick slot ready
  rw [all forced] at maps
  obtain ⟨fid, mapped⟩ :=
    ensureFids_mapped (refreshed.planFrame world tick slot).connection member
  rw [fidOf, maps, ← fidOf, mapped]
  rfl

/-- A build with room keeps to the cap and gives up an epoch only for another visible set. -/
theorem EpochStarted.project (ready : BuildReady refreshed slot)
    (epoch : EpochStarted refreshed.config.maxFeatureIdsPerEpoch log.start slot.connection)
    (fits : FidsFit refreshed slot.connection (refreshed.resolveVisible slot.connection
      slot.visibleCache (refreshed.resolveBounds slot.connection) world))
    (no_repeat : ∀ reset ∈ log.resets, ∃ first, reset.start = some first ∧ first ≠ reset.visible) :
    EpochStarted refreshed.config.maxFeatureIdsPerEpoch
        (log.built refreshed world tick slot).start (refreshed.buildSlot world tick slot).connection ∧
      ∀ reset ∈ (log.built refreshed world tick slot).resets,
        ∃ first, reset.start = some first ∧ first ≠ reset.visible := by
  have within := @buildFrame_within refreshed world tick slot ready fits
  have numbers := (@buildFrame_numbers refreshed tick slot world ready).epoch
  have after_eq : (refreshed.buildSlot world tick slot).connection =
    (refreshed.buildFrame world tick slot).2.connection := rfl
  unfold EpochLog.built
  simp only
  rw [after_eq]
  by_cases exhausted : refreshed.FidsExhausted slot.connection (refreshed.resolveVisible
      slot.connection slot.visibleCache (refreshed.resolveBounds slot.connection) world)
  · have forced : (refreshed.planFrame world tick slot).forced = true := by
      simp [planFrame, exhausted]
    have moved : (refreshed.planFrame world tick slot).connection.streamEpoch =
        slot.connection.streamEpoch + 1 := by
      simp [planFrame, exhausted, resetEpoch]
    have differs := @exhausted_differs refreshed world tick slot _ epoch fits exhausted
    rw [if_neg (by rw [numbers, moved]; omega)]
    refine ⟨⟨within, by simp, fun visible same wid member => ?_⟩, fun reset member => ?_⟩
    · obtain rfl := Option.some.inj same
      exact @forced_maps refreshed world tick slot ready forced wid member
    · rcases List.mem_append.mp member with earlier | here
      · exact no_repeat reset earlier
      · obtain rfl := List.mem_singleton.mp here
        exact differs
  · have same_plan : (refreshed.planFrame world tick slot).connection = slot.connection := by
      simp [planFrame, exhausted]
    rw [if_pos (by rw [numbers, same_plan])]
    refine ⟨⟨within, fun gone => ?_, fun visible same wid member => ?_⟩, no_repeat⟩
    · cases begun : log.start <;> simp [begun] at gone
    · cases begun : log.start with
      | none =>
        have forced : (refreshed.planFrame world tick slot).forced = true :=
          build_forced (.inl (epoch.fresh begun).2)
        simp only [begun, Option.none_or, Option.some.injEq] at same
        subst same
        exact @forced_maps refreshed world tick slot ready forced wid member
      | some first =>
        simp only [begun, Option.some_or, Option.some.injEq] at same
        subst same
        obtain ⟨fid, mapped⟩ := Option.isSome_iff_exists.mp (epoch.started first begun wid member)
        obtain ⟨wids, -, -, -, maps⟩ := @buildFrame_maps refreshed world tick slot ready
        rw [same_plan] at maps
        rw [fidOf, maps, idsExtend_ensureFids slot.connection wids wid fid mapped]
        rfl

end Project

/-- Only a reset touches the feature ids, and nothing but a build clears what asks for a keyframe. -/
theorem EpochStarted.change {slot : Slot} {cap latest : Nat}
    (other : ∀ world tick, event ≠ .onProjection world tick)
    (epoch : EpochStarted cap log.start slot.connection) :
    EpochStarted cap (log.observe id event).start (slotEffect latest id slot event).connection ∧
      (log.observe id event).resets = log.resets := by
  have needs := (@slotEffect_schedule slot latest id event).2.2.1
  have keeps : (slotEffect latest id slot event).connection.fidByWid = slot.connection.fidByWid →
      (log.observe id event).start = log.start →
      EpochStarted cap (log.observe id event).start (slotEffect latest id slot event).connection := by
    intro same begun
    rw [begun]
    refine ⟨by rw [fidCount, same]; exact epoch.within, fun none => ?_, fun visible begun wid member => ?_⟩
    · exact ⟨same.trans (epoch.fresh none).1, needs (epoch.fresh none).2⟩
    · rw [fidOf, same]
      exact epoch.started visible begun wid member
  cases event with
  | onProjection world tick => exact absurd rfl (other world tick)
  | resetStreamEpoch target =>
    by_cases same : target = id
    · simp only [EpochLog.observe, slotEffect, same, if_true]
      exact ⟨⟨by simp [fidCount, resetEpoch], fun _ => ⟨rfl, rfl⟩, by simp⟩, trivial⟩
    · exact ⟨keeps (by simp [slotEffect, same]) (by simp [EpochLog.observe, same]),
        by simp [EpochLog.observe, same]⟩
  | updateSubscription target subscription =>
    refine ⟨keeps ?_ rfl, rfl⟩
    by_cases same : target = id <;> simp [slotEffect, same, setSubscription]
  | scheduleKeyframe target =>
    refine ⟨keeps ?_ rfl, rfl⟩
    by_cases same : target = id <;> simp [slotEffect, same]
  | nextFrame target =>
    refine ⟨keeps ?_ rfl, rfl⟩
    by_cases same : target = id <;> simp [slotEffect, same]
  | acknowledge target snapshotId =>
    obtain ⟨_, _, _, _, _, _, frame⟩ := acknowledge_frame slot.connection snapshotId
    refine ⟨keeps ?_ rfl, rfl⟩
    by_cases same : target = id <;> simp [slotEffect, same, frame]
  | _ => exact ⟨keeps rfl rfl, rfl⟩

theorem epochInv_step (inv : EpochInv id config log) (room : RoomForFids id log event)
    (step : log.step id event = some after) : EpochInv id config after := by
  obtain ⟨engine, stepped, rfl⟩ := Option.map_eq_some_iff.mp step
  have engine_inv : EngineInv engine := inv.engine_inv.step stepped
  have config_eq : engine.config = config :=
    (settings_of_step inv.engine_inv stepped).1.trans inv.config_eq
  by_cases present : (log.engine.connections[id]?).isSome ∧ (engine.connections[id]?).isSome
  · rw [if_pos present]
    obtain ⟨slot, found⟩ := Option.isSome_iff_exists.mp present.2
    have both : EpochStarted config.maxFeatureIdsPerEpoch (log.observe id event).start
          slot.connection ∧
        ∀ reset ∈ (log.observe id event).resets,
          ∃ first, reset.start = some first ∧ first ≠ reset.visible := by
      cases slotStep_of_step stepped found with
      | @built world tick refreshed old refresh kept =>
        obtain ⟨-, steps⟩ := refreshGlobalView_step inv.engine_inv.global_inv refresh
        have found_old : log.engine.connections[id]? = some old := by
          rw [steps.connections_eq] at kept
          exact kept
        have same_config : refreshed.config = config := steps.config_eq.trans inv.config_eq
        have observed : log.observe id (.onProjection world tick) =
            log.built refreshed world tick old := by
          simp only [EpochLog.observe, refresh, Option.bind_some, kept, Option.map_some,
            Option.getD_some]
        have epoch := inv.epoch_started old found_old
        rw [observed]
        rw [← same_config] at epoch ⊢
        exact epoch.project (inv.engine_inv.buildReady refresh kept)
          (room refreshed refresh old kept) inv.no_repeat
      | @changed _ old other found_old =>
        obtain ⟨epoch, resets⟩ :=
          @EpochStarted.change id log event old _ _ other (inv.epoch_started old found_old)
        rw [resets]
        exact ⟨epoch, inv.no_repeat⟩
      | created absent =>
        rw [absent] at present
        exact absurd present.1 Bool.false_ne_true
    refine ⟨engine_inv, config_eq, fun other here => ?_, both.2⟩
    obtain rfl := Option.some.inj (here.symm.trans found)
    exact both.1
  · rw [if_neg present]
    refine ⟨engine_inv, config_eq, fun slot found => ?_, by simp⟩
    have absent : log.engine.connections[id]? = none := by
      simpa [found] using present
    cases slotStep_of_step stepped found with
    | @built world tick refreshed old refresh kept =>
      obtain ⟨-, steps⟩ := refreshGlobalView_step inv.engine_inv.global_inv refresh
      rw [steps.connections_eq] at kept
      have found_old : log.engine.connections[id]? = some old := kept
      rw [absent] at found_old
      cases found_old
    | changed other found_old =>
      rw [absent] at found_old
      cases found_old
    | created => exact ⟨Nat.zero_le _, fun _ => ⟨rfl, rfl⟩, by simp⟩

/-- When every build has room, the cap holds and no epoch is given up for the visible set it began
with. -/
theorem cap_respected (config : ProjectionConfig) (policy : ProjectionPolicy)
    (id : ConnectionId) {events : List EngineEvent} {log : EpochLog}
    (run : GuardedRun (EpochLog.Step id) (RoomForFids id) (.initial config policy) events log) :
    CapRespected id config.maxFeatureIdsPerEpoch log := by
  have start : EpochInv id config (.initial config policy) := by
    refine ⟨EngineInv.initial config policy, rfl, fun slot found => ?_, by simp [EpochLog.initial]⟩
    simp [EpochLog.initial] at found
  have inv := run.invariant start fun _ _ _ room step inv => epochInv_step inv room step
  exact ⟨fun slot found => (inv.epoch_started slot found).within, inv.no_repeat⟩

def roomForFids (id : ConnectionId) (log : EpochLog) : EngineEvent → Bool
  | .onProjection world tick =>
    (log.engine.refreshGlobalView world tick).all fun refreshed =>
      (refreshed.connections[id]?).all fun slot =>
        decide (FidsFit refreshed slot.connection (refreshed.resolveVisible slot.connection
          slot.visibleCache (refreshed.resolveBounds slot.connection) world))
  | _ => true

theorem roomForFids_of_check (check : roomForFids id log event = true) :
    RoomForFids id log event := by
  cases event with
  | onProjection world tick =>
    intro refreshed refresh slot found
    simp only [roomForFids, Option.all_eq_true, decide_eq_true_eq] at check
    exact check refreshed refresh slot found
  | _ => trivial

/-- One feature id in an epoch. -/
def cappedSettings : Gateway.ProjectionSettings :=
  { maxFeatureIdsPerEpoch := 1, enuOrigin := ⟨0x3FF0000000000000, 0, 0⟩ }

/-- Object 1 takes the place of object 2. -/
def replacedEvents : List EngineEvent :=
  [.addConnection 7 originArea, .onProjection originWorld 1,
    .onProjection (originWorldBoth.erase 2).2 2]

theorem replaced_computed :
    (runLabels (fun log event => if roomForFids 7 log event then log.step 7 event else none)
        (.initial (cappedSettings.config originGeometry) {}) replacedEvents).map EpochLog.resets =
      some [⟨[1], some [2]⟩] := by
  decide +kernel

theorem cap_respected_replaced : ∃ log : EpochLog, log.resets = [⟨[1], some [2]⟩] ∧
    CapRespected 7 1 log := by
  obtain ⟨log, computed, resets⟩ := Option.map_eq_some_iff.mp replaced_computed
  exact ⟨log, resets, cap_respected (cappedSettings.config originGeometry) {} 7
    (.of_checked (fun _ _ check => roomForFids_of_check check) computed)⟩

/-- Two objects stay where one feature id is allowed. -/
def crowdedEvents : List EngineEvent :=
  [.addConnection 7 originArea, .onProjection originWorldBoth 1, .onProjection originWorldBoth 2]

theorem crowded_computed :
    (runLabels (EpochLog.step 7) (.initial (cappedSettings.config originGeometry) {})
        crowdedEvents).map
      (fun log => ((log.engine.connections[(7 : ConnectionId)]?).map fun slot =>
        slot.connection.fidCount, log.resets)) =
      some (some 2, [⟨[1, 2], none⟩, ⟨[1, 2], some [1, 2]⟩]) := by
  decide +kernel

/-- A visible set above the cap is mapped all the same, and starts a new epoch in every tick. -/
theorem cap_exceeded : ¬ ∀ (settings : Gateway.ProjectionSettings) (geometry : Geometry)
    (policy : ProjectionPolicy) (id : ConnectionId) (events : List EngineEvent) (log : EpochLog),
    settings.validate = .ok () →
    AnyRun (EpochLog.Step id) (.initial (settings.config geometry) policy) events log →
      CapRespected id settings.maxFeatureIdsPerEpoch.toNat log := by
  intro always
  obtain ⟨log, computed, outcome⟩ := Option.map_eq_some_iff.mp crowded_computed
  obtain ⟨counted, -⟩ := Prod.mk.inj outcome
  obtain ⟨slot, found, count⟩ := Option.map_eq_some_iff.mp counted
  have within := (always cappedSettings originGeometry {} 7 crowdedEvents log (by decide +kernel)
    (GuardedRun.of_runLabels computed fun _ _ => trivial)).within slot found
  rw [count] at within
  exact absurd within (by decide)

end Run

end GeoWorld.Projection
