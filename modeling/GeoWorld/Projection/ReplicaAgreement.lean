import Mathlib
import GeoWorld.Projection.SlotSteps

/-!
Replica agreement. A client applies every frame it takes; the server keeps a
current view it expects the client to hold. A keyframe always brings the two
together. A delta carries the operations against the acknowledged view, so it
does so exactly when it operates on every id where the client differs from the
acknowledged view.
-/

namespace GeoWorld.Projection

open WorldModel Library ConnectionProjection ProjectionEngine

/-- The next delta of `slot` operates on `wid`: the candidate loop visits it, there
is an operation due for it, and a saturated frame does not trim it. -/
def Operated (engine : ProjectionEngine) (world : World) (tick : UInt64) (slot : Slot)
    (wid : WorldId) : Prop :=
  let plan := engine.planFrame world tick slot
  let wids := loopWids engine slot.throttlePending plan
  let action := engine.widAction plan.connection plan.visible tick
  wid ∈ wids ∧ (action wid).Sends ∧
    ¬ Trimmed engine.config.maxUpdatesPerFrame action wids wid

/-- The build of `slot` is a keyframe, or operates on every id where the client
differs from the acknowledged view. -/
def Covered (engine : ProjectionEngine) (world : World) (tick : UInt64) (slot : Slot)
    (replica : ReplicaAccumulator) : Prop :=
  let plan := engine.planFrame world tick slot
  plan.forced = true ∨ plan.periodic = true ∨
    ∀ wid, replica.view wid ≠ viewOf plan.connection.ackedView wid →
      Operated engine world tick slot wid

theorem commitFrame_currentView (engine : ProjectionEngine) (connection : ConnectionProjection)
    (ops : List SentOp) :
    (engine.commitFrame connection ops).currentView = connection.currentView := by
  obtain ⟨_, _, _, _, -, frame⟩ := commitFrame_frame engine connection ops
  rw [frame]

theorem WidAction.sends_iff_edit (action : WidAction) (fid : FeatureId) :
    action.Sends ↔ ∃ value, action.edit fid = some value := by
  cases action <;> simp [WidAction.Sends, WidAction.edit]

section Build

variable {engine : ProjectionEngine} {world : World} {tick : UInt64} {slot : Slot}

/-- The keyframe branch brings every client to the new current view. -/
theorem keyframe_agrees (ready : BuildReady engine slot) (forced : Bool)
    (replica : ReplicaAccumulator) :
    (replica.apply (.keyframe (engine.buildKeyframe (engine.planFrame world tick slot).connection
        (engine.planFrame world tick slot).visible forced tick).1)).view =
      viewOf (engine.buildKeyframe (engine.planFrame world tick slot).connection
        (engine.planFrame world tick slot).visible forced tick).2.currentView := by
  obtain ⟨distinct, -, -⟩ := ready.plan_sound world tick
  rw [buildKeyframe_eq, commitFrame_currentView]
  exact (ReplicaAccumulator.applyKeyframe_view replica _).trans
    (keyframe_client_view distinct ready.global_inv.hashes)

/-- A delta brings the client to the new current view exactly when it is covered. -/
theorem delta_agrees_iff (ready : BuildReady engine slot)
    (unforced : (engine.planFrame world tick slot).forced = false) {frame : Delta}
    (built : (engine.finishDelta (engine.planFrame world tick slot).connection tick
      (engine.scanDelta world tick slot.throttlePending
        (engine.planFrame world tick slot))).1 = some frame)
    (replica : ReplicaAccumulator) :
    (replica.apply (.delta frame)).view =
        viewOf (engine.finishDelta (engine.planFrame world tick slot).connection tick
          (engine.scanDelta world tick slot.throttlePending
            (engine.planFrame world tick slot))).2.currentView ↔
      ∀ wid, replica.view wid ≠
          viewOf (engine.planFrame world tick slot).connection.ackedView wid →
        Operated engine world tick slot wid := by
  obtain ⟨distinct_visible, -, -⟩ := ready.plan_sound world tick
  obtain ⟨latest, -, inv⟩ := ready.plan_connection world tick
  obtain ⟨same, unneeded⟩ := BuildReady.plan_unforced unforced
  have settled := inv.settled (by rw [same]; exact unneeded)
  have result := scanDelta_result engine world tick slot.throttlePending distinct_visible
  have distinct := loopWids_nodup engine slot.throttlePending distinct_visible
  have sound := widAction_sound ready.global_inv.hashes
    (engine.planFrame world tick slot).connection (engine.planFrame world tick slot).visible tick
  have injective := inv.acked_injective
  unfold finishDelta at built ⊢
  split at built
  · cases built
  · next sends =>
    rw [if_neg sends]
    obtain rfl := Option.some.inj built
    rw [commitFrame_currentView, trimUpdates_connection,
      delta_view engine result distinct sound injective settled]
    have client := ReplicaAccumulator.applyDelta_view replica
    rw [ReplicaAccumulator.apply, client, sealDelta_script result distinct sound injective,
      applyScript_agree_iff]
    refine forall_congr' fun wid => imp_congr_right fun _ => ?_
    constructor
    · intro mentioned
      obtain ⟨edit, member, rfl⟩ := List.mem_map.mp mentioned
      obtain ⟨in_wids, untrimmed, edited⟩ :=
        (mem_sent_edits result distinct sound injective edit).mp member
      exact ⟨in_wids, (WidAction.sends_iff_edit _ _).mpr ⟨_, edited⟩, untrimmed⟩
    · rintro ⟨in_wids, acts, untrimmed⟩
      obtain ⟨value, edited⟩ := (WidAction.sends_iff_edit _
        ((engine.scanDelta world tick slot.throttlePending
          (engine.planFrame world tick slot)).connection.fidIn wid)).mp acts
      exact List.mem_map.mpr ⟨(wid, value),
        (mem_sent_edits result distinct sound injective (wid, value)).mpr
          ⟨in_wids, untrimmed, edited⟩, rfl⟩

/-- The frame of one build agrees with the server exactly when the build is covered. -/
theorem buildFrame_agrees_iff (ready : BuildReady engine slot) {frame : StateFrame}
    (built : (engine.buildFrame world tick slot).1 = some frame)
    (replica : ReplicaAccumulator) :
    (replica.apply frame).view =
        viewOf (engine.buildFrame world tick slot).2.connection.currentView ↔
      Covered engine world tick slot replica := by
  unfold buildFrame at built ⊢
  simp only at built ⊢
  unfold Covered
  simp only
  split at built
  · next due =>
    obtain rfl := Option.some.inj built
    rw [if_pos due]
    refine iff_of_true (keyframe_agrees ready _ replica) ?_
    rcases Bool.or_eq_true_iff.mp due with forced | periodic
    · exact Or.inl forced
    · exact Or.inr (Or.inl periodic)
  · next undue =>
    rw [if_neg undue]
    simp only [Bool.or_eq_true, not_or, Bool.not_eq_true] at undue
    obtain ⟨delta, finished, rfl⟩ := Option.map_eq_some_iff.mp built
    rw [delta_agrees_iff ready undue.1 finished replica]
    simp [undue.1, undue.2]

end Build

/-- One engine and the client of one of its connections. -/
structure ReplicaLink where
  engine : ProjectionEngine
  replica : ReplicaAccumulator := ∅

/-- The client of `id` applies every frame taken for it. -/
def ReplicaLink.receive (id : ConnectionId) (link : ReplicaLink) :
    EngineEvent → ReplicaAccumulator
  | .nextFrame other =>
    if other = id then
      match (link.engine.nextFrame id).1 with
      | some frame => link.replica.apply frame
      | none => link.replica
    else link.replica
  | _ => link.replica

def ReplicaLink.step (id : ConnectionId) (link : ReplicaLink) (event : EngineEvent) :
    Option ReplicaLink :=
  (link.engine.step event).map fun engine => ⟨engine, link.receive id event⟩

abbrev ReplicaLink.Step (id : ConnectionId) (before : ReplicaLink) (event : EngineEvent)
    (after : ReplicaLink) : Prop :=
  before.step id event = some after

/-- Operations during which the client of `id` stays on its stream: everything but a
reconnect or removal of that connection. -/
def KeepsStream (id : ConnectionId) (event : EngineEvent) : Prop :=
  event ≠ .resetStreamEpoch id ∧ event ≠ .removeConnection id

/-- A build in this step is covered for the client of `id`. -/
def CoveredStep (id : ConnectionId) (link : ReplicaLink) (event : EngineEvent) : Prop :=
  ∀ world tick, event = .onProjection world tick →
    ∀ refreshed, link.engine.refreshGlobalView world tick = some refreshed →
      ∀ slot, refreshed.connections[id]? = some slot →
        Covered refreshed world tick slot link.replica

/-- Client and server agree on ids, feature ids and hashes. -/
def Agrees (id : ConnectionId) (link : ReplicaLink) : Prop :=
  ∀ slot, link.engine.connections[id]? = some slot →
    link.replica.view = viewOf slot.connection.currentView

/-- If a frame is waiting, taking and applying it makes client and server agree. -/
def AgreesOnDelivery (id : ConnectionId) (link : ReplicaLink) : Prop :=
  ∀ frame after, (link.engine.nextFrame id).1 = some frame →
    link.step id (.nextFrame id) = some after → Agrees id after

/-- A waiting frame will bring the client to the current view. -/
def PendingAgrees (id : ConnectionId) (link : ReplicaLink) : Prop :=
  ∀ slot frame, link.engine.connections[id]? = some slot →
    slot.pendingFrame = some (some frame) →
      (link.replica.apply frame).view = viewOf slot.connection.currentView

theorem acknowledge_currentView (connection : ConnectionProjection) (snapshotId : Nat) :
    (connection.acknowledge snapshotId).2.currentView = connection.currentView := by
  by_cases accepted : (connection.acknowledge snapshotId).1 = .accepted
  · obtain ⟨-, -, -, _, _, result, -⟩ := acknowledge_accepted accepted
    rw [result]
  · rw [acknowledge_rejected accepted]

/-- An operation other than `on_projection` that keeps the stream leaves the current
view alone and never produces a waiting frame. -/
theorem slotEffect_pending {latest : Nat} {id : ConnectionId} {slot : Slot}
    {event : EngineEvent} (keeps : KeepsStream id event) {frame : StateFrame}
    (pending : (slotEffect latest id slot event).pendingFrame = some (some frame)) :
    slot.pendingFrame = some (some frame) ∧ event ≠ .nextFrame id ∧
      (slotEffect latest id slot event).connection.currentView =
        slot.connection.currentView := by
  cases event with
  | updateSubscription other subscription =>
    by_cases same : other = id <;> simp_all [slotEffect, setSubscription]
  | resetStreamEpoch other =>
    have different : other ≠ id := fun same => keeps.1 (by rw [same])
    simp_all [slotEffect]
  | scheduleKeyframe other =>
    by_cases same : other = id <;> simp_all [slotEffect]
  | nextFrame other =>
    by_cases same : other = id <;> simp_all [slotEffect]
  | acknowledge other snapshotId =>
    by_cases same : other = id <;> simp_all [slotEffect, acknowledge_currentView]
  | _ => simp_all [slotEffect]

theorem receive_other {id : ConnectionId} {link : ReplicaLink} {event : EngineEvent}
    (other : event ≠ .nextFrame id) : link.receive id event = link.replica := by
  cases event with
  | nextFrame target =>
    have different : target ≠ id := fun same => other (by rw [same])
    simp [ReplicaLink.receive, different]
  | _ => rfl

/-- One covered step keeps the promise of the waiting frame. -/
theorem pendingAgrees_step {id : ConnectionId} {before after : ReplicaLink}
    {event : EngineEvent} (keeps : KeepsStream id event)
    (covered : CoveredStep id before event) (inv : EngineInv before.engine)
    (step : before.step id event = some after) (pending : PendingAgrees id before) :
    PendingAgrees id after := by
  obtain ⟨engine, stepped, rfl⟩ := Option.map_eq_some_iff.mp step
  intro slot frame found waiting
  have origin := slotStep_of_step stepped found
  cases origin with
  | @built world tick refreshed old refresh found_old =>
    have ready := inv.buildReady refresh found_old
    have built : (refreshed.buildFrame world tick old).1 = some frame := by
      simpa [buildSlot] using waiting
    have covered_build := covered world tick rfl refreshed refresh old found_old
    exact (buildFrame_agrees_iff ready built before.replica).mpr covered_build
  | @changed _ old other found_old =>
    obtain ⟨waiting_old, not_taken, view⟩ := slotEffect_pending keeps waiting
    rw [view]
    show ((before.receive id event).apply frame).view = _
    rw [receive_other not_taken]
    exact pending old frame found_old waiting_old
  | created absent => simp [freshSlot] at waiting

theorem agrees_of_pending {id : ConnectionId} {link : ReplicaLink}
    (pending : PendingAgrees id link) : AgreesOnDelivery id link := by
  intro frame after taken step slot found
  obtain ⟨engine, stepped, rfl⟩ := Option.map_eq_some_iff.mp step
  obtain rfl := Option.some.inj stepped
  have received : link.receive id (.nextFrame id) = link.replica.apply frame := by
    simp [ReplicaLink.receive, taken]
  show (link.receive id (.nextFrame id)).view = _
  rw [received]
  unfold nextFrame at taken found
  cases at_id : link.engine.connections[id]? with
  | none => simp [at_id] at taken
  | some old =>
    simp only [at_id, lookup_insert_self, Option.some.injEq] at taken found
    subst found
    exact pending old frame at_id (Option.join_eq_some_iff.mp taken)

structure LinkInv (id : ConnectionId) (link : ReplicaLink) : Prop where
  engine_inv : EngineInv link.engine
  pending : PendingAgrees id link

/-- Along every run whose builds are covered, a delivered frame makes the client hold
the current view of the server. -/
theorem replica_agreement (config : ProjectionConfig) (policy : ProjectionPolicy)
    (id : ConnectionId) {events : List EngineEvent} {link : ReplicaLink}
    (run : GuardedRun (ReplicaLink.Step id)
      (fun before event => KeepsStream id event ∧ CoveredStep id before event)
      { engine := { config := config, policy := policy } } events link) :
    AgreesOnDelivery id link := by
  have start : LinkInv id { engine := { config := config, policy := policy } } := by
    refine ⟨EngineInv.initial config policy, fun slot frame found => ?_⟩
    simp at found
  have kept : LinkInv id link := by
    refine run.invariant start ?_
    rintro before event after ⟨keeps, covered⟩ step ⟨inv, pending⟩
    refine ⟨?_, pendingAgrees_step keeps covered inv step pending⟩
    obtain ⟨engine, stepped, rfl⟩ := Option.map_eq_some_iff.mp step
    exact inv.step stepped
  exact agrees_of_pending kept.pending

def originLink : ReplicaLink :=
  { engine := { config := originConfig } }

/-- Object 1 is gone again and object 2 has changed. -/
def originWorldAfter : World :=
  ((originWorldBoth.erase 1).2.setProperty 2 [97] (.integer 5)).2

/-- The build is a keyframe, or the client holds exactly the acknowledged view. -/
def Prompt (engine : ProjectionEngine) (world : World) (tick : UInt64) (slot : Slot)
    (replica : ReplicaAccumulator) : Bool :=
  let plan := engine.planFrame world tick slot
  plan.forced || plan.periodic ||
    decide (replica.toList = plan.connection.ackedView.toList.map fun item =>
      (item.1, item.2.entry))

theorem covered_of_prompt {engine : ProjectionEngine} {world : World} {tick : UInt64}
    {slot : Slot} {replica : ReplicaAccumulator}
    (prompt : Prompt engine world tick slot replica = true) :
    Covered engine world tick slot replica := by
  simp only [Prompt, Bool.or_eq_true, decide_eq_true_eq] at prompt
  rcases prompt with (forced | periodic) | same
  · exact Or.inl forced
  · exact Or.inr (Or.inl periodic)
  · refine Or.inr (Or.inr fun wid differs => absurd ?_ differs)
    refine Option.ext fun value => ?_
    have listed := Std.ExtTreeMap.mem_toList_iff_getElem?_eq_some (t := replica) (k := wid)
      (v := value)
    rw [ReplicaAccumulator.view, viewOf, ← listed, same, Option.map_eq_some_iff]
    simp only [List.mem_map, Prod.mk.injEq, Prod.exists]
    constructor
    · rintro ⟨_, tracked, member, rfl, rfl⟩
      exact ⟨tracked, Std.ExtTreeMap.mem_toList_iff_getElem?_eq_some.mp member, rfl⟩
    · rintro ⟨tracked, found, rfl⟩
      exact ⟨wid, tracked, Std.ExtTreeMap.mem_toList_iff_getElem?_eq_some.mpr found, rfl, rfl⟩

/-- The enter of object 1 is delivered but not acknowledged before object 1 leaves. -/
def strandedEvents : List EngineEvent :=
  [.addConnection 7 originArea, .onProjection originWorld 1, .nextFrame 7, .acknowledge 7 1,
    .onProjection originWorldBoth 2, .nextFrame 7, .onProjection originWorldAfter 3]

theorem strandedEvents_keepStream : ∀ event ∈ strandedEvents, KeepsStream 7 event := by
  intro event member
  simp only [strandedEvents, List.mem_cons, List.not_mem_nil, or_false] at member
  rcases member with rfl | rfl | rfl | rfl | rfl | rfl | rfl <;>
    exact ⟨(fun equal => by cases equal), (fun equal => by cases equal)⟩

/-- The same worlds with every frame acknowledged before the next build. -/
def promptEvents : List EngineEvent :=
  [.addConnection 7 originArea, .onProjection originWorld 1, .nextFrame 7, .acknowledge 7 1,
    .onProjection originWorldBoth 2, .nextFrame 7, .acknowledge 7 2,
    .onProjection originWorldAfter 3]

def promptStep (link : ReplicaLink) (event : EngineEvent) : Bool :=
  match event with
  | .onProjection world tick =>
    match link.engine.refreshGlobalView world tick with
    | some refreshed => (refreshed.connections[(7 : ConnectionId)]?).all fun slot =>
        Prompt refreshed world tick slot link.replica
    | none => true
  | .resetStreamEpoch _ | .removeConnection _ => false
  | _ => true

theorem promptStep_sound (link : ReplicaLink) (event : EngineEvent)
    (prompt : promptStep link event = true) : KeepsStream 7 event ∧ CoveredStep 7 link event := by
  refine ⟨⟨?_, ?_⟩, ?_⟩
  · rintro rfl
    cases prompt
  · rintro rfl
    cases prompt
  · rintro world tick rfl refreshed refresh slot found
    simp only [promptStep, refresh, found, Option.all_some] at prompt
    exact covered_of_prompt prompt

theorem replica_agreement_prompt :
    ∃ link, runLabels (ReplicaLink.step 7) originLink promptEvents = some link ∧
      AgreesOnDelivery 7 link := by
  have defined : (runLabels (fun link event =>
      if promptStep link event then link.step 7 event else none) originLink
        promptEvents).isSome = true := by decide +kernel
  obtain ⟨link, computed⟩ := Option.isSome_iff_exists.mp defined
  have run := GuardedRun.of_checked promptStep_sound computed
  exact ⟨link, run.computed, replica_agreement originConfig {} 7 run⟩

/-- Without the condition the client keeps an entity the server dropped. -/
theorem replica_agreement_fails :
    ¬ ∀ (config : ProjectionConfig) (policy : ProjectionPolicy) (id : ConnectionId)
      (events : List EngineEvent) (link : ReplicaLink),
      GuardedRun (ReplicaLink.Step id) (fun _ event => KeepsStream id event)
        { engine := { config := config, policy := policy } } events link →
      AgreesOnDelivery id link := by
  intro claim
  have computed : ((runLabels (ReplicaLink.step 7) originLink strandedEvents).bind fun link =>
      (link.step 7 (.nextFrame 7)).map fun after =>
        ((link.engine.nextFrame 7).1.isSome, (after.replica.view 1).isSome,
          (after.engine.connections[(7 : ConnectionId)]?).map fun slot =>
            (viewOf slot.connection.currentView 1).isSome)) = some (true, true, some false) := by
    decide +kernel
  obtain ⟨link, reached, rest⟩ := Option.bind_eq_some_iff.mp computed
  obtain ⟨after, stepped, shape⟩ := Option.map_eq_some_iff.mp rest
  simp only [Prod.mk.injEq, Option.map_eq_some_iff] at shape
  obtain ⟨taken, client, slot, found, server⟩ := shape
  obtain ⟨frame, waiting⟩ := Option.isSome_iff_exists.mp taken
  have agrees := claim originConfig {} 7 strandedEvents link
    (GuardedRun.of_runLabels reached strandedEvents_keepStream) frame after waiting stepped
    slot found
  rw [agrees, server] at client
  cases client

end GeoWorld.Projection
