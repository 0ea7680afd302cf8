import Mathlib
import GeoWorld.Library.Runs
import GeoWorld.Projection.SlotInvariant

/-!
The effect of one public operation on the slot of one connection. Operations
other than `on_projection` either act on the slot, leave it alone, or create it;
`on_projection` builds its frame from the refreshed engine.
-/

namespace GeoWorld.Projection

open WorldModel Library ConnectionProjection ProjectionEngine

/-- The slot of `id` after an operation that is not `on_projection`. -/
def slotEffect (latest : Nat) (id : ConnectionId) (slot : Slot) : EngineEvent → Slot
  | .updateSubscription other subscription =>
    if other = id then
      { slot with connection := slot.connection.setSubscription subscription }
    else slot
  | .resetStreamEpoch other =>
    if other = id then
      { slot with connection := slot.connection.resetEpoch .reconnect latest }
    else slot
  | .scheduleKeyframe other =>
    if other = id then
      { slot with connection := { slot.connection with needsKeyframe := true } }
    else slot
  | .nextFrame other => if other = id then { slot with pendingFrame := none } else slot
  | .acknowledge other snapshotId =>
    if other = id then
      { slot with connection := (slot.connection.acknowledge snapshotId).2 }
    else slot
  | _ => slot

/-- What the four operations on a connection keep, every such operation keeps. -/
theorem slotEffect_keeps {holds : ConnectionProjection → Prop} {latest : Nat} {id : ConnectionId}
    {slot : Slot} (event : EngineEvent)
    (subscribes : ∀ subscription, holds (slot.connection.setSubscription subscription))
    (resets : holds (slot.connection.resetEpoch .reconnect latest))
    (schedules : holds { slot.connection with needsKeyframe := true })
    (acknowledges : ∀ snapshotId, holds (slot.connection.acknowledge snapshotId).2)
    (initially : holds slot.connection) :
    holds (slotEffect latest id slot event).connection := by
  cases event with
  | updateSubscription other subscription =>
    simp only [slotEffect]
    split
    · exact subscribes subscription
    · exact initially
  | resetStreamEpoch other =>
    simp only [slotEffect]
    split
    · exact resets
    · exact initially
  | scheduleKeyframe other =>
    simp only [slotEffect]
    split
    · exact schedules
    · exact initially
  | nextFrame other =>
    simp only [slotEffect]
    split <;> exact initially
  | acknowledge other snapshotId =>
    simp only [slotEffect]
    split
    · exact acknowledges snapshotId
    · exact initially
  | _ => exact initially

/-- The slot `add_connection` creates. -/
def freshSlot (id : ConnectionId) (subscription : Subscription) : Slot :=
  { connection := ({ id := id } : ConnectionProjection).setSubscription subscription }

/-- How the slot of `id` can come about in one operation. -/
inductive SlotStep (engine : ProjectionEngine) (id : ConnectionId) :
    EngineEvent → Slot → Prop where
  | built {world : World} {tick : UInt64} {refreshed : ProjectionEngine} {slot : Slot}
      (refresh : engine.refreshGlobalView world tick = some refreshed)
      (found : refreshed.connections[id]? = some slot) :
      SlotStep engine id (.onProjection world tick) (refreshed.buildSlot world tick slot)
  | changed {event : EngineEvent} {slot : Slot}
      (other : ∀ world tick, event ≠ .onProjection world tick)
      (found : engine.connections[id]? = some slot) :
      SlotStep engine id event (slotEffect engine.latestSnapshotId id slot event)
  | created {subscription : Subscription} (absent : engine.connections[id]? = none) :
      SlotStep engine id (.addConnection id subscription) (freshSlot id subscription)

theorem modifyConnection_slot {engine : ProjectionEngine} {other id : ConnectionId}
    {change : ConnectionProjection → ConnectionProjection} {slot : Slot}
    (found : (engine.modifyConnection other change).2.connections[id]? = some slot) :
    ∃ old, engine.connections[id]? = some old ∧
      slot = if other = id then { old with connection := change old.connection } else old := by
  unfold modifyConnection at found
  cases target : engine.connections[other]? with
  | none =>
    simp only [target] at found
    by_cases same : other = id
    · rw [same, found] at target
      cases target
    · exact ⟨slot, found, by rw [if_neg same]⟩
  | some old =>
    simp only [target, lookup_insert] at found
    by_cases same : id = other
    · subst same
      rw [if_pos rfl] at found
      exact ⟨old, target, by rw [if_pos rfl]; exact (Option.some.inj found).symm⟩
    · rw [if_neg same] at found
      exact ⟨slot, found, by rw [if_neg (Ne.symm same)]⟩

/-- Every slot after an operation came about in one of these ways. -/
theorem slotStep_of_step {engine after : ProjectionEngine} {event : EngineEvent}
    (step : engine.step event = some after) {id : ConnectionId} {slot : Slot}
    (found : after.connections[id]? = some slot) : SlotStep engine id event slot := by
  cases event with
  | onProjection world tick =>
    obtain ⟨refreshed, refresh, rfl⟩ := Option.map_eq_some_iff.mp step
    simp only [Std.ExtTreeMap.getElem?_map] at found
    obtain ⟨old, found_old, rfl⟩ := Option.map_eq_some_iff.mp found
    exact .built refresh found_old
  | addConnection other subscription =>
    obtain rfl := Option.some.inj step
    unfold addConnection at found
    split at found
    · exact .changed (by simp) found
    · next fresh =>
      simp only [lookup_insert] at found
      split at found
      · next same =>
        subst same
        obtain rfl := Option.some.inj found
        refine .created ?_
        simp only [Bool.or_eq_true, not_or, Bool.not_eq_true] at fresh
        have absent := fresh.2
        rw [Std.ExtTreeMap.contains_eq_isSome_getElem?] at absent
        exact Option.isSome_eq_false_iff.mp absent |> Option.isNone_iff_eq_none.mp
      · exact .changed (by simp) found
  | removeConnection other =>
    obtain rfl := Option.some.inj step
    simp only [removeConnection, lookup_erase] at found
    split at found
    · cases found
    · exact .changed (by simp) found
  | updateSubscription other subscription =>
    obtain rfl := Option.some.inj step
    obtain ⟨old, found_old, rfl⟩ := modifyConnection_slot found
    exact .changed (by simp) found_old
  | resetStreamEpoch other =>
    obtain rfl := Option.some.inj step
    obtain ⟨old, found_old, rfl⟩ := modifyConnection_slot found
    exact .changed (by simp) found_old
  | scheduleKeyframe other =>
    obtain rfl := Option.some.inj step
    obtain ⟨old, found_old, rfl⟩ := modifyConnection_slot found
    exact .changed (by simp) found_old
  | nextFrame other =>
    obtain rfl := Option.some.inj step
    unfold nextFrame at found
    cases target : engine.connections[other]? with
    | none =>
      simp only [target] at found
      have effect : slot = slotEffect engine.latestSnapshotId id slot (.nextFrame other) := by
        by_cases same : other = id
        · rw [same, found] at target
          cases target
        · simp [slotEffect, same]
      rw [effect]
      exact .changed (by simp) found
    | some old =>
      simp only [target, lookup_insert] at found
      by_cases same : id = other
      · subst same
        rw [if_pos rfl] at found
        obtain rfl := Option.some.inj found
        have effect : { old with pendingFrame := none } =
            slotEffect engine.latestSnapshotId id old (.nextFrame id) := by simp [slotEffect]
        rw [effect]
        exact .changed (by simp) target
      · rw [if_neg same] at found
        have effect : slot = slotEffect engine.latestSnapshotId id slot (.nextFrame other) := by
          simp [slotEffect, Ne.symm same]
        rw [effect]
        exact .changed (by simp) found
  | acknowledge other snapshotId =>
    obtain rfl := Option.some.inj step
    have modified : (engine.acknowledge other snapshotId).2.connections =
        (engine.modifyConnection other fun connection =>
          (connection.acknowledge snapshotId).2).2.connections := by
      unfold ProjectionEngine.acknowledge modifyConnection
      cases engine.connections[other]? <;> rfl
    rw [modified] at found
    obtain ⟨old, found_old, rfl⟩ := modifyConnection_slot found
    exact .changed (by simp) found_old
  | changePolicy change =>
    obtain rfl := Option.some.inj step
    exact .changed (by simp) found
  | setRelevanceFilter filter =>
    obtain rfl := Option.some.inj step
    exact .changed (by simp) found

/-- Only `on_projection` hands out a snapshot id. -/
theorem latestSnapshotId_of_step {engine after : ProjectionEngine} {event : EngineEvent}
    (step : engine.step event = some after)
    (other : ∀ world tick, event ≠ .onProjection world tick) :
    after.latestSnapshotId = engine.latestSnapshotId := by
  have modified : ∀ id change,
      (engine.modifyConnection id change).2.latestSnapshotId = engine.latestSnapshotId := by
    intro id change
    unfold modifyConnection
    cases engine.connections[id]? <;> rfl
  cases event with
  | onProjection world tick => exact absurd rfl (other world tick)
  | addConnection id subscription =>
    obtain rfl := Option.some.inj step
    unfold addConnection
    split <;> rfl
  | nextFrame id =>
    obtain rfl := Option.some.inj step
    unfold nextFrame
    cases engine.connections[id]? <;> rfl
  | acknowledge id snapshotId =>
    obtain rfl := Option.some.inj step
    unfold ProjectionEngine.acknowledge
    cases engine.connections[id]? <;> rfl
  | updateSubscription id subscription =>
    obtain rfl := Option.some.inj step
    exact modified id _
  | resetStreamEpoch id =>
    obtain rfl := Option.some.inj step
    exact modified id _
  | scheduleKeyframe id =>
    obtain rfl := Option.some.inj step
    exact modified id _
  | removeConnection id =>
    obtain rfl := Option.some.inj step
    rfl
  | changePolicy change =>
    obtain rfl := Option.some.inj step
    rfl
  | setRelevanceFilter filter =>
    obtain rfl := Option.some.inj step
    rfl

theorem latestSnapshotId_of_projection {engine after : ProjectionEngine} {world : World}
    {tick : UInt64} (inv : EngineInv engine)
    (step : engine.step (.onProjection world tick) = some after) :
    after.latestSnapshotId = engine.latestSnapshotId + 1 := by
  obtain ⟨refreshed, refresh, rfl⟩ := Option.map_eq_some_iff.mp step
  obtain ⟨-, steps⟩ := refreshGlobalView_step inv.global_inv refresh
  exact steps.snapshot_eq

end GeoWorld.Projection
