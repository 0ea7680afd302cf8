import Mathlib
import GeoWorld.Projection.SlotInvariant

/-!
Which connections the engine has: operations other than those that add and remove a connection
leave them, and loops over connections keep the invariant.
-/

namespace GeoWorld.Projection

open WorldModel Library

variable {engine after : ProjectionEngine}

theorem removeConnections_connections (removed : List ConnectionId) (engine : ProjectionEngine) :
    (removed.foldl (fun engine connection => (engine.removeConnection connection).2)
      engine).connections =
      removed.foldl (fun connections connection => connections.erase connection)
        engine.connections := by
  induction removed generalizing engine with
  | nil => rfl
  | cons connection rest ih => exact ih _

theorem mem_insert_present {connections : Std.ExtTreeMap ConnectionId Slot compare}
    {id : ConnectionId} {slot : Slot} (found : connections[id]? = some slot) (changed : Slot)
    (connection : ConnectionId) :
    connection ∈ connections.insert id changed ↔ connection ∈ connections := by
  rw [Std.ExtTreeMap.mem_insert, Std.LawfulEqCmp.compare_eq_iff_eq]
  refine or_iff_right_of_imp ?_
  rintro rfl
  rw [Std.ExtTreeMap.mem_iff_isSome_getElem?, found]
  rfl

theorem mem_modifyConnection (engine : ProjectionEngine) (id : ConnectionId)
    (change : ConnectionProjection → ConnectionProjection) (connection : ConnectionId) :
    connection ∈ (engine.modifyConnection id change).2.connections ↔
      connection ∈ engine.connections := by
  unfold ProjectionEngine.modifyConnection
  split
  · rfl
  · rename_i slot found
    exact mem_insert_present found _ connection

/-- An operation that neither adds nor removes a connection keeps which there are. -/
theorem mem_connections_step (inv : EngineInv engine) {event : EngineEvent} (stepped : engine.step event = some after)
    (adds : ∀ id subscription, event ≠ .addConnection id subscription)
    (removes : ∀ id, event ≠ .removeConnection id) (connection : ConnectionId) :
    connection ∈ after.connections ↔ connection ∈ engine.connections := by
  cases event with
  | onProjection world tick =>
    obtain ⟨refreshed, refresh, rfl⟩ := Option.map_eq_some_iff.mp stepped
    obtain ⟨-, steps⟩ := refreshGlobalView_step inv.global_inv refresh
    rw [Std.ExtTreeMap.mem_map, steps.connections_eq]
    rfl
  | addConnection id subscription => exact absurd rfl (adds id subscription)
  | removeConnection id => exact absurd rfl (removes id)
  | updateSubscription id subscription =>
    obtain rfl := Option.some.inj stepped
    exact mem_modifyConnection engine id _ connection
  | resetStreamEpoch id =>
    obtain rfl := Option.some.inj stepped
    exact mem_modifyConnection engine id _ connection
  | scheduleKeyframe id =>
    obtain rfl := Option.some.inj stepped
    exact mem_modifyConnection engine id _ connection
  | nextFrame id =>
    obtain rfl := Option.some.inj stepped
    unfold ProjectionEngine.nextFrame
    split
    · rfl
    · rename_i slot found
      exact mem_insert_present found _ connection
  | acknowledge id snapshotId =>
    obtain rfl := Option.some.inj stepped
    unfold ProjectionEngine.acknowledge
    split
    · rfl
    · rename_i slot found
      exact mem_insert_present found _ connection
  | changePolicy change =>
    obtain rfl := Option.some.inj stepped
    exact .rfl
  | setRelevanceFilter filter =>
    obtain rfl := Option.some.inj stepped
    exact .rfl

/-- A loop over connections that runs one operation of the engine for each. -/
theorem engineInv_foldl {operation : ProjectionEngine → ConnectionId → ProjectionEngine}
    {event : ConnectionId → EngineEvent}
    (runs : ∀ engine connection, engine.step (event connection) = some (operation engine connection))
    (connections : List ConnectionId) (inv : EngineInv engine) :
    EngineInv (connections.foldl operation engine) := by
  induction connections generalizing engine with
  | nil => exact inv
  | cons connection rest ih => exact ih (inv.step (runs engine connection))

theorem mem_updateSubscriptions (subscription : Subscription) (connections : List ConnectionId)
    (engine : ProjectionEngine) (connection : ConnectionId) :
    connection ∈ (connections.foldl (fun engine connection =>
      (engine.updateSubscription connection subscription).2) engine).connections ↔
        connection ∈ engine.connections := by
  induction connections generalizing engine with
  | nil => rfl
  | cons first rest ih =>
    exact (ih _).trans (mem_modifyConnection engine first _ connection)

end GeoWorld.Projection
