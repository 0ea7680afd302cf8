import Mathlib
import GeoWorld.Projection.KeyframeOutcome

/-!
The invariant of the engine over every run of its public operations. The global
part: the index is consistent, indexed ids are in the global view, stored hashes
are the hashes of the projections. Each slot: the invariant of its connection,
and a cached visible set that is still usable names only known ids.
-/

namespace GeoWorld.Projection

open WorldModel Library ConnectionProjection ProjectionEngine

structure GlobalInv (engine : ProjectionEngine) : Prop where
  index_consistent : engine.spatial.Consistent
  index_known : ∀ (wid : WorldId) (cell : CellKey),
    engine.spatial.locations[wid]? = some cell → wid ∈ engine.globalView
  hashes : HashesMatch engine

/-- What the global phase of a tick leaves alone, and how the global view can change:
as long as the spatial revision stays, ids only join it. -/
structure Refreshes (before after : ProjectionEngine) : Prop where
  config_eq : after.config = before.config
  policy_eq : after.policy = before.policy
  filter_eq : after.relevanceFilter = before.relevanceFilter
  connections_eq : after.connections = before.connections
  snapshot_eq : after.latestSnapshotId = before.latestSnapshotId
  revision_le : before.spatialRevision ≤ after.spatialRevision
  grows : after.spatialRevision = before.spatialRevision →
    ∀ wid ∈ before.globalView, wid ∈ after.globalView

namespace Refreshes

theorem refl (engine : ProjectionEngine) : Refreshes engine engine :=
  ⟨rfl, rfl, rfl, rfl, rfl, le_rfl, fun _ _ member => member⟩

theorem trans {first second third : ProjectionEngine} (left : Refreshes first second)
    (right : Refreshes second third) : Refreshes first third where
  config_eq := right.config_eq.trans left.config_eq
  policy_eq := right.policy_eq.trans left.policy_eq
  filter_eq := right.filter_eq.trans left.filter_eq
  connections_eq := right.connections_eq.trans left.connections_eq
  snapshot_eq := right.snapshot_eq.trans left.snapshot_eq
  revision_le := left.revision_le.trans right.revision_le
  grows same wid member := by
    have squeezed := left.revision_le
    have squeezed' := right.revision_le
    exact right.grows (by omega) wid (left.grows (by omega) wid member)

end Refreshes

section Refresh

variable {engine : ProjectionEngine}

theorem syncScanEntry_frame (engine : ProjectionEngine) (object : WorldObject)
    (cacheIndex : Option Nat) :
    ∃ scanCache, engine.syncScanEntry object cacheIndex = { engine with scanCache := scanCache } := by
  unfold syncScanEntry
  cases cacheIndex with
  | none => exact ⟨engine.scanCache, rfl⟩
  | some index => exact ⟨_, rfl⟩

theorem mergeDirty_step (inv : GlobalInv engine) (changed : List (WorldId × ProjectedEntity))
    (dirty : DirtyObject) :
    GlobalInv (mergeDirty (engine, changed) dirty).1 ∧
      Refreshes engine (mergeDirty (engine, changed) dirty).1 := by
  have known_insert : ∀ (state : EntityState) (wid : WorldId), wid ∈ engine.globalView →
      wid ∈ engine.globalView.insert dirty.object.id state := by
    intro state wid member
    rw [Std.ExtTreeMap.mem_insert]
    exact Or.inr member
  unfold mergeDirty
  simp only
  cases unchanged : (engine.globalView[dirty.object.id]?).filter
      (·.hash = projectedEntityHash (engine.policy.project dirty.object)) with
  | some state =>
    obtain ⟨scanCache, synced⟩ := syncScanEntry_frame { engine with
      globalView := engine.globalView.insert dirty.object.id { state with
        sourceRevision := dirty.object.revision
        sourceVersion := dirty.object.version
        policyVersion := engine.policy.version } } dirty.object dirty.cacheIndex
    simp only [synced]
    obtain ⟨existing, -⟩ := Option.filter_eq_some_iff.mp unchanged
    refine ⟨⟨inv.index_consistent, ?_, ?_⟩, ⟨rfl, rfl, rfl, rfl, rfl, le_rfl, ?_⟩⟩
    · exact fun wid cell located => known_insert _ wid (inv.index_known wid cell located)
    · intro wid other found
      rw [lookup_insert] at found
      split at found
      · obtain rfl := Option.some.inj found
        exact inv.hashes _ state existing
      · exact inv.hashes wid other found
    · exact fun _ wid member => known_insert _ wid member
  | none =>
    simp only
    by_cases moved : dirty.moved = true
    · simp only [moved, if_true]
      have written : ∀ (state : EntityState) (wid : WorldId) (cell : CellKey),
          (engine.spatial.upsert engine.config.geometry dirty.object.id
            (engine.config.geometry.ecefToEnu dirty.object.position)).locations[wid]? =
              some cell → wid ∈ engine.globalView.insert dirty.object.id state := by
        intro state wid cell located
        rw [DynamicCellIndex.upsert_locations] at located
        split at located
        · next here =>
          rw [Std.ExtTreeMap.mem_insert, Std.LawfulEqCmp.compare_eq_iff_eq]
          exact Or.inl here.1.symm
        · exact known_insert _ wid (inv.index_known wid cell located)
      have hash_insert : ∀ (state : EntityState), state.hash = projectedEntityHash state.projected →
          ∀ (wid : WorldId) (other : EntityState),
            (engine.globalView.insert dirty.object.id state)[wid]? = some other →
              other.hash = projectedEntityHash other.projected := by
        intro state own wid other found
        rw [lookup_insert] at found
        split at found
        · obtain rfl := Option.some.inj found
          exact own
        · exact inv.hashes wid other found
      cases dirty.cacheIndex with
      | none =>
        exact ⟨⟨DynamicCellIndex.upsert_consistent _ inv.index_consistent _ _, written _,
          hash_insert _ rfl⟩, ⟨rfl, rfl, rfl, rfl, rfl, Nat.le_succ _,
          fun _ wid member => known_insert _ wid member⟩⟩
      | some index =>
        exact ⟨⟨DynamicCellIndex.upsert_consistent _ inv.index_consistent _ _, written _,
          hash_insert _ rfl⟩, ⟨rfl, rfl, rfl, rfl, rfl, Nat.le_succ _,
          fun _ wid member => known_insert _ wid member⟩⟩
    · simp only [moved, Bool.false_eq_true, if_false]
      have hash_insert : ∀ (state : EntityState), state.hash = projectedEntityHash state.projected →
          ∀ (wid : WorldId) (other : EntityState),
            (engine.globalView.insert dirty.object.id state)[wid]? = some other →
              other.hash = projectedEntityHash other.projected := by
        intro state own wid other found
        rw [lookup_insert] at found
        split at found
        · obtain rfl := Option.some.inj found
          exact own
        · exact inv.hashes wid other found
      cases dirty.cacheIndex with
      | none =>
        exact ⟨⟨inv.index_consistent,
          fun wid cell located => known_insert _ wid (inv.index_known wid cell located),
          hash_insert _ rfl⟩, ⟨rfl, rfl, rfl, rfl, rfl, le_rfl,
          fun _ wid member => known_insert _ wid member⟩⟩
      | some index =>
        exact ⟨⟨inv.index_consistent,
          fun wid cell located => known_insert _ wid (inv.index_known wid cell located),
          hash_insert _ rfl⟩, ⟨rfl, rfl, rfl, rfl, rfl, le_rfl,
          fun _ wid member => known_insert _ wid member⟩⟩

theorem foldl_mergeDirty (inv : GlobalInv engine) (dirty : List DirtyObject)
    (changed : List (WorldId × ProjectedEntity)) :
    GlobalInv (dirty.foldl mergeDirty (engine, changed)).1 ∧
      Refreshes engine (dirty.foldl mergeDirty (engine, changed)).1 := by
  induction dirty generalizing engine changed with
  | nil => exact ⟨inv, Refreshes.refl engine⟩
  | cons head rest ih =>
    obtain ⟨inv', step⟩ := mergeDirty_step inv changed head
    obtain ⟨inv'', steps⟩ := ih inv' (mergeDirty (engine, changed) head).2
    exact ⟨inv'', step.trans steps⟩

theorem removeStale_step (inv : GlobalInv engine) (wid : WorldId) :
    GlobalInv (engine.removeStale wid) ∧ Refreshes engine (engine.removeStale wid) := by
  refine ⟨⟨DynamicCellIndex.erase_consistent inv.index_consistent wid, ?_, ?_⟩,
    ⟨rfl, rfl, rfl, rfl, rfl, Nat.le_succ _, ?_⟩⟩
  · intro other cell located
    have located' : (engine.spatial.erase wid).locations[other]? = some cell := located
    rw [DynamicCellIndex.erase_locations] at located'
    split at located'
    · cases located'
    · next different =>
      have known := inv.index_known other cell located'
      rw [Std.ExtTreeMap.mem_iff_isSome_getElem?] at known ⊢
      have kept : (engine.removeStale wid).globalView[other]? = engine.globalView[other]? :=
        lookup_erase_ne _ different
      rw [kept]
      exact known
  · intro other state found
    have found' : (engine.globalView.erase wid)[other]? = some state := found
    rw [lookup_erase] at found'
    split at found'
    · cases found'
    · exact inv.hashes other state found'
  · intro same
    exact absurd same (Nat.succ_ne_self _)

theorem foldl_removeStale (inv : GlobalInv engine) (stale : List WorldId) :
    GlobalInv (stale.foldl removeStale engine) ∧
      Refreshes engine (stale.foldl removeStale engine) := by
  induction stale generalizing engine with
  | nil => exact ⟨inv, Refreshes.refl engine⟩
  | cons head rest ih =>
    obtain ⟨inv', step⟩ := removeStale_step inv head
    obtain ⟨inv'', steps⟩ := ih inv'
    exact ⟨inv'', step.trans steps⟩

theorem sweepStale_step (inv : GlobalInv engine) (world : World) :
    GlobalInv (engine.sweepStale world).1 ∧ Refreshes engine (engine.sweepStale world).1 := by
  unfold sweepStale
  split
  · have inv' : GlobalInv { engine with seenEraseRevision := world.eraseRevision } :=
      ⟨inv.index_consistent, inv.index_known, inv.hashes⟩
    obtain ⟨swept, steps⟩ := foldl_removeStale inv'
      (ProjectionEngine.staleWids { engine with seenEraseRevision := world.eraseRevision } world)
    exact ⟨⟨swept.index_consistent, swept.index_known, swept.hashes⟩,
      ⟨steps.config_eq, steps.policy_eq, steps.filter_eq, steps.connections_eq,
        steps.snapshot_eq, steps.revision_le, steps.grows⟩⟩
  · exact ⟨inv, Refreshes.refl engine⟩

/-- The engine right after its snapshot counter was advanced. -/
def ProjectionEngine.tickStart (engine : ProjectionEngine) (tick : UInt64) :
    ProjectionEngine :=
  { engine with
    latestSnapshotId := engine.latestSnapshotId + 1
    lastProcessedTick := tick }

theorem refreshWorldSnapshot_frame {world : World} {refreshed : ProjectionEngine}
    (refresh : engine.refreshWorldSnapshot world = some refreshed) :
    ∃ pointers erase storage, refreshed = { engine with
      worldSnapshot := pointers
      worldSnapshotEraseRevision := erase
      worldSnapshotStorageRevision := storage } := by
  unfold refreshWorldSnapshot at refresh
  split at refresh
  · obtain ⟨pointers, -, rfl⟩ := Option.map_eq_some_iff.mp refresh
    exact ⟨_, _, _, rfl⟩
  · obtain rfl := Option.some.inj refresh
    exact ⟨_, _, _, rfl⟩

theorem refreshScanCache_frame (engine : ProjectionEngine) :
    ∃ scanCache dirty, engine.refreshScanCache = { engine with
      scanCache := scanCache, scanCacheDirty := dirty } := by
  unfold refreshScanCache
  split
  · exact ⟨_, _, rfl⟩
  · exact ⟨engine.scanCache, engine.scanCacheDirty, rfl⟩

theorem refreshGlobalView_step (inv : GlobalInv engine) {world : World} {tick : UInt64}
    {refreshed : ProjectionEngine}
    (refresh : engine.refreshGlobalView world tick = some refreshed) :
    GlobalInv refreshed ∧ Refreshes (engine.tickStart tick) refreshed := by
  simp only [refreshGlobalView, Option.bind_eq_bind, Option.bind_eq_some_iff] at refresh
  obtain ⟨snapshotted, snapshot, objects, -, result⟩ := refresh
  obtain ⟨pointers, erase, storage, rfl⟩ := refreshWorldSnapshot_frame snapshot
  obtain ⟨scanCache, dirtyFlag, cached⟩ := refreshScanCache_frame
    { engine.tickStart tick with
      worldSnapshot := pointers
      worldSnapshotEraseRevision := erase
      worldSnapshotStorageRevision := storage }
  simp only [tickStart] at cached
  rw [cached] at result
  simp only at result
  have start : GlobalInv { engine.tickStart tick with
      worldSnapshot := pointers
      worldSnapshotEraseRevision := erase
      worldSnapshotStorageRevision := storage
      scanCache := scanCache
      scanCacheDirty := dirtyFlag } := ⟨inv.index_consistent, inv.index_known, inv.hashes⟩
  obtain ⟨merged, merge_steps⟩ := foldl_mergeDirty start
    (scanDirty engine.policy.version objects 0 scanCache) []
  simp only [tickStart] at merged merge_steps
  generalize (scanDirty engine.policy.version objects 0 scanCache).foldl mergeDirty _ = outcome
    at result merged merge_steps
  obtain ⟨merged_engine, changed⟩ := outcome
  simp only [Option.some.injEq] at result merged merge_steps
  have retick : GlobalInv { merged_engine with
      tickChangedWids := (changed.insertionSort fun lhs rhs => lhs.1 ≤ rhs.1).map Prod.fst } :=
    ⟨merged.index_consistent, merged.index_known, merged.hashes⟩
  obtain ⟨swept, sweep_steps⟩ := sweepStale_step retick world
  subst result
  refine ⟨⟨swept.index_consistent, swept.index_known, swept.hashes⟩, ?_⟩
  exact ⟨sweep_steps.config_eq.trans merge_steps.config_eq,
    sweep_steps.policy_eq.trans merge_steps.policy_eq,
    sweep_steps.filter_eq.trans merge_steps.filter_eq,
    sweep_steps.connections_eq.trans merge_steps.connections_eq,
    sweep_steps.snapshot_eq.trans merge_steps.snapshot_eq,
    merge_steps.revision_le.trans sweep_steps.revision_le,
    fun same wid member => by
      have first := merge_steps.revision_le
      have second := sweep_steps.revision_le
      simp only [pushHistory, tickStart] at same first second
      exact sweep_steps.grows (by simp only; omega) wid
        (merge_steps.grows (by simp only; omega) wid member)⟩

end Refresh

end GeoWorld.Projection
