import Mathlib
import GeoWorld.Library.Runs
import GeoWorld.WorldModel.WorldInvariant
import GeoWorld.Projection.IncrementalView

/-!
Incremental projection against full re-projection. One world and one engine run
together: world operations, policy changes and projection ticks in any order. A tick
reuses a stored projection when its baseline or its hash looks unchanged, and it sweeps
removed ids only when the erase counter moved; the result is the full re-projection
exactly when both shortcuts are right.
-/

namespace GeoWorld.Projection

open WorldModel Library ProjectionEngine

section Snapshot

variable {world : World} {engine : ProjectionEngine}

namespace ProjectionEngine

/-- The counters recorded with the pointer snapshot. -/
def snapshotStamp (engine : ProjectionEngine) : ℕ ×ₗ ℕ ×ₗ ℕ :=
  toLex (engine.worldSnapshotStorageRevision,
    toLex (engine.worldSnapshotEraseRevision, engine.worldSnapshot.length))

/-- The engine with an up-to-date pointer snapshot. -/
def withSnapshot (engine : ProjectionEngine) (world : World) : ProjectionEngine :=
  { engine with
    worldSnapshot := world.addresses
    worldSnapshotEraseRevision := world.eraseRevision
    worldSnapshotStorageRevision := world.storageRevision }

/-- The engine when the dirty scan starts. -/
def prepared (engine : ProjectionEngine) (world : World) (tick : UInt64) : ProjectionEngine :=
  ((engine.tickStart tick).withSnapshot world).refreshScanCache

end ProjectionEngine

/-- The pointer snapshot is never newer than the world, and as new only when it is exact. -/
structure SnapshotInv (world : World) (engine : ProjectionEngine) : Prop where
  not_ahead : engine.snapshotStamp ≤ world.stamp
  current : engine.snapshotStamp = world.stamp → engine.worldSnapshot = world.addresses

theorem World.addresses_length (world : World) : world.addresses.length = world.size := by
  rw [World.addresses, List.length_map, Std.ExtTreeMap.length_toList, World.size]

theorem snapshotInv_withSnapshot (world : World) (engine : ProjectionEngine) :
    SnapshotInv world (engine.withSnapshot world) := by
  have same : (engine.withSnapshot world).snapshotStamp = world.stamp := by
    simp only [snapshotStamp, withSnapshot, World.stamp, World.addresses_length]
  exact ⟨same.le, fun _ => rfl⟩

theorem SnapshotInv.advance (inv : SnapshotInv world engine) {after : World}
    (advances : World.Advances world after) : SnapshotInv after engine := by
  obtain grown | ⟨same, table⟩ := advances
  · exact ⟨inv.not_ahead.trans grown.le,
      fun equal => absurd (equal ▸ inv.not_ahead) (not_le.mpr grown)⟩
  · refine ⟨same ▸ inv.not_ahead, fun equal => ?_⟩
    rw [inv.current (equal.trans same), World.addresses_eq, World.addresses_eq, table]

/-- The pointers are already in the order of their ids. -/
theorem sortedAddresses_eq (inv : WorldInv world) :
    sortedAddresses world = some world.addresses := by
  have read : ∀ items : List (WorldId × ObjectEntry), items ⊆ world.objects.toList →
      (items.map fun entry => entry.2.object).mapM (fun address =>
        (world.ownedObject address).map fun object => (address, object.id)) =
          some (items.map fun entry => (entry.2.object, entry.1)) := by
    intro items
    induction items with
    | nil => exact fun _ => rfl
    | cons item rest ih =>
      intro subset
      obtain ⟨object, owned, same⟩ := World.ownedObject_entry inv (subset (List.mem_cons_self))
      simp [owned, same, ih fun other later => subset (by simp [later])]
  have ascending : (world.objects.toList.map fun entry => (entry.2.object, entry.1)).Pairwise
      fun lhs rhs => lhs.2 ≤ rhs.2 := by
    refine List.pairwise_map.mpr (Std.ExtTreeMap.ordered_keys_toList.imp fun before => ?_)
    exact UInt64.le_of_lt (Std.compare_eq_lt.mp before)
  rw [sortedAddresses, World.addresses, read _ (List.Subset.refl _), Option.map_some,
    ascending.insertionSort_eq, List.map_map]
  rfl

theorem refreshWorldSnapshot_eq (inv : WorldInv world) (snapshot : SnapshotInv world engine) :
    engine.refreshWorldSnapshot world = some (engine.withSnapshot world) := by
  unfold refreshWorldSnapshot
  split
  · rw [sortedAddresses_eq inv]
    rfl
  · next fresh =>
    push Not at fresh
    obtain ⟨length, erase, storage⟩ := fresh
    have same : engine.snapshotStamp = world.stamp := by
      simp only [snapshotStamp, World.stamp, length, erase, storage]
    rw [withSnapshot, ← snapshot.current same, ← erase, ← storage]

end Snapshot

/-- What holds between ticks of a world and its engine. -/
structure SceneInv (world : World) (engine : ProjectionEngine) : Prop where
  world_inv : WorldInv world
  snapshot : SnapshotInv world engine
  view : ViewSound engine
  cache : engine.scanCacheDirty = false → CacheSound engine

/-- The tick takes the stored state of the object for its projection: either the baseline
is unchanged or the new projection has the stored hash. -/
def Reuses (engine : ProjectionEngine) (object : WorldObject) (state : EntityState) : Prop :=
  ScanEntryUnchanged (scanEntryOf object.id state) engine.policy.version object ∨
    state.hash = projectedEntityHash (engine.policy.project object)

instance (engine : ProjectionEngine) (object : WorldObject) (state : EntityState) :
    Decidable (Reuses engine object state) :=
  inferInstanceAs (Decidable (_ ∨ _))

/-- The shortcuts of the next tick are right: a reused projection is the current one, and
if the erase counter did not move then nothing left the world. -/
structure BaselineFaithful (engine : ProjectionEngine) (world : World) : Prop where
  reused : ∀ (id : WorldId) (state : EntityState) (object : WorldObject),
    engine.globalView[id]? = some state → world.find id = some object →
      Reuses engine object state → state.projected = engine.policy.project object
  gone : world.eraseRevision = engine.seenEraseRevision → ∀ id ∈ engine.globalView,
    (world.find id).isSome

/-- The global part of the engine after a tick is the full re-projection of the world, and
the changed ids are those whose hash is new. -/
structure ProjectionExact (world : World) (before after : ProjectionEngine) : Prop where
  view : ∀ id : WorldId, (after.globalView[id]?).map (fun state => (state.projected, state.hash)) =
    (world.find id).map fun object =>
      (before.policy.project object, projectedEntityHash (before.policy.project object))
  changed_ascending : after.tickChangedWids.Pairwise (· < ·)
  changed : ∀ id : WorldId, id ∈ after.tickChangedWids ↔ ∃ object, world.find id = some object ∧
    ∀ state, before.globalView[id]? = some state →
      state.hash ≠ projectedEntityHash (before.policy.project object)
  index : ∀ (id : WorldId) (cell : CellKey), id ∈ after.spatial.membersOf cell ↔
    ∃ object, world.find id = some object ∧ before.config.geometry.cellFor
      (before.config.geometry.ecefToEnu object.position) = cell

section Tick

variable {world : World} {engine : ProjectionEngine} {tick : UInt64}

theorem cacheSound_refreshScanCache (cache : engine.scanCacheDirty = false → CacheSound engine) :
    CacheSound engine.refreshScanCache ∧ engine.refreshScanCache.scanCacheDirty = false := by
  unfold refreshScanCache
  split
  · refine ⟨⟨?_, ?_, fun _ id member => ?_⟩, rfl⟩
    · refine List.pairwise_map.mpr (Std.ExtTreeMap.ordered_keys_toList.imp fun before => ?_)
      exact Std.compare_eq_lt.mp before
    · intro entry member
      obtain ⟨item, listed, rfl⟩ := List.mem_map.mp member
      exact ⟨item.2, Std.ExtTreeMap.mem_toList_iff_getElem?_eq_some.mp listed, rfl⟩
    · rw [Std.ExtTreeMap.mem_iff_isSome_getElem?] at member
      obtain ⟨state, known⟩ := Option.isSome_iff_exists.mp member
      refine ⟨scanEntryOf id state, List.mem_map.mpr ⟨(id, state), ?_, rfl⟩, rfl⟩
      exact Std.ExtTreeMap.mem_toList_iff_getElem?_eq_some.mpr known
  · next clean =>
    have clean' : engine.scanCacheDirty = false := by simpa using clean
    exact ⟨cache clean', clean'⟩

/-- The parts of the engine the preparation leaves alone. -/
theorem prepared_frame (engine : ProjectionEngine) (world : World) (tick : UInt64) :
    ∃ scanCache scanCacheDirty, engine.prepared world tick =
      { (engine.tickStart tick).withSnapshot world with
        scanCache := scanCache, scanCacheDirty := scanCacheDirty } :=
  refreshScanCache_frame _

theorem prepared_sound (scene : SceneInv world engine) (tick : UInt64) :
    ViewSound (engine.prepared world tick) ∧ CacheSound (engine.prepared world tick) ∧
      (engine.prepared world tick).scanCacheDirty = false := by
  obtain ⟨scanCache, scanCacheDirty, frame⟩ := prepared_frame engine world tick
  have view := scene.view
  refine ⟨?_, cacheSound_refreshScanCache fun clean => ?_⟩
  · rw [frame]
    exact ⟨view.consistent, view.hashes, view.enu_eq, view.position_eq, view.located⟩
  · have cache := scene.cache clean
    exact ⟨cache.ascending, cache.mirrors, cache.covers⟩

/-- With a complete cache the dirty check of an object looks at its state in the view. -/
theorem dirtyOf_view (cache : CacheSound engine) (clean : engine.scanCacheDirty = false)
    (policyVersion : Nat) (object : WorldObject) :
    dirtyOf policyVersion engine.scanCache object =
      match engine.globalView[object.id]? with
      | none => some ⟨object, true, none⟩
      | some state =>
        if ScanEntryUnchanged (scanEntryOf object.id state) policyVersion object then none
        else some ⟨object, decide (state.sourcePosition ≠ object.position),
          some (engine.scanCache.findIdx (·.wid = object.id))⟩ := by
  unfold dirtyOf
  cases known : engine.globalView[object.id]? with
  | none =>
    have absent : engine.scanCache.find? (·.wid = object.id) = none := by
      refine List.find?_eq_none.mpr fun entry member same => ?_
      obtain ⟨state, found, -⟩ := cache.mirrors entry member
      rw [of_decide_eq_true same, known] at found
      cases found
    rw [absent]
  | some state =>
    have member : object.id ∈ engine.globalView := by
      rw [Std.ExtTreeMap.mem_iff_isSome_getElem?, known]
      rfl
    obtain ⟨entry, listed, same⟩ := cache.covers clean object.id member
    cases found : engine.scanCache.find? (·.wid = object.id) with
    | none => exact absurd (decide_eq_true same) (List.find?_eq_none.mp found entry listed)
    | some first =>
      obtain ⟨state', known', baseline⟩ := cache.mirrors first (List.mem_of_find?_eq_some found)
      have at_id : first.wid = object.id := by simpa using List.find?_some found
      rw [at_id, known] at known'
      obtain rfl := Option.some.inj known'
      rw [baseline, at_id]
      rfl

theorem dirtyReady_of_dirtyOf (scene : SceneInv world engine)
    (faithful : BaselineFaithful engine world) {object : WorldObject} {dirty : DirtyObject}
    (found : world.find object.id = some object)
    (check : dirtyOf engine.policy.version (engine.prepared world tick).scanCache object =
      some dirty) : DirtyReady (engine.prepared world tick) dirty := by
  obtain ⟨view, cache, clean⟩ := prepared_sound scene tick
  obtain ⟨scanCache, scanCacheDirty, frame⟩ := prepared_frame engine world tick
  have same_view : (engine.prepared world tick).globalView = engine.globalView := by rw [frame]; rfl
  have same_policy : (engine.prepared world tick).policy = engine.policy := by rw [frame]; rfl
  have same_object := dirtyOf_object check
  refine ⟨?_, ?_, ?_, ?_⟩
  · rw [same_object]
    exact World.find_valid scene.world_inv found
  · intro state known hash
    rw [same_object, same_view] at known
    rw [same_object, same_policy] at hash ⊢
    exact faithful.reused object.id state object known found (.inr hash)
  all_goals
    unfold dirtyOf at check
    split at check
  · next absent =>
    intro _
    obtain rfl := Option.some.inj check
    exact ⟨rfl, fun entry member same => List.find?_eq_none.mp absent entry member (decide_eq_true same)⟩
  · next entry at_id =>
    split at check
    · cases check
    · obtain rfl := Option.some.inj check
      simp
  · obtain rfl := Option.some.inj check
    simp
  · next entry at_id =>
    split at check
    · cases check
    · obtain rfl := Option.some.inj check
      intro index at_index
      obtain rfl := Option.some.inj at_index
      have same : entry.wid = object.id := by simpa using List.find?_some at_id
      exact ⟨entry, List.find?_eq_getElem?_findIdx .. ▸ at_id, same, rfl⟩

/-- The dirty objects of a tick. -/
def ProjectionEngine.dirtyObjects (engine : ProjectionEngine) (world : World) (tick : UInt64) :
    List DirtyObject :=
  world.contents.filterMap
    (dirtyOf engine.policy.version (engine.prepared world tick).scanCache)

/-- The engine and the changed projections after the merge of a tick. -/
def ProjectionEngine.merged (engine : ProjectionEngine) (world : World) (tick : UInt64) :
    ProjectionEngine × List (WorldId × ProjectedEntity) :=
  (engine.dirtyObjects world tick).foldl mergeDirty (engine.prepared world tick, [])

/-- The ids of the changed projections in the order they are reported. -/
def changedWids (changed : List (WorldId × ProjectedEntity)) : List WorldId :=
  (changed.insertionSort fun lhs rhs => lhs.1 ≤ rhs.1).map Prod.fst

theorem refreshGlobalView_eq (scene : SceneInv world engine) (tick : UInt64) :
    ∃ history, engine.refreshGlobalView world tick =
      some { (ProjectionEngine.sweepStale
        { (engine.merged world tick).1 with
          tickChangedWids := changedWids (engine.merged world tick).2 } world).1 with
        history := history } := by
  have cache := (prepared_sound scene tick).2.1
  have snapshot : SnapshotInv world (engine.tickStart tick) :=
    ⟨scene.snapshot.not_ahead, scene.snapshot.current⟩
  have refresh := refreshWorldSnapshot_eq scene.world_inv snapshot
  obtain ⟨scanCache, scanCacheDirty, frame⟩ := prepared_frame engine world tick
  have pointers : (engine.prepared world tick).worldSnapshot = world.addresses := by
    rw [frame]
    rfl
  have same_policy : (engine.prepared world tick).policy = engine.policy := by
    rw [frame]
    rfl
  have scanned : scanDirty (engine.prepared world tick).policy.version world.contents 0
      (engine.prepared world tick).scanCache = engine.dirtyObjects world tick := by
    rw [scanDirty_eq_filterMap (World.contents_ascending scene.world_inv) cache.ascending,
      same_policy, dirtyObjects]
  unfold refreshGlobalView
  simp only [Option.bind_eq_bind]
  have start : ∀ finish : ProjectionEngine → Option ProjectionEngine,
      (ProjectionEngine.refreshWorldSnapshot { engine with
        latestSnapshotId := engine.latestSnapshotId + 1
        lastProcessedTick := tick } world).bind finish =
      finish ((engine.tickStart tick).withSnapshot world) := by
    intro finish
    exact congrArg (Option.bind · finish) refresh
  have prepare : ((engine.tickStart tick).withSnapshot world).refreshScanCache =
      engine.prepared world tick := rfl
  rw [start]
  simp only [prepare]
  rw [pointers, World.mapM_ownedObject scene.world_inv, Option.bind_some, scanned]
  exact ⟨_, rfl⟩

theorem mem_dirtyObjects (scene : SceneInv world engine) (dirty : DirtyObject) :
    dirty ∈ engine.dirtyObjects world tick ↔ ∃ object, world.find object.id = some object ∧
      dirtyOf engine.policy.version (engine.prepared world tick).scanCache object = some dirty := by
  simp only [dirtyObjects, List.mem_filterMap, World.mem_contents scene.world_inv]

theorem dirtyObjects_ascending (scene : SceneInv world engine) :
    (engine.dirtyObjects world tick).Pairwise
      fun first second => first.object.id < second.object.id := by
  refine List.pairwise_filterMap.mpr
    ((World.contents_ascending scene.world_inv).imp fun before first check second check' => ?_)
  rw [dirtyOf_object check, dirtyOf_object check']
  exact before

theorem merged_outcome (scene : SceneInv world engine) :
    MergeOutcome (engine.prepared world tick) (engine.dirtyObjects world tick) []
      (engine.merged world tick) := by
  refine foldl_mergeDirty_outcome _ _ _ (List.pairwise_map.mpr ?_)
  exact (dirtyObjects_ascending scene).imp fun before => UInt64.ne_of_lt before

/-- The dirty objects at the id of an object of the world are its own dirty check. -/
theorem dirty_at_id (scene : SceneInv world engine) {object : WorldObject} {dirty : DirtyObject}
    (found : world.find object.id = some object) (member : dirty ∈ engine.dirtyObjects world tick)
    (same : dirty.object.id = object.id) :
    dirtyOf engine.policy.version (engine.prepared world tick).scanCache object = some dirty := by
  obtain ⟨source, found', check⟩ := (mem_dirtyObjects scene dirty).mp member
  rw [dirtyOf_object check] at same
  rw [same, found] at found'
  rwa [Option.some.inj found']

theorem merged_elsewhere (scene : SceneInv world engine) {id : WorldId}
    (absent : world.find id = none) :
    (engine.merged world tick).1.globalView[id]? = engine.globalView[id]? := by
  obtain ⟨scanCache, scanCacheDirty, frame⟩ := prepared_frame engine world tick
  rw [(merged_outcome scene).untouched id, frame]
  · rfl
  · rintro dirty member rfl
    obtain ⟨object, found, check⟩ := (mem_dirtyObjects scene dirty).mp member
    rw [dirtyOf_object check, found] at absent
    cases absent

/-- What the merge makes of an object of the world: a reused projection stays, otherwise
the object is projected anew. -/
theorem merged_projection (scene : SceneInv world engine) {object : WorldObject}
    (found : world.find object.id = some object) :
    ((engine.merged world tick).1.globalView[object.id]?).map
        (fun state => (state.projected, state.hash)) =
      some (match (engine.globalView[object.id]?).filter fun state => Reuses engine object state with
        | some state => (state.projected, state.hash)
        | none => (engine.policy.project object,
            projectedEntityHash (engine.policy.project object))) := by
  obtain ⟨view, cache, clean⟩ := prepared_sound scene tick
  obtain ⟨scanCache, scanCacheDirty, frame⟩ := prepared_frame engine world tick
  have same_view : (engine.prepared world tick).globalView = engine.globalView := by rw [frame]; rfl
  have same_policy : (engine.prepared world tick).policy = engine.policy := by rw [frame]; rfl
  have outcome := @merged_outcome _ _ tick scene
  have check := dirtyOf_view cache clean engine.policy.version object
  rw [same_view] at check
  have written : ∀ dirty, dirtyOf engine.policy.version (engine.prepared world tick).scanCache
      object = some dirty → (engine.merged world tick).1.globalView[object.id]? =
        some ((engine.prepared world tick).mergedState dirty engine.globalView[object.id]?) := by
    intro dirty at_object
    have same := dirtyOf_object at_object
    have merged := outcome.merged dirty ((mem_dirtyObjects scene dirty).mpr ⟨object, found, at_object⟩)
    rwa [same, same_view] at merged
  cases known : engine.globalView[object.id]? with
  | none =>
    rw [known] at check
    rw [written _ check, known]
    simp [mergedState, same_policy]
  | some state =>
    rw [known] at check
    by_cases unchanged : ScanEntryUnchanged (scanEntryOf object.id state) engine.policy.version object
    · simp only [unchanged, if_true] at check
      have kept : (engine.merged world tick).1.globalView[object.id]? = some state := by
        rw [outcome.untouched object.id, same_view, known]
        intro dirty member same
        rw [dirty_at_id scene found member same] at check
        cases check
      simp [kept, Reuses, unchanged, Option.filter]
    · simp only [unchanged, if_false] at check
      rw [written _ check, known]
      by_cases same_hash : state.hash = projectedEntityHash (engine.policy.project object)
      · simp [mergedState, same_policy, Reuses, same_hash, Option.filter]
      · simp [mergedState, same_policy, Reuses, same_hash, unchanged, Option.filter]

theorem merged_frame (scene : SceneInv world engine) :
    ∃ globalView spatial spatialRevision scanCache scanCacheDirty,
      (engine.merged world tick).1 = { (engine.tickStart tick).withSnapshot world with
        globalView := globalView
        spatial := spatial
        spatialRevision := spatialRevision
        scanCache := scanCache
        scanCacheDirty := scanCacheDirty } := by
  obtain ⟨scanCache, scanCacheDirty, frame⟩ := prepared_frame engine world tick
  obtain ⟨globalView, spatial, spatialRevision, scanCache', scanCacheDirty', out⟩ :=
    (@merged_outcome _ _ tick scene).frame
  rw [frame] at out
  exact ⟨globalView, spatial, spatialRevision, scanCache', scanCacheDirty', out⟩

theorem merged_sound (scene : SceneInv world engine) (faithful : BaselineFaithful engine world) :
    ViewSound (engine.merged world tick).1 ∧ CacheSound (engine.merged world tick).1 := by
  obtain ⟨view, cache, -⟩ := prepared_sound scene tick
  refine foldl_mergeDirty_sound view cache _ _ ?_ fun dirty member => ?_
  · refine List.pairwise_map.mpr ((dirtyObjects_ascending scene).imp fun before => ?_)
    exact UInt64.ne_of_lt before
  · obtain ⟨object, found, check⟩ := (mem_dirtyObjects scene dirty).mp member
    exact dirtyReady_of_dirtyOf scene faithful found check

end Tick

section Sweep

variable {world : World} {engine : ProjectionEngine}

theorem foldl_removeStale_spec (view : ViewSound engine) (stale : List WorldId) :
    ViewSound (stale.foldl removeStale engine) := by
  induction stale generalizing engine with
  | nil => exact view
  | cons wid rest ih =>
    have kept : ∀ (id : WorldId) (state : EntityState),
        (engine.globalView.erase wid)[id]? = some state → engine.globalView[id]? = some state := by
      intro id state found
      rw [lookup_erase] at found
      split at found
      · cases found
      · exact found
    refine ih ⟨DynamicCellIndex.erase_consistent view.consistent wid,
      fun id state found => view.hashes id state (kept id state found),
      fun id state found => view.enu_eq id state (kept id state found),
      fun id state found => view.position_eq id state (kept id state found), fun id => ?_⟩
    rw [removeStale, DynamicCellIndex.erase_locations, lookup_erase, view.located]
    split <;> rfl

theorem foldl_removeStale_frame (engine : ProjectionEngine) (stale : List WorldId) :
    ∃ globalView spatial spatialRevision,
      stale.foldl removeStale engine = { engine with
        globalView := globalView, spatial := spatial, spatialRevision := spatialRevision } ∧
      ∀ id : WorldId, globalView[id]? = if id ∈ stale then none else engine.globalView[id]? := by
  induction stale generalizing engine with
  | nil => exact ⟨_, _, _, rfl, by simp⟩
  | cons wid rest ih =>
    obtain ⟨globalView, spatial, spatialRevision, out, lookup⟩ := ih (engine.removeStale wid)
    refine ⟨globalView, spatial, spatialRevision, out, fun id => ?_⟩
    rw [lookup, removeStale, lookup_erase]
    by_cases same : id = wid <;> simp [same]

theorem mem_staleWids (engine : ProjectionEngine) (world : World) (id : WorldId) :
    id ∈ engine.staleWids world ↔ id ∈ engine.globalView ∧ world.find id = none := by
  simp [staleWids, Std.ExtTreeMap.mem_keys]

/-- The sweep removes what left the world, if it runs. -/
theorem sweepStale_frame (engine : ProjectionEngine) (world : World) :
    ∃ globalView spatial spatialRevision scanCacheDirty,
      (engine.sweepStale world).1 = { engine with
        globalView := globalView
        spatial := spatial
        spatialRevision := spatialRevision
        seenEraseRevision := world.eraseRevision
        scanCacheDirty := scanCacheDirty } ∧
      (∀ id : WorldId, globalView[id]? =
        if world.eraseRevision ≠ engine.seenEraseRevision ∧ world.find id = none then none
        else engine.globalView[id]?) ∧
      (scanCacheDirty = false → engine.scanCacheDirty = false ∧ globalView = engine.globalView) := by
  unfold sweepStale
  split
  · next moved =>
    obtain ⟨globalView, spatial, spatialRevision, out, lookup⟩ := foldl_removeStale_frame
      { engine with seenEraseRevision := world.eraseRevision }
      (ProjectionEngine.staleWids { engine with seenEraseRevision := world.eraseRevision } world)
    simp only [out]
    refine ⟨_, _, _, _, rfl, fun id => ?_, fun clean => ?_⟩
    · simp only [lookup, mem_staleWids]
      by_cases absent : world.find id = none
      · by_cases known : id ∈ engine.globalView
        · simp [absent, known, moved]
        · simp [absent, known, moved]
      · simp [absent]
    · split at clean
      · next empty =>
        refine ⟨clean, Std.ExtTreeMap.ext_getElem? fun id => ?_⟩
        rw [lookup, List.isEmpty_iff.mp empty, if_neg List.not_mem_nil]
      · cases clean
  · next same =>
    refine ⟨_, engine.spatial, engine.spatialRevision, _, ?_, fun id => ?_,
      fun clean => ⟨clean, rfl⟩⟩
    · rw [not_not.mp same]
    · rw [if_neg fun both => same both.1]

theorem sweepStale_sound (view : ViewSound engine) (world : World) :
    ViewSound (engine.sweepStale world).1 := by
  unfold sweepStale
  split
  · have view' : ViewSound { engine with seenEraseRevision := world.eraseRevision } :=
      ⟨view.consistent, view.hashes, view.enu_eq, view.position_eq, view.located⟩
    have swept := foldl_removeStale_spec view'
      (ProjectionEngine.staleWids { engine with seenEraseRevision := world.eraseRevision } world)
    exact ⟨swept.consistent, swept.hashes, swept.enu_eq, swept.position_eq, swept.located⟩
  · exact view

end Sweep

end GeoWorld.Projection
