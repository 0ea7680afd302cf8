import Mathlib
import GeoWorld.Projection.GlobalView

/-!
One tick is exact when its shortcuts are right, and only then; an exact tick keeps the
invariant, so every run whose ticks are exact stays within it.
-/

namespace GeoWorld.Projection

open WorldModel Library ProjectionEngine

section Tick

variable {world : World} {engine after : ProjectionEngine} {tick : UInt64}

/-- The global part of a finished tick: the merge followed by the sweep. -/
structure TickOutcome (world : World) (engine : ProjectionEngine) (tick : UInt64)
    (after : ProjectionEngine) : Prop where
  config_eq : after.config = engine.config
  policy_eq : after.policy = engine.policy
  pointers : after.worldSnapshot = world.addresses
  erase_eq : after.worldSnapshotEraseRevision = world.eraseRevision
  storage_eq : after.worldSnapshotStorageRevision = world.storageRevision
  changed_eq : after.tickChangedWids = changedWids (engine.merged world tick).2
  cache_eq : after.scanCache = (engine.merged world tick).1.scanCache
  view : ∀ id : WorldId, after.globalView[id]? =
    if world.eraseRevision ≠ engine.seenEraseRevision ∧ world.find id = none then none
    else (engine.merged world tick).1.globalView[id]?
  clean : after.scanCacheDirty = false → (engine.merged world tick).1.scanCacheDirty = false ∧
    after.globalView = (engine.merged world tick).1.globalView
  sound : ViewSound (engine.merged world tick).1 → ViewSound after

theorem onProjection_outcome (scene : SceneInv world engine) (tick : UInt64) :
    ∃ after, engine.onProjection world tick = some after ∧ TickOutcome world engine tick after := by
  obtain ⟨history, refreshed⟩ := refreshGlobalView_eq scene tick
  obtain ⟨globalView, spatial, spatialRevision, scanCache, scanCacheDirty, merged⟩ :=
    @merged_frame _ _ tick scene
  obtain ⟨globalView', spatial', spatialRevision', scanCacheDirty', swept, view, clean⟩ :=
    sweepStale_frame { (engine.merged world tick).1 with
      tickChangedWids := changedWids (engine.merged world tick).2 } world
  have sound : ViewSound (engine.merged world tick).1 → ViewSound (ProjectionEngine.sweepStale
      { (engine.merged world tick).1 with
        tickChangedWids := changedWids (engine.merged world tick).2 } world).1 := by
    intro before
    apply sweepStale_sound
    exact ⟨before.consistent, before.hashes, before.enu_eq, before.position_eq, before.located⟩
  rw [onProjection, refreshed]
  refine ⟨_, rfl, ?_⟩
  have seen : (engine.merged world tick).1.seenEraseRevision = engine.seenEraseRevision := by
    rw [merged]
    rfl
  rw [swept] at sound ⊢
  simp only [seen] at view
  constructor
  case changed_eq | cache_eq => rfl
  case view => exact view
  case clean => exact clean
  case sound =>
    intro before
    have after := sound before
    exact ⟨after.consistent, after.hashes, after.enu_eq, after.position_eq, after.located⟩
  all_goals
    simp only [merged]
    rfl

/-- An object whose hash is new is always found dirty. -/
theorem dirty_of_hashChanged (scene : SceneInv world engine)
    (faithful : BaselineFaithful engine world) {object : WorldObject}
    (found : world.find object.id = some object) (new : engine.hashChanged object = true) :
    ∃ dirty ∈ engine.dirtyObjects world tick, dirty.object = object := by
  obtain ⟨-, cache, clean⟩ := prepared_sound scene tick
  obtain ⟨scanCache, scanCacheDirty, frame⟩ := prepared_frame engine world tick
  have same_view : (engine.prepared world tick).globalView = engine.globalView := by rw [frame]; rfl
  have check := dirtyOf_view cache clean engine.policy.version object
  rw [same_view] at check
  cases result : dirtyOf engine.policy.version (engine.prepared world tick).scanCache object with
  | some dirty =>
    exact ⟨dirty, (mem_dirtyObjects scene dirty).mpr ⟨object, found, result⟩, dirtyOf_object result⟩
  | none =>
    rw [result] at check
    cases known : engine.globalView[object.id]? with
    | none => simp [known] at check
    | some state =>
      simp only [known] at check
      split at check
      · next unchanged =>
        have projected := faithful.reused object.id state object known found (.inl unchanged)
        have hash := scene.view.hashes object.id state known
        exact absurd (hash.trans (congrArg _ projected))
          ((hashChanged_iff engine object).mp new state known)
      · cases check

theorem changedWids_exact (scene : SceneInv world engine)
    (faithful : BaselineFaithful engine world) :
    (changedWids (engine.merged world tick).2).Pairwise (· < ·) ∧
      ∀ id : WorldId, id ∈ changedWids (engine.merged world tick).2 ↔
        ∃ object, world.find id = some object ∧ ∀ state, engine.globalView[id]? = some state →
          state.hash ≠ projectedEntityHash (engine.policy.project object) := by
  obtain ⟨scanCache, scanCacheDirty, frame⟩ := prepared_frame engine world tick
  have same_hash : ∀ object, (engine.prepared world tick).hashChanged object =
      engine.hashChanged object := by
    intro object
    rw [frame]
    rfl
  have outcome := @merged_outcome _ _ tick scene
  have ascending := @dirtyObjects_ascending _ _ tick scene
  have listed : changedWids (engine.merged world tick).2 =
      ((engine.dirtyObjects world tick).filter fun dirty => engine.hashChanged dirty.object).map
        fun dirty => dirty.object.id := by
    have sorted : (engine.merged world tick).2.Pairwise fun lhs rhs => lhs.1 ≤ rhs.1 := by
      rw [outcome.changed_eq, List.nil_append]
      exact List.pairwise_map.mpr ((ascending.filter _).imp fun before => UInt64.le_of_lt before)
    rw [changedWids, sorted.insertionSort_eq, outcome.changed_eq]
    simp [same_hash, Function.comp_def]
  rw [listed]
  refine ⟨List.pairwise_map.mpr (ascending.filter _), fun id => ?_⟩
  simp only [List.mem_map, List.mem_filter, hashChanged_iff]
  constructor
  · rintro ⟨dirty, ⟨member, new⟩, rfl⟩
    obtain ⟨object, found, check⟩ := (mem_dirtyObjects scene dirty).mp member
    obtain rfl := dirtyOf_object check
    exact ⟨dirty.object, found, new⟩
  · rintro ⟨object, found, new⟩
    obtain rfl := World.find_id scene.world_inv found
    obtain ⟨dirty, member, rfl⟩ := @dirty_of_hashChanged _ _ tick scene faithful _ found
      ((hashChanged_iff engine object).mpr new)
    exact ⟨dirty, ⟨member, new⟩, rfl⟩

theorem view_exact_iff (scene : SceneInv world engine) (outcome : TickOutcome world engine tick after) :
    (∀ id : WorldId, (after.globalView[id]?).map (fun state => (state.projected, state.hash)) =
      (world.find id).map fun object =>
        (engine.policy.project object, projectedEntityHash (engine.policy.project object))) ↔
      BaselineFaithful engine world := by
  constructor
  · refine fun exact_view => ⟨fun id state object known found reuses => ?_, fun same id member => ?_⟩
    · obtain rfl := World.find_id scene.world_inv found
      have kept := @merged_projection _ _ tick scene _ found
      have at_id := exact_view object.id
      rw [outcome.view, if_neg (by simp [found]), kept, found, known] at at_id
      simp only [Option.filter, reuses, decide_true, if_true, Option.map_some, Option.some.injEq,
        Prod.mk.injEq] at at_id
      exact at_id.1
    · by_contra gone
      have absent : world.find id = none := by simpa using gone
      have at_id := exact_view id
      rw [outcome.view, if_neg fun both => both.1 same, merged_elsewhere scene absent, absent] at at_id
      rw [Std.ExtTreeMap.mem_iff_isSome_getElem?] at member
      obtain ⟨state, known⟩ := Option.isSome_iff_exists.mp member
      simp [known] at at_id
  · intro faithful id
    cases found : world.find id with
    | none =>
      rw [outcome.view]
      by_cases same : world.eraseRevision = engine.seenEraseRevision
      · have unknown : engine.globalView[id]? = none := by
          refine Std.ExtTreeMap.getElem?_eq_none fun member => ?_
          simpa [found] using faithful.gone same id member
        simp [same, merged_elsewhere scene found, unknown]
      · simp [same, found]
    | some object =>
      obtain rfl := World.find_id scene.world_inv found
      rw [outcome.view, if_neg (by simp [found]), merged_projection scene found]
      cases kept : (engine.globalView[object.id]?).filter fun state => Reuses engine object state with
      | none => rfl
      | some state =>
        obtain ⟨known, reuses⟩ := Option.filter_eq_some_iff.mp kept
        have projected := faithful.reused object.id state object known found
          (of_decide_eq_true reuses)
        have hash := scene.view.hashes object.id state known
        simp [projected, hash]

/-- An exact tick keeps the invariant. -/
theorem TickOutcome.sceneInv (outcome : TickOutcome world engine tick after)
    (scene : SceneInv world engine) (faithful : BaselineFaithful engine world) :
    SceneInv world after := by
  obtain ⟨view, cache⟩ := @merged_sound _ _ tick scene faithful
  refine ⟨scene.world_inv, ?_, outcome.sound view, fun clean => ?_⟩
  · have snapshot := snapshotInv_withSnapshot world after
    have same : after.withSnapshot world = after := by
      rw [withSnapshot, ← outcome.pointers, ← outcome.erase_eq, ← outcome.storage_eq]
    rwa [same] at snapshot
  · obtain ⟨clean', same_view⟩ := outcome.clean clean
    refine ⟨outcome.cache_eq ▸ cache.ascending, fun entry member => ?_, fun _ id member => ?_⟩
    · rw [same_view]
      exact cache.mirrors entry (outcome.cache_eq ▸ member)
    · rw [outcome.cache_eq]
      exact cache.covers clean' id (same_view ▸ member)

theorem projectionExact_iff (scene : SceneInv world engine)
    (outcome : TickOutcome world engine tick after) :
    ProjectionExact world engine after ↔ BaselineFaithful engine world := by
  refine ⟨fun exact_tick => (view_exact_iff scene outcome).mp exact_tick.view, fun faithful => ?_⟩
  have view := (view_exact_iff scene outcome).mpr faithful
  have sound := (outcome.sceneInv scene faithful).view
  obtain ⟨ascending, changed⟩ := @changedWids_exact _ _ tick scene faithful
  refine ⟨view, outcome.changed_eq ▸ ascending, fun id => outcome.changed_eq ▸ changed id,
    fun id cell => ?_⟩
  rw [sound.consistent, sound.located, outcome.config_eq]
  have at_id := view id
  cases known : after.globalView[id]? with
  | none =>
    rw [known, Option.map_none, eq_comm, Option.map_eq_none_iff] at at_id
    simp [at_id]
  | some state =>
    rw [known, Option.map_some, eq_comm] at at_id
    obtain ⟨object, found, same⟩ := Option.map_eq_some_iff.mp at_id
    have position : state.sourcePosition = object.position := by
      rw [← sound.position_eq id state known, ← (Prod.mk.inj same).1]
      rfl
    have enu := sound.enu_eq id state known
    rw [outcome.config_eq, position] at enu
    simp [found, enu]

end Tick

/-- One world and one engine. -/
structure Scene where
  world : World
  engine : ProjectionEngine

inductive SceneEvent where
  | world (op : WorldOp)
  | projection (tick : UInt64)
  | policy (change : PolicyChange)

namespace Scene

def step (build : StorageBuild) (scene : Scene) : SceneEvent → Option Scene
  | .world op => some { scene with world := scene.world.perform build op }
  | .projection tick => (scene.engine.onProjection scene.world tick).map fun engine =>
      { scene with engine := engine }
  | .policy change => some { scene with engine := scene.engine.changePolicy change }

/-- World operations keep ids apart, and ticks are taken only when their shortcuts are right. -/
def Guard (scene : Scene) : SceneEvent → Prop
  | .world op => op.KeepsIds
  | .projection _ => BaselineFaithful scene.engine scene.world
  | .policy _ => True

/-- An empty world and an engine that has seen nothing. -/
def initial (config : ProjectionConfig) (policy : ProjectionPolicy) : Scene where
  world := {}
  engine := { config := config, policy := policy }

end Scene

section Runs

variable {build : StorageBuild} {scene : Scene}

theorem sceneInv_initial (config : ProjectionConfig) (policy : ProjectionPolicy) :
    SceneInv (Scene.initial config policy).world (Scene.initial config policy).engine := by
  refine ⟨worldInv_empty, ⟨le_of_eq rfl, fun _ => rfl⟩, ⟨?_, ?_, ?_, ?_, ?_⟩, fun clean => ?_⟩
  · exact DynamicCellIndex.consistent_empty
  · intro id state known
    simp [Scene.initial] at known
  · intro id state known
    simp [Scene.initial] at known
  · intro id state known
    simp [Scene.initial] at known
  · intro id
    simp [Scene.initial]
  · cases clean

theorem sceneInv_step {event : SceneEvent} {after : Scene} (inv : SceneInv scene.world scene.engine)
    (allowed : scene.Guard event) (step : scene.step build event = some after) :
    SceneInv after.world after.engine := by
  cases event with
  | world op =>
    obtain rfl := Option.some.inj step
    obtain ⟨world_inv, advances⟩ := perform_spec build inv.world_inv allowed
    exact ⟨world_inv, inv.snapshot.advance advances, inv.view, inv.cache⟩
  | projection tick =>
    obtain ⟨engine, computed, outcome⟩ := onProjection_outcome inv tick
    rw [Scene.step, computed] at step
    obtain rfl := Option.some.inj step
    exact outcome.sceneInv inv allowed
  | policy change =>
    obtain rfl := Option.some.inj step
    have view := inv.view
    exact ⟨inv.world_inv, ⟨inv.snapshot.not_ahead, inv.snapshot.current⟩,
      ⟨view.consistent, view.hashes, view.enu_eq, view.position_eq, view.located⟩,
      fun clean => ⟨(inv.cache clean).ascending, (inv.cache clean).mirrors,
        (inv.cache clean).covers⟩⟩

theorem sceneInv_of_run {config : ProjectionConfig} {policy : ProjectionPolicy}
    {events : List SceneEvent}
    (run : GuardedRun (fun before event after => before.step build event = some after) Scene.Guard
      (Scene.initial config policy) events scene) : SceneInv scene.world scene.engine := by
  have keeps : ∀ before event after, Scene.Guard before event →
      before.step build event = some after → SceneInv before.world before.engine →
        SceneInv after.world after.engine :=
    fun _ _ _ allowed step inv => sceneInv_step inv allowed step
  exact run.invariant (sceneInv_initial config policy) keeps

/-- In every run whose earlier ticks were exact, the next tick is defined, and it is the full
re-projection exactly when the shortcuts it takes are right. -/
theorem incremental_projection_exact_iff {config : ProjectionConfig} {policy : ProjectionPolicy}
    {events : List SceneEvent}
    (run : GuardedRun (fun before event after => before.step build event = some after) Scene.Guard
      (Scene.initial config policy) events scene) (tick : UInt64) :
    (∃ after, scene.engine.onProjection scene.world tick = some after ∧
      ProjectionExact scene.world scene.engine after) ↔
        BaselineFaithful scene.engine scene.world := by
  have inv := sceneInv_of_run run
  obtain ⟨after, computed, outcome⟩ := onProjection_outcome inv tick
  rw [← projectionExact_iff inv outcome, computed]
  constructor
  · rintro ⟨other, same, exact_tick⟩
    obtain rfl := Option.some.inj same
    exact exact_tick
  · exact fun exact_tick => ⟨after, rfl, exact_tick⟩

end Runs

instance (engine : ProjectionEngine) (world : World) : Decidable (BaselineFaithful engine world) :=
  decidable_of_iff
    ((∀ item ∈ engine.globalView.toList, ∀ object ∈ world.find item.1,
        Reuses engine object item.2 → item.2.projected = engine.policy.project object) ∧
      (world.eraseRevision = engine.seenEraseRevision →
        (engine.globalView.keys.all fun id => (world.find id).isSome) = true))
    ⟨fun both => ⟨fun id state object known found =>
        both.1 (id, state) (Std.ExtTreeMap.mem_toList_iff_getElem?_eq_some.mpr known) object found,
      fun same id member => List.all_eq_true.mp (both.2 same) id (Std.ExtTreeMap.mem_keys.mpr member)⟩,
    fun faithful => ⟨fun item listed object found => faithful.reused item.1 item.2 object
        (Std.ExtTreeMap.mem_toList_iff_getElem?_eq_some.mp listed) found,
      fun same => List.all_eq_true.mpr fun id member =>
        faithful.gone same id (Std.ExtTreeMap.mem_keys.mp member)⟩⟩

/-- The events that ask nothing of the ids given to them. -/
def SceneEvent.keepsIds : SceneEvent → Bool
  | .world (.update _ mutation) => mutation.isNone
  | .world (.restore objects _ _) => objects.all (·.id.valid)
  | _ => true

def guardCheck (scene : Scene) (event : SceneEvent) : Bool :=
  event.keepsIds && match event with
    | .projection _ => decide (BaselineFaithful scene.engine scene.world)
    | _ => true

theorem guardCheck_sound (scene : Scene) (event : SceneEvent)
    (passed : guardCheck scene event = true) : scene.Guard event := by
  simp only [guardCheck, Bool.and_eq_true] at passed
  obtain ⟨ids, faithful⟩ := passed
  cases event with
  | world op =>
    cases op with
    | update id mutation =>
      intro mutate member
      simp only [SceneEvent.keepsIds, Option.isNone_iff_eq_none] at ids
      rw [ids] at member
      cases member
    | restore objects _ _ => exact List.all_eq_true.mp ids
    | _ => trivial
  | projection tick =>
    have faithful' : BaselineFaithful scene.engine scene.world := of_decide_eq_true faithful
    exact faithful'
  | policy change => trivial

/-- Object 2 with one property that clients may see. -/
def labelledObject (value : Int64) : WorldObject :=
  { originObject 2 with properties := (∅ : PropertyBag).insert [1] (.integer value) }

/-- The property is set through the world, which bumps the version. -/
def versionedEvents : List SceneEvent :=
  [.world (.insert (labelledObject 1)), .policy (.allowProperty [1]), .projection 1,
    .world (.setProperty 2 [1] (.integer 2))]

theorem incremental_projection_versioned :
    ∃ scene after, runLabels (Scene.step .persistent) (Scene.initial originConfig {})
        versionedEvents = some scene ∧
      scene.engine.onProjection scene.world 2 = some after ∧
      ProjectionExact scene.world scene.engine after := by
  have computed : ((runLabels (fun scene event =>
      if guardCheck scene event then Scene.step .persistent scene event else none)
        (Scene.initial originConfig {}) versionedEvents).map fun scene =>
          decide (BaselineFaithful scene.engine scene.world)) = some true := by
    decide +kernel
  obtain ⟨scene, reached, faithful⟩ := Option.map_eq_some_iff.mp computed
  have run := GuardedRun.of_checked guardCheck_sound reached
  obtain ⟨after, projected, exact_tick⟩ :=
    (incremental_projection_exact_iff run 2).mpr (of_decide_eq_true faithful)
  exact ⟨scene, after, run.computed, projected, exact_tick⟩

/-- The property is set by a mutation that leaves the version alone. -/
def unversionedEvents : List SceneEvent :=
  [.world (.insert (labelledObject 1)), .policy (.allowProperty [1]), .projection 1,
    .world (.update 2 (some fun object =>
      { object with properties := object.properties.insert [1] (.integer 2) }))]

def AsksNothing : SceneEvent → Prop
  | .world op => op.KeepsIds
  | _ => True

/-- The second tick keeps the projection of the first. -/
theorem incremental_projection_fails :
    ¬ ∀ (build : StorageBuild) (config : ProjectionConfig) (policy : ProjectionPolicy)
      (events : List SceneEvent) (scene : Scene),
      GuardedRun (fun before event after => before.step build event = some after)
        (fun _ event => AsksNothing event) (Scene.initial config policy) events scene →
      ∀ tick, ∃ after, scene.engine.onProjection scene.world tick = some after ∧
        ProjectionExact scene.world scene.engine after := by
  intro claim
  have computed : ((runLabels (Scene.step .persistent) (Scene.initial originConfig {})
      unversionedEvents).bind fun scene => (scene.engine.onProjection scene.world 2).map fun after =>
        ((after.globalView[(2 : WorldId)]?).map (·.projected.properties[([1] : ByteString)]?),
          (scene.world.find 2).map fun object =>
            (scene.engine.policy.project object).properties[([1] : ByteString)]?)) =
        some (some (some (.integer 1)), some (some (.integer 2))) := by
    decide +kernel
  obtain ⟨scene, reached, rest⟩ := Option.bind_eq_some_iff.mp computed
  obtain ⟨after, projected, stale⟩ := Option.map_eq_some_iff.mp rest
  have asks_nothing : ∀ event ∈ unversionedEvents, AsksNothing event := by
    intro event member
    simp only [unversionedEvents, List.mem_cons, List.not_mem_nil, or_false] at member
    rcases member with rfl | rfl | rfl | rfl
    · trivial
    · trivial
    · trivial
    · intro mutate chosen object
      obtain rfl := Option.some.inj chosen
      rfl
  obtain ⟨after', projected', exact_tick⟩ := claim .persistent originConfig {} unversionedEvents
    scene (GuardedRun.of_runLabels reached asks_nothing) 2
  rw [projected] at projected'
  obtain rfl := Option.some.inj projected'
  have view := congrArg (Option.map fun item => item.1.properties[([1] : ByteString)]?)
    (exact_tick.view 2)
  simp only [Option.map_map, Function.comp_def] at view
  have both := Prod.mk.inj stale
  rw [both.1, both.2] at view
  cases view

end GeoWorld.Projection
