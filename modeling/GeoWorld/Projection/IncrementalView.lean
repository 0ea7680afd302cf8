import Mathlib
import GeoWorld.Projection.DirtyScan

/-!
The merge keeps the global view sound: every state carries the local coordinates of its
source position and is indexed in the cell of these, and the scan cache mirrors the
baselines of the view. Where a reused projection is the one the policy makes now, the
state of a merged object is the one a full re-projection computes (`stateOf`).
-/

namespace GeoWorld.Projection

open WorldModel Library ProjectionEngine

namespace ProjectionEngine

/-- The state a full re-projection gives an object. -/
def stateOf (engine : ProjectionEngine) (object : WorldObject) : EntityState where
  projected := engine.policy.project object
  hash := projectedEntityHash (engine.policy.project object)
  enu := engine.config.geometry.ecefToEnu object.position
  sourceRevision := object.revision
  sourceVersion := object.version
  sourcePosition := object.position
  policyVersion := engine.policy.version

end ProjectionEngine

structure ViewSound (engine : ProjectionEngine) : Prop where
  consistent : engine.spatial.Consistent
  hashes : HashesMatch engine
  enu_eq : ∀ (id : WorldId) (state : EntityState), engine.globalView[id]? = some state →
    state.enu = engine.config.geometry.ecefToEnu state.sourcePosition
  position_eq : ∀ (id : WorldId) (state : EntityState), engine.globalView[id]? = some state →
    state.projected.position = state.sourcePosition
  located : ∀ id : WorldId, engine.spatial.locations[id]? =
    (engine.globalView[id]?).map fun state => engine.config.geometry.cellFor state.enu

/-- The scan cache holds the baselines of known states, and all of them unless it is
marked for a rebuild. -/
structure CacheSound (engine : ProjectionEngine) : Prop where
  ascending : engine.scanCache.Pairwise fun first second => first.wid < second.wid
  mirrors : ∀ entry ∈ engine.scanCache, ∃ state,
    engine.globalView[entry.wid]? = some state ∧ entry = scanEntryOf entry.wid state
  covers : engine.scanCacheDirty = false → ∀ id ∈ engine.globalView,
    ∃ entry ∈ engine.scanCache, entry.wid = id

/-- What the merge of `dirty` relies on. -/
structure DirtyReady (engine : ProjectionEngine) (dirty : DirtyObject) : Prop where
  valid : dirty.object.id.valid
  faithful : ∀ state, engine.globalView[dirty.object.id]? = some state →
    state.hash = projectedEntityHash (engine.policy.project dirty.object) →
      state.projected = engine.policy.project dirty.object
  uncached : dirty.cacheIndex = none →
    dirty.moved = true ∧ ∀ entry ∈ engine.scanCache, entry.wid ≠ dirty.object.id
  cached : ∀ index, dirty.cacheIndex = some index → ∃ entry,
    engine.scanCache[index]? = some entry ∧ entry.wid = dirty.object.id ∧
      dirty.moved = decide (entry.sourcePosition ≠ dirty.object.position)

section Merge

variable {engine : ProjectionEngine} {dirty : DirtyObject}

/-- An object that did not move is known, with the local coordinates it still has. -/
theorem unmoved_enu (view : ViewSound engine) (cache : CacheSound engine)
    (ready : DirtyReady engine dirty) (unmoved : dirty.moved = false) :
    ∃ state, engine.globalView[dirty.object.id]? = some state ∧
      state.enu = engine.config.geometry.ecefToEnu dirty.object.position := by
  cases index : dirty.cacheIndex with
  | none => simp [(ready.uncached index).1] at unmoved
  | some index' =>
    obtain ⟨entry, at_index, same, moved⟩ := ready.cached index' index
    obtain ⟨state, known, baseline⟩ := cache.mirrors entry (List.mem_of_getElem? at_index)
    have position : state.sourcePosition = dirty.object.position := by
      rw [unmoved, eq_comm, decide_eq_false_iff_not, not_not, baseline] at moved
      exact moved
    rw [same] at known
    exact ⟨state, known, by rw [view.enu_eq _ state known, position]⟩

/-- The merged state is the one a full re-projection computes. -/
theorem mergedState_eq (view : ViewSound engine) (cache : CacheSound engine)
    (ready : DirtyReady engine dirty) :
    engine.mergedState dirty engine.globalView[dirty.object.id]? =
      engine.stateOf dirty.object := by
  unfold mergedState stateOf
  simp only
  cases unchanged : (engine.globalView[dirty.object.id]?).filter
      (·.hash = projectedEntityHash (engine.policy.project dirty.object)) with
  | some state =>
    obtain ⟨existing, same⟩ := Option.filter_eq_some_iff.mp unchanged
    have hash : state.hash = projectedEntityHash (engine.policy.project dirty.object) :=
      of_decide_eq_true same
    have projected := ready.faithful state existing hash
    have position : state.sourcePosition = dirty.object.position := by
      rw [← view.position_eq _ state existing, projected]
      rfl
    have enu := view.enu_eq _ state existing
    rw [position] at enu
    simp only [projected, hash, enu, position]
  | none =>
    cases moved : dirty.moved with
    | true => rfl
    | false =>
      obtain ⟨state, known, enu⟩ := unmoved_enu view cache ready moved
      simp [known, enu]

/-- After the merge of one object the index has it in the cell of its position. -/
theorem mergeDirty_spatial (view : ViewSound engine) (cache : CacheSound engine)
    (ready : DirtyReady engine dirty) (changed : List (WorldId × ProjectedEntity)) :
    (mergeDirty (engine, changed) dirty).1.spatial.Consistent ∧
      ∀ id : WorldId, (mergeDirty (engine, changed) dirty).1.spatial.locations[id]? =
        if id = dirty.object.id then
          some (engine.config.geometry.cellFor
            (engine.config.geometry.ecefToEnu dirty.object.position))
        else engine.spatial.locations[id]? := by
  have unmoved : ∀ state, engine.globalView[dirty.object.id]? = some state →
      state.enu = engine.config.geometry.ecefToEnu dirty.object.position →
      ∀ id : WorldId, engine.spatial.locations[id]? =
        if id = dirty.object.id then
          some (engine.config.geometry.cellFor
            (engine.config.geometry.ecefToEnu dirty.object.position))
        else engine.spatial.locations[id]? := by
    intro state known enu id
    split
    · next here => rw [here, view.located, known, Option.map_some, enu]
    · rfl
  have merged := mergedState_eq view cache ready
  unfold mergedState stateOf at merged
  unfold mergeDirty
  simp only at merged ⊢
  cases unchanged : (engine.globalView[dirty.object.id]?).filter
      (·.hash = projectedEntityHash (engine.policy.project dirty.object)) with
  | some state =>
    rw [unchanged] at merged
    obtain ⟨existing, -⟩ := Option.filter_eq_some_iff.mp unchanged
    have enu := congrArg EntityState.enu merged
    cases dirty.cacheIndex <;> exact ⟨view.consistent, unmoved state existing enu⟩
  | none =>
    cases moved : dirty.moved with
    | true =>
      have written : ∀ id : WorldId, (engine.spatial.upsert engine.config.geometry
          dirty.object.id (engine.config.geometry.ecefToEnu dirty.object.position)).locations[id]? =
            if id = dirty.object.id then
              some (engine.config.geometry.cellFor
                (engine.config.geometry.ecefToEnu dirty.object.position))
            else engine.spatial.locations[id]? := by
        intro id
        rw [DynamicCellIndex.upsert_locations]
        simp only [ready.valid, and_true]
      have consistent := DynamicCellIndex.upsert_consistent engine.config.geometry
        view.consistent dirty.object.id (engine.config.geometry.ecefToEnu dirty.object.position)
      cases dirty.cacheIndex <;> exact ⟨consistent, written⟩
    | false =>
      obtain ⟨state, known, enu⟩ := unmoved_enu view cache ready moved
      cases dirty.cacheIndex <;> exact ⟨view.consistent, unmoved state known enu⟩

theorem mergeDirty_view (view : ViewSound engine) (cache : CacheSound engine)
    (ready : DirtyReady engine dirty) (changed : List (WorldId × ProjectedEntity)) :
    ViewSound (mergeDirty (engine, changed) dirty).1 ∧
      (mergeDirty (engine, changed) dirty).1.globalView =
        engine.globalView.insert dirty.object.id (engine.stateOf dirty.object) := by
  obtain ⟨spatial, spatialRevision, scanCache, scanCacheDirty, step⟩ :=
    mergeDirty_frame engine changed dirty
  obtain ⟨consistent, located⟩ := mergeDirty_spatial view cache ready changed
  rw [mergedState_eq view cache ready] at step
  rw [step] at consistent located ⊢
  have stored : ∀ {motive : EntityState → Prop}, motive (engine.stateOf dirty.object) →
      (∀ (id : WorldId) (state : EntityState), engine.globalView[id]? = some state →
        motive state) →
      ∀ (id : WorldId) (state : EntityState),
        (engine.globalView.insert dirty.object.id (engine.stateOf dirty.object))[id]? =
          some state → motive state := by
    intro motive new old id state found
    rw [lookup_insert] at found
    split at found
    · obtain rfl := Option.some.inj found
      exact new
    · exact old id state found
  refine ⟨⟨consistent, stored rfl view.hashes, stored rfl view.enu_eq,
    stored rfl view.position_eq, fun id => ?_⟩, rfl⟩
  rw [located, lookup_insert, view.located]
  split <;> rfl

/-- The baseline entry the merge leaves at `cacheIndex`. -/
theorem mergeDirty_cache (ready : DirtyReady engine dirty)
    (changed : List (WorldId × ProjectedEntity)) :
    ((mergeDirty (engine, changed) dirty).1.scanCache =
        match dirty.cacheIndex with
        | none => engine.scanCache
        | some index => engine.scanCache.modify index fun _ =>
            scanEntryOf dirty.object.id (engine.stateOf dirty.object)) ∧
      ((mergeDirty (engine, changed) dirty).1.scanCacheDirty = false →
        engine.scanCacheDirty = false ∧
          (dirty.cacheIndex = none → dirty.object.id ∈ engine.globalView)) := by
  have written : ∀ index, dirty.cacheIndex = some index →
      (engine.scanCache.modify index fun entry =>
        { entry with
          sourceRevision := dirty.object.revision
          sourceVersion := dirty.object.version
          sourcePosition := dirty.object.position
          policyVersion := engine.policy.version }) =
      engine.scanCache.modify index fun _ =>
        scanEntryOf dirty.object.id (engine.stateOf dirty.object) := by
    intro index at_index
    obtain ⟨entry, found, same, -⟩ := ready.cached index at_index
    refine List.ext_getElem? fun position => ?_
    rw [List.getElem?_modify, List.getElem?_modify]
    by_cases here : index = position
    · subst here
      simp [found, scanEntryOf, stateOf, same]
    · simp [here]
  unfold mergeDirty
  simp only
  cases unchanged : (engine.globalView[dirty.object.id]?).filter
      (·.hash = projectedEntityHash (engine.policy.project dirty.object)) with
  | some state =>
    obtain ⟨existing, -⟩ := Option.filter_eq_some_iff.mp unchanged
    have known : dirty.object.id ∈ engine.globalView := by
      rw [Std.ExtTreeMap.mem_iff_isSome_getElem?, existing]
      rfl
    cases index : dirty.cacheIndex with
    | none => exact ⟨rfl, fun clean => ⟨clean, fun _ => known⟩⟩
    | some position => exact ⟨written position index, fun clean => ⟨clean, by simp⟩⟩
  | none =>
    cases index : dirty.cacheIndex with
    | none => cases dirty.moved <;> exact ⟨rfl, by simp⟩
    | some position =>
      cases dirty.moved <;> exact ⟨written position index, fun clean => ⟨clean, by simp⟩⟩

/-- Two positions of an ascending cache with one id are the same position. -/
theorem CacheSound.position_unique (cache : CacheSound engine) {first second : ℕ}
    {entry other : ScanEntry} (at_first : engine.scanCache[first]? = some entry)
    (at_second : engine.scanCache[second]? = some other) (same : entry.wid = other.wid) :
    first = second := by
  have distinct : (engine.scanCache.map ScanEntry.wid).Nodup :=
    List.pairwise_map.mpr (cache.ascending.imp fun before => UInt64.ne_of_lt before)
  have left : (engine.scanCache.map ScanEntry.wid)[first]? = some entry.wid := by
    rw [List.getElem?_map, at_first, Option.map_some]
  have right : (engine.scanCache.map ScanEntry.wid)[second]? = some entry.wid := by
    rw [List.getElem?_map, at_second, Option.map_some, same]
  obtain ⟨bound, -⟩ := List.getElem?_eq_some_iff.mp left
  exact (List.getElem?_inj bound distinct).mp (left.trans right.symm)

/-- Replacing the entry of an id keeps the ids of the cache in place. -/
theorem modify_wids {cache : List ScanEntry} {index : ℕ} {entry replacement : ScanEntry}
    (found : cache[index]? = some entry) (same : replacement.wid = entry.wid) :
    (cache.modify index fun _ => replacement).map ScanEntry.wid = cache.map ScanEntry.wid := by
  refine List.ext_getElem? fun position => ?_
  rw [List.getElem?_map, List.getElem?_map, List.getElem?_modify]
  by_cases here : index = position
  · subst here
    simp [found, same]
  · simp [here]

theorem mergeDirty_cacheSound (view : ViewSound engine) (cache : CacheSound engine)
    (ready : DirtyReady engine dirty) (changed : List (WorldId × ProjectedEntity)) :
    CacheSound (mergeDirty (engine, changed) dirty).1 ∧
      (mergeDirty (engine, changed) dirty).1.scanCache.map ScanEntry.wid =
        engine.scanCache.map ScanEntry.wid ∧
      ∀ (position : ℕ) (entry : ScanEntry), entry.wid ≠ dirty.object.id →
        engine.scanCache[position]? = some entry →
          (mergeDirty (engine, changed) dirty).1.scanCache[position]? = some entry := by
  obtain ⟨written, clean⟩ := mergeDirty_cache ready changed
  have stored := (mergeDirty_view view cache ready changed).2
  generalize (mergeDirty (engine, changed) dirty).1 = out at written clean stored ⊢
  have wids : out.scanCache.map ScanEntry.wid = engine.scanCache.map ScanEntry.wid := by
    rw [written]
    cases index : dirty.cacheIndex with
    | none => rfl
    | some position =>
      obtain ⟨entry, found, same, -⟩ := ready.cached position index
      exact modify_wids found same.symm
  -- an entry of the new cache is an old one of another id, or the new baseline
  have entries : ∀ entry ∈ out.scanCache,
      (entry.wid ≠ dirty.object.id ∧ entry ∈ engine.scanCache) ∨
        entry = scanEntryOf dirty.object.id (engine.stateOf dirty.object) := by
    intro entry member
    rw [written] at member
    cases index : dirty.cacheIndex with
    | none =>
      rw [index] at member
      exact .inl ⟨(ready.uncached index).2 entry member, member⟩
    | some position =>
      rw [index] at member
      obtain ⟨old, found, same, -⟩ := ready.cached position index
      obtain ⟨place, at_place⟩ := List.mem_iff_getElem?.mp member
      simp only [List.getElem?_modify] at at_place
      by_cases here : position = place
      · subst here
        simp only [found, if_true, Option.map_eq_map, Option.map_some, Option.some.injEq]
          at at_place
        exact .inr at_place.symm
      · simp only [here, if_false, Option.map_eq_map, Option.map_id_fun', id_eq] at at_place
        refine .inl ⟨fun equal => here ?_, List.mem_of_getElem? at_place⟩
        exact cache.position_unique found at_place (same.trans equal.symm)
  refine ⟨⟨?_, ?_, ?_⟩, wids, ?_⟩
  · rw [← List.pairwise_map (f := ScanEntry.wid) (R := (· < ·)), wids, List.pairwise_map]
    exact cache.ascending
  · intro entry member
    rw [stored]
    obtain ⟨different, old⟩ | rfl := entries entry member
    · obtain ⟨state, known, baseline⟩ := cache.mirrors entry old
      exact ⟨state, by rwa [lookup_insert_ne _ different], baseline⟩
    · exact ⟨engine.stateOf dirty.object, lookup_insert_self _ _ _, rfl⟩
  · intro unmarked id member
    obtain ⟨unmarked', known⟩ := clean unmarked
    have listed : ∀ id : WorldId, (∃ entry ∈ engine.scanCache, entry.wid = id) →
        ∃ entry ∈ out.scanCache, entry.wid = id := by
      intro id found
      rw [← List.mem_map, wids]
      exact List.mem_map.mpr found
    rw [stored, Std.ExtTreeMap.mem_insert, Std.LawfulEqCmp.compare_eq_iff_eq] at member
    obtain rfl | member := member
    · cases index : dirty.cacheIndex with
      | none => exact listed _ (cache.covers unmarked' _ (known index))
      | some position =>
        obtain ⟨entry, found, same, -⟩ := ready.cached position index
        exact listed _ ⟨entry, List.mem_of_getElem? found, same⟩
    · exact listed _ (cache.covers unmarked' id member)
  · intro place entry different at_place
    rw [written]
    cases index : dirty.cacheIndex with
    | none => exact at_place
    | some position =>
      obtain ⟨old, found, same, -⟩ := ready.cached position index
      have elsewhere : position ≠ place := by
        rintro rfl
        rw [found] at at_place
        exact different (Option.some.inj at_place ▸ same)
      simp [elsewhere, at_place]

/-- The merge of one object does not disturb what the merge of another relies on. -/
theorem DirtyReady.after (view : ViewSound engine) (cache : CacheSound engine)
    (ready : DirtyReady engine dirty) {other : DirtyObject} (ready' : DirtyReady engine other)
    (different : other.object.id ≠ dirty.object.id) (changed : List (WorldId × ProjectedEntity)) :
    DirtyReady (mergeDirty (engine, changed) dirty).1 other := by
  obtain ⟨-, wids, kept⟩ := mergeDirty_cacheSound view cache ready changed
  have stored := (mergeDirty_view view cache ready changed).2
  have same_policy : (mergeDirty (engine, changed) dirty).1.policy = engine.policy := by
    obtain ⟨spatial, spatialRevision, scanCache, scanCacheDirty, step⟩ :=
      mergeDirty_frame engine changed dirty
    rw [step]
  refine ⟨ready'.valid, ?_, ?_, ?_⟩
  · intro state known
    rw [stored, lookup_insert_ne _ different] at known
    rw [same_policy]
    exact ready'.faithful state known
  · intro index
    obtain ⟨moved, absent⟩ := ready'.uncached index
    refine ⟨moved, fun entry member same => ?_⟩
    have listed : entry.wid ∈ engine.scanCache.map ScanEntry.wid := by
      rw [← wids]
      exact List.mem_map.mpr ⟨entry, member, rfl⟩
    obtain ⟨old, old_member, equal⟩ := List.mem_map.mp listed
    exact absent old old_member (equal.trans same)
  · intro index at_index
    obtain ⟨entry, found, same, moved⟩ := ready'.cached index at_index
    exact ⟨entry, kept index entry (same ▸ different) found, same, moved⟩

theorem foldl_mergeDirty_sound (view : ViewSound engine) (cache : CacheSound engine)
    (objects : List DirtyObject) (changed : List (WorldId × ProjectedEntity))
    (distinct : (objects.map fun entry => entry.object.id).Nodup)
    (ready : ∀ entry ∈ objects, DirtyReady engine entry) :
    ViewSound (objects.foldl mergeDirty (engine, changed)).1 ∧
      CacheSound (objects.foldl mergeDirty (engine, changed)).1 := by
  induction objects generalizing engine changed with
  | nil => exact ⟨view, cache⟩
  | cons head rest ih =>
    have ready_head := ready head (by simp)
    have distinct' := List.nodup_cons.mp distinct
    refine ih (mergeDirty_view view cache ready_head changed).1
      (mergeDirty_cacheSound view cache ready_head changed).1 _ distinct'.2 ?_
    intro entry member
    refine DirtyReady.after view cache ready_head (ready entry (by simp [member])) ?_ changed
    exact fun same => distinct'.1 (List.mem_map.mpr ⟨entry, member, same⟩)

end Merge

end GeoWorld.Projection
