import Mathlib
import GeoWorld.Projection.EngineInvariant

/-!
What the two passes over dirty objects compute. The two-way merge of the sorted objects
with the sorted scan cache is a lookup of each object in the whole cache (`dirtyOf`),
and the serial merge writes one state per dirty object, which depends only on the state
found at its id (`mergedState`).
-/

namespace GeoWorld.Projection

open WorldModel Library

namespace ProjectionEngine

/-- The dirty check of one object by lookup in the whole cache. -/
def dirtyOf (policyVersion : Nat) (cache : List ScanEntry) (object : WorldObject) :
    Option DirtyObject :=
  match cache.find? (·.wid = object.id) with
  | none => some ⟨object, true, none⟩
  | some entry =>
    if ScanEntryUnchanged entry policyVersion object then none
    else some ⟨object, decide (entry.sourcePosition ≠ object.position),
      some (cache.findIdx (·.wid = object.id))⟩

end ProjectionEngine

open ProjectionEngine

section Scan

variable {policyVersion : Nat} {object : WorldObject}

/-- The lookup in a cache split where the merge stands for `object`. -/
theorem dirtyOf_append {before rest : List ScanEntry}
    (passed : ∀ entry ∈ before, entry.wid < object.id)
    (ascending : rest.Pairwise fun first second => first.wid < second.wid)
    (reached : ∀ entry ∈ rest.head?, ¬ entry.wid < object.id) :
    dirtyOf policyVersion (before ++ rest) object =
      match rest.head?.filter (·.wid = object.id) with
      | some entry =>
        if ScanEntryUnchanged entry policyVersion object then none
        else some ⟨object, decide (entry.sourcePosition ≠ object.position), some before.length⟩
      | none => some ⟨object, true, none⟩ := by
  have skipped : before.find? (·.wid = object.id) = none := by
    refine List.find?_eq_none.mpr fun entry member => ?_
    simpa using UInt64.ne_of_lt (passed entry member)
  have skipped_index : ¬ before.findIdx (·.wid = object.id) < before.length := by
    simp only [List.findIdx_lt_length, decide_eq_true_eq, not_exists, not_and]
    exact fun entry member => UInt64.ne_of_lt (passed entry member)
  unfold dirtyOf
  rw [List.find?_append, skipped, Option.none_or, List.findIdx_append, if_neg skipped_index]
  cases rest with
  | nil => rfl
  | cons entry more =>
    by_cases same : entry.wid = object.id
    · simp [same, Option.filter, List.findIdx_cons]
    · have beyond : more.find? (·.wid = object.id) = none := by
        refine List.find?_eq_none.mpr fun other member => ?_
        have after := (List.pairwise_cons.mp ascending).1 other member
        have above : object.id < entry.wid :=
          UInt64.lt_of_le_of_ne (UInt64.not_lt.mp (reached entry rfl)) (Ne.symm same)
        simpa using (UInt64.ne_of_lt (UInt64.lt_trans above after)).symm
      simp [same, beyond, Option.filter]

theorem scanDirty_append (objects : List WorldObject) (before rest : List ScanEntry)
    (sorted : objects.Pairwise fun first second => first.id < second.id)
    (ascending : (before ++ rest).Pairwise fun first second => first.wid < second.wid)
    (passed : ∀ entry ∈ before, ∀ object ∈ objects, entry.wid < object.id) :
    scanDirty policyVersion objects before.length rest =
      objects.filterMap (dirtyOf policyVersion (before ++ rest)) := by
  induction objects generalizing before rest with
  | nil => rfl
  | cons object objects ih =>
    -- the cursor moves over the entries below `object`
    have split : before ++ rest = (before ++ rest.takeWhile (·.wid < object.id)) ++
        rest.dropWhile (·.wid < object.id) := by
      rw [List.append_assoc, List.takeWhile_append_dropWhile]
    have sorted' := List.pairwise_cons.mp sorted
    have below : ∀ entry ∈ before ++ rest.takeWhile (·.wid < object.id),
        entry.wid < object.id := by
      intro entry member
      obtain early | late := List.mem_append.mp member
      · exact passed entry early object (by simp)
      · simpa using List.mem_takeWhile_imp late
    have reached : ∀ entry ∈ (rest.dropWhile (·.wid < object.id)).head?,
        ¬ entry.wid < object.id := by
      intro entry first
      have kept := List.head?_dropWhile_not (fun entry : ScanEntry => decide (entry.wid < object.id))
        rest
      rw [Option.mem_def] at first
      rw [first] at kept
      simpa using kept
    have remaining := ih (before ++ rest.takeWhile (·.wid < object.id))
      (rest.dropWhile (·.wid < object.id)) sorted'.2 (split ▸ ascending)
      fun entry member other later => UInt64.lt_trans (below entry member) (sorted'.1 other later)
    rw [split] at ascending
    have here := @dirtyOf_append policyVersion _ _ _ below
      (List.pairwise_append.mp ascending).2.1 reached
    rw [split, List.filterMap_cons, here, scanDirty]
    simp only [List.length_append] at remaining ⊢
    rw [remaining]
    cases (rest.dropWhile (·.wid < object.id)).head?.filter (·.wid = object.id) with
    | none => rfl
    | some entry =>
      simp only
      split <;> rfl

/-- The two-way merge is a lookup per object. -/
theorem scanDirty_eq_filterMap {objects : List WorldObject} {cache : List ScanEntry}
    (sorted : objects.Pairwise fun first second => first.id < second.id)
    (ascending : cache.Pairwise fun first second => first.wid < second.wid) :
    scanDirty policyVersion objects 0 cache = objects.filterMap (dirtyOf policyVersion cache) :=
  scanDirty_append objects [] cache sorted ascending (by simp)

theorem dirtyOf_object {cache : List ScanEntry} {dirty : DirtyObject}
    (found : dirtyOf policyVersion cache object = some dirty) : dirty.object = object := by
  unfold dirtyOf at found
  split at found
  · obtain rfl := Option.some.inj found
    rfl
  · split at found
    · cases found
    · obtain rfl := Option.some.inj found
      rfl

end Scan

namespace ProjectionEngine

/-- The state the serial merge writes for a dirty object over the state it finds. -/
def mergedState (engine : ProjectionEngine) (dirty : DirtyObject)
    (existing : Option EntityState) : EntityState :=
  let object := dirty.object
  let projected := engine.policy.project object
  let hash := projectedEntityHash projected
  match existing.filter (·.hash = hash) with
  | some state => { state with
      sourceRevision := object.revision
      sourceVersion := object.version
      policyVersion := engine.policy.version }
  | none =>
    let slotEnu := engine.config.geometry.ecefToEnu object.position
    ⟨projected, hash, if dirty.moved then slotEnu else (existing.map (·.enu)).getD slotEnu,
      object.revision, object.version, object.position, engine.policy.version⟩

/-- The global view holds no state of `object` with the hash it has now. -/
def hashChanged (engine : ProjectionEngine) (object : WorldObject) : Bool :=
  (engine.globalView[object.id]?).all fun state =>
    state.hash != projectedEntityHash (engine.policy.project object)

theorem hashChanged_iff (engine : ProjectionEngine) (object : WorldObject) :
    engine.hashChanged object = true ↔ ∀ state, engine.globalView[object.id]? = some state →
      state.hash ≠ projectedEntityHash (engine.policy.project object) := by
  simp only [hashChanged, Option.all_eq_true, bne_iff_ne, ne_eq]

end ProjectionEngine

section Merge

variable {engine : ProjectionEngine}

/-- The parts of the engine one merge step leaves alone. -/
theorem mergeDirty_frame (engine : ProjectionEngine) (changed : List (WorldId × ProjectedEntity))
    (dirty : DirtyObject) :
    ∃ spatial spatialRevision scanCache scanCacheDirty,
      (mergeDirty (engine, changed) dirty).1 = { engine with
        globalView := engine.globalView.insert dirty.object.id
          (engine.mergedState dirty engine.globalView[dirty.object.id]?)
        spatial := spatial
        spatialRevision := spatialRevision
        scanCache := scanCache
        scanCacheDirty := scanCacheDirty } := by
  unfold mergeDirty mergedState
  simp only
  cases (engine.globalView[dirty.object.id]?).filter
      (·.hash = projectedEntityHash (engine.policy.project dirty.object)) with
  | some state => cases dirty.cacheIndex <;> exact ⟨_, _, _, _, rfl⟩
  | none => cases dirty.moved <;> cases dirty.cacheIndex <;> exact ⟨_, _, _, _, rfl⟩

theorem mergeDirty_changed (engine : ProjectionEngine)
    (changed : List (WorldId × ProjectedEntity)) (dirty : DirtyObject) :
    (mergeDirty (engine, changed) dirty).2 =
      if engine.hashChanged dirty.object then
        changed ++ [(dirty.object.id, engine.policy.project dirty.object)]
      else changed := by
  unfold mergeDirty
  simp only
  cases unchanged : (engine.globalView[dirty.object.id]?).filter
      (·.hash = projectedEntityHash (engine.policy.project dirty.object)) with
  | some state =>
    obtain ⟨existing, same⟩ := Option.filter_eq_some_iff.mp unchanged
    have kept : ¬ engine.hashChanged dirty.object = true := by
      rw [hashChanged_iff]
      exact fun differs => differs state existing (of_decide_eq_true same)
    rw [if_neg kept]
  | none =>
    have new : engine.hashChanged dirty.object = true := by
      rw [hashChanged_iff]
      intro state existing
      rw [existing] at unchanged
      simpa using Option.filter_eq_none_iff.mp unchanged state rfl
    rw [if_pos new]

/-- What the merge of all dirty objects makes of the global view. -/
structure MergeOutcome (engine : ProjectionEngine) (dirty : List DirtyObject)
    (changed : List (WorldId × ProjectedEntity))
    (out : ProjectionEngine × List (WorldId × ProjectedEntity)) : Prop where
  untouched : ∀ id : WorldId, (∀ entry ∈ dirty, entry.object.id ≠ id) →
    out.1.globalView[id]? = engine.globalView[id]?
  merged : ∀ entry ∈ dirty, out.1.globalView[entry.object.id]? =
    some (engine.mergedState entry engine.globalView[entry.object.id]?)
  changed_eq : out.2 = changed ++ (dirty.filter fun entry => engine.hashChanged entry.object).map
    fun entry => (entry.object.id, engine.policy.project entry.object)
  frame : ∃ globalView spatial spatialRevision scanCache scanCacheDirty, out.1 = { engine with
    globalView := globalView
    spatial := spatial
    spatialRevision := spatialRevision
    scanCache := scanCache
    scanCacheDirty := scanCacheDirty }

theorem foldl_mergeDirty_outcome (engine : ProjectionEngine) (dirty : List DirtyObject)
    (changed : List (WorldId × ProjectedEntity))
    (distinct : (dirty.map fun entry => entry.object.id).Nodup) :
    MergeOutcome engine dirty changed (dirty.foldl mergeDirty (engine, changed)) := by
  induction dirty generalizing engine changed with
  | nil => exact ⟨fun _ _ => rfl, by simp, by simp, ⟨_, _, _, _, _, rfl⟩⟩
  | cons head rest ih =>
    have distinct' := List.nodup_cons.mp distinct
    have others : ∀ entry ∈ rest, entry.object.id ≠ head.object.id := fun entry member same =>
      distinct'.1 (List.mem_map.mpr ⟨entry, member, same⟩)
    obtain ⟨spatial, spatialRevision, scanCache, scanCacheDirty, step⟩ :=
      mergeDirty_frame engine changed head
    have second := mergeDirty_changed engine changed head
    rw [List.foldl_cons]
    generalize mergeDirty (engine, changed) head = next at step second ⊢
    obtain ⟨next, changed'⟩ := next
    simp only at step second
    obtain ⟨untouched, merged, changed_eq, frame⟩ := ih next changed' distinct'.2
    -- only the head's id was written, and it is not among the rest
    have elsewhere : ∀ id : WorldId, id ≠ head.object.id →
        next.globalView[id]? = engine.globalView[id]? := by
      intro id different
      rw [step]
      exact lookup_insert_ne _ different _
    have same_policy : next.policy = engine.policy := by rw [step]
    have same_state : ∀ entry existing, next.mergedState entry existing =
        engine.mergedState entry existing := by
      intro entry existing
      rw [step]
      rfl
    constructor
    · intro id avoided
      rw [untouched id fun entry member => avoided entry (by simp [member])]
      exact elsewhere id (avoided head (by simp)).symm
    · intro entry member
      obtain rfl | later := List.mem_cons.mp member
      · rw [untouched _ others, step]
        exact lookup_insert_self _ _ _
      · rw [merged entry later, elsewhere _ (others entry later), same_state]
    · have same_changed : rest.filter (fun entry => next.hashChanged entry.object) =
          rest.filter fun entry => engine.hashChanged entry.object := by
        refine List.filter_congr fun entry member => ?_
        simp only [hashChanged, elsewhere _ (others entry member), same_policy]
      rw [changed_eq, second, same_changed, same_policy, List.filter_cons]
      split <;> simp
    · obtain ⟨globalView, spatial', spatialRevision', scanCache', scanCacheDirty', out⟩ := frame
      refine ⟨globalView, spatial', spatialRevision', scanCache', scanCacheDirty', ?_⟩
      rw [out, step]

end Merge

end GeoWorld.Projection
