import Mathlib
import GeoWorld.Library.TreeMap
import GeoWorld.Library.ParallelSlots
import GeoWorld.Projection.BuildFrame
import GeoWorld.Projection.DirtyScan

/-!
`on_projection` with a thread pool injected: the projections of the dirty
objects are computed in chunks, and so are the frames of the connections, whose
dispatch also clears the change sets that left the history. A pool without
workers runs no task at all.
-/

namespace GeoWorld.Foundation

open Library

structure ThreadPool where
  workerCount : Nat
  deriving DecidableEq

/-- `run`: without workers there is no implementation object, and it returns at once. -/
def ThreadPool.run {σ : Type} (pool : ThreadPool) (schedule : Schedule) (taskCount : Nat)
    (task : σ → Nat → σ) (state : σ) : σ :=
  if pool.workerCount = 0 ∨ taskCount = 0 then state
  else (schedule taskCount).1.foldl task state

def chunksPerWorker : Nat := 16

/-- The caller runs tasks too. -/
def ThreadPool.chunkCount (pool : ThreadPool) (items : Nat) : Nat :=
  max 1 (min items ((pool.workerCount + 1) * chunksPerWorker))

def chunkSize (items chunks : Nat) : Nat := (items + chunks - 1) / chunks

end GeoWorld.Foundation

namespace GeoWorld.Projection

open WorldModel Library Foundation

/-- What a worker writes for one dirty object. -/
structure ProjectedSlot where
  projected : Option ProjectedEntity := none
  hash : UInt64 := 0
  enu : Enu := ⟨0, 0, 0⟩
  deriving DecidableEq

/-- One connection in the parallel build of frames. -/
structure ParallelSlot where
  id : ConnectionId
  slot : Slot
  frame : Option StateFrame := none

namespace ProjectionEngine

def computeProjected (engine : ProjectionEngine) (dirty : DirtyObject)
    (slot : ProjectedSlot) : ProjectedSlot where
  projected := some (engine.policy.project dirty.object)
  hash := projectedEntityHash (engine.policy.project dirty.object)
  enu := if dirty.moved then engine.config.geometry.ecefToEnu dirty.object.position
    else slot.enu

def computeAt (engine : ProjectionEngine) (dirty : List DirtyObject) (index : Nat)
    (slot : ProjectedSlot) : ProjectedSlot :=
  match dirty[index]? with
  | some object => engine.computeProjected object slot
  | none => slot

def projectSlots (engine : ProjectionEngine) (pool : Option ThreadPool)
    (schedule : Schedule) (dirty : List DirtyObject) : List ProjectedSlot :=
  let slots := List.replicate dirty.length ({} : ProjectedSlot)
  let sequential := (List.range dirty.length).foldl (visit (engine.computeAt dirty)) slots
  match pool with
  | none => sequential
  | some pool =>
    if 1 < dirty.length then
      let chunks := pool.chunkCount dirty.length
      pool.run schedule chunks
        (visitChunk (engine.computeAt dirty) (chunkSize dirty.length chunks) dirty.length) slots
    else sequential

/-- The serial merge of one dirty object with its slot. Storing a projection that no
worker computed leaves a null pointer in the global view, and is `none` here. -/
def mergeSlot (acc : ProjectionEngine × List (WorldId × ProjectedEntity))
    (pair : DirtyObject × ProjectedSlot) :
    Option (ProjectionEngine × List (WorldId × ProjectedEntity)) :=
  let (engine, changed) := acc
  let (dirty, slot) := pair
  let object := dirty.object
  let existing := engine.globalView[object.id]?
  match existing.filter (·.hash = slot.hash) with
  | some state =>
    let engine := { engine with
      globalView := engine.globalView.insert object.id { state with
        sourceRevision := object.revision
        sourceVersion := object.version
        policyVersion := engine.policy.version } }
    some (engine.syncScanEntry object dirty.cacheIndex, changed)
  | none =>
    slot.projected.map fun projected =>
      let enu := if dirty.moved then slot.enu
        else (existing.map (·.enu)).getD (engine.config.geometry.ecefToEnu object.position)
      let engine := if dirty.moved then
          { engine with
            spatial := engine.spatial.upsert engine.config.geometry object.id enu
            spatialRevision := engine.spatialRevision + 1 }
        else engine
      let engine := { engine with
        globalView := engine.globalView.insert object.id
          ⟨projected, slot.hash, enu, object.revision, object.version, object.position,
            engine.policy.version⟩ }
      let engine := match dirty.cacheIndex with
        | none => { engine with scanCacheDirty := true }
        | some _ => engine.syncScanEntry object dirty.cacheIndex
      (engine, changed ++ [(object.id, projected)])

/-- The engine before the slots are computed, and the objects found dirty. -/
def scanWorld (engine : ProjectionEngine) (world : World) (tick : UInt64) :
    Option (ProjectionEngine × List DirtyObject) := do
  let engine := { engine with
    latestSnapshotId := engine.latestSnapshotId + 1
    lastProcessedTick := tick }
  let engine ← engine.refreshWorldSnapshot world
  let engine := engine.refreshScanCache
  let objects ← engine.worldSnapshot.mapM world.ownedObject
  some (engine, scanDirty engine.policy.version objects 0 engine.scanCache)

/-- What follows the merge: the sorted changes, the stale scan and the history. -/
def recordChanges (engine : ProjectionEngine) (world : World)
    (changed : List (WorldId × ProjectedEntity)) : ProjectionEngine :=
  let changed := changed.insertionSort fun lhs rhs => lhs.1 ≤ rhs.1
  let engine := { engine with tickChangedWids := changed.map Prod.fst }
  let (engine, removed) := engine.sweepStale world
  engine.pushHistory ⟨engine.latestSnapshotId, changed, removed⟩

/-- The change sets that leave the history, kept until the frames are built. -/
def retiredChanges (engine : ProjectionEngine) : List (List (WorldId × ProjectedEntity)) :=
  (engine.history.take (engine.history.length + 1 - engine.config.snapshotHistoryFrames)).map
    SnapshotChangeSet.changed

def refreshWith (engine : ProjectionEngine) (pool : Option ThreadPool) (schedule : Schedule)
    (world : World) (tick : UInt64) : Option ProjectionEngine := do
  let (scanned, dirty) ← engine.scanWorld world tick
  let slots := scanned.projectSlots pool schedule dirty
  let (merged, changed) ← (dirty.zip slots).foldlM mergeSlot (scanned, [])
  some (merged.recordChanges world changed)

def buildAt (engine : ProjectionEngine) (world : World) (tick : UInt64) (_ : Nat)
    (slot : ParallelSlot) : ParallelSlot :=
  let (frame, built) := engine.buildFrame world tick slot.slot
  { slot with slot := built, frame := frame }

/-- `pending_frames_[id] = …` for one slot. -/
def storeFrame (connections : Std.ExtTreeMap ConnectionId Slot compare)
    (slot : ParallelSlot) : Std.ExtTreeMap ConnectionId Slot compare :=
  connections.insert slot.id { slot.slot with pendingFrame := some slot.frame }

def parallelSlots (engine : ProjectionEngine) : List ParallelSlot :=
  engine.connections.toList.map fun entry => { id := entry.1, slot := entry.2 }

/-- Tasks below the number of chunks build frames, the others clear change sets. -/
def buildConnections (engine : ProjectionEngine) (pool : Option ThreadPool)
    (schedule : Schedule) (world : World) (tick : UInt64)
    (retired : List (List (WorldId × ProjectedEntity))) :
    Std.ExtTreeMap ConnectionId Slot compare :=
  let sequential := engine.connections.map fun _ slot => engine.buildSlot world tick slot
  match pool with
  | none => sequential
  | some pool =>
    if engine.relevanceFilter.isNone ∧ 1 < engine.connections.size then
      let slots := engine.parallelSlots
      let chunks := pool.chunkCount slots.length
      let retiredChunks := if retired.length = 0 then 0 else pool.chunkCount retired.length
      let retiredSize := if retiredChunks = 0 then 0
        else chunkSize retired.length retiredChunks
      let built := pool.run schedule (chunks + retiredChunks)
        (dispatch
          (visitChunk (engine.buildAt world tick) (chunkSize slots.length chunks) slots.length)
          (visitChunk (fun _ _ => []) retiredSize retired.length) chunks)
        (slots, retired)
      built.1.foldl storeFrame engine.connections
    else sequential

/-- `on_projection` with the pool that was injected, if any. -/
def onProjectionWith (engine : ProjectionEngine) (pool : Option ThreadPool)
    (schedule later : Schedule) (world : World) (tick : UInt64) : Option ProjectionEngine :=
  (engine.refreshWith pool schedule world tick).map fun refreshed =>
    { refreshed with
      connections := refreshed.buildConnections pool later world tick engine.retiredChanges }

end ProjectionEngine

open ProjectionEngine

section Slots

variable {engine : ProjectionEngine} {dirty : List DirtyObject} {schedule : Schedule}

end Slots

section Rewrite

variable {α β : Type} {cmp : α → α → Ordering} [Std.TransCmp cmp] [Std.LawfulEqCmp cmp]

theorem lookup_foldl_insert_absent (change : β → β) {entries : List (α × β)} {key : α}
    (absent : ∀ entry ∈ entries, entry.1 ≠ key) (start : Std.ExtTreeMap α β cmp) :
    (entries.foldl (fun map entry => map.insert entry.1 (change entry.2)) start)[key]? =
      start[key]? := by
  classical
  induction entries generalizing start with
  | nil => rfl
  | cons entry entries ih =>
    rw [List.forall_mem_cons] at absent
    rw [List.foldl_cons, ih absent.2, lookup_insert_ne _ (Ne.symm absent.1)]

theorem lookup_foldl_insert_mem (change : β → β) {entries : List (α × β)}
    (distinct : entries.Pairwise fun a b => a.1 ≠ b.1) {key : α} {value : β}
    (member : (key, value) ∈ entries) (start : Std.ExtTreeMap α β cmp) :
    (entries.foldl (fun map entry => map.insert entry.1 (change entry.2)) start)[key]? =
      some (change value) := by
  classical
  induction entries generalizing start with
  | nil => cases member
  | cons entry entries ih =>
    obtain ⟨apart, later⟩ := List.pairwise_cons.mp distinct
    rw [List.foldl_cons]
    obtain rfl | among := List.mem_cons.mp member
    · rw [lookup_foldl_insert_absent change (fun other among same =>
        apart other among same.symm), lookup_insert_self]
    · exact ih later among _

/-- Writing every entry of a map back in changed form changes the map throughout. -/
theorem foldl_insert_toList (change : β → β) (map : Std.ExtTreeMap α β cmp) :
    map.toList.foldl (fun written entry => written.insert entry.1 (change entry.2)) map =
      map.map fun _ value => change value := by
  have distinct : map.toList.Pairwise fun a b => a.1 ≠ b.1 :=
    map.distinct_keys_toList.imp fun apart same => apart (by simp [same])
  apply Std.ExtTreeMap.ext_getElem?
  intro key
  rw [Std.ExtTreeMap.getElem?_map]
  cases found : map[key]? with
  | none =>
    rw [lookup_foldl_insert_absent change (fun entry member same => ?_), found]
    · rfl
    · rw [← same, Std.ExtTreeMap.mem_toList_iff_getElem?_eq_some.mp member] at found
      cases found
  | some value =>
    exact lookup_foldl_insert_mem change distinct
      (Std.ExtTreeMap.mem_toList_iff_getElem?_eq_some.mpr found) map

end Rewrite

section Connections

variable {engine : ProjectionEngine} {world : World} {tick : UInt64}

end Connections

end GeoWorld.Projection
