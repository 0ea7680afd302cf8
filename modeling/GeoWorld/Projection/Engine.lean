import Mathlib
import GeoWorld.Projection.Connection

/-!
The projection engine: its state, and the part of `on_projection` that brings
the global view up to date with the world before any frame is built.
The engine keeps raw pointers into the world between calls. Reading through a
pointer whose block the world no longer owns is undefined behaviour in the
source and makes the step `none` here.
The projection phase may be split over worker threads; each worker writes its
own slot, so the sequential computation below is what every schedule yields.
-/

namespace GeoWorld.Projection

open WorldModel

def microsecondsPerSecond : Nat := 1000000

structure ProjectionConfig where
  dataFrequencyHz : Nat := 20
  slowFrequencyHz : Nat := 2
  keyframeIntervalSeconds : Nat := 5
  snapshotHistoryFrames : Nat := 256
  maxUnackedFrames : Nat := 256
  maxUnackedBytes : Nat := 16 * 1024 * 1024
  maxFeatureIdsPerEpoch : Nat := 1000000
  tickDtMicroseconds : Nat := 20000
  maxUpdatesPerFrame : Nat := 2 ^ 64 - 1
  /-- Stands for `cell_grid` and `enu_origin`. -/
  geometry : Geometry

/-- A projected object with the dirty-check baseline it was computed from. -/
structure EntityState where
  projected : ProjectedEntity
  hash : UInt64
  enu : Enu
  sourceRevision : UInt64
  sourceVersion : UInt64
  sourcePosition : PositionEcef
  policyVersion : Nat
  deriving DecidableEq

structure VisibleCache where
  valid : Bool := false
  hasBounds : Bool := false
  bounds : Aabb := ⟨⟨0, 0, 0⟩, ⟨0, 0, 0⟩⟩
  spatialRevision : Nat := 0
  visible : List WorldId := []
  deriving DecidableEq

structure ScanEntry where
  wid : WorldId
  sourceRevision : UInt64
  sourceVersion : UInt64
  sourcePosition : PositionEcef
  policyVersion : Nat
  deriving DecidableEq

structure SnapshotChangeSet where
  snapshotId : Nat
  changed : List (WorldId × ProjectedEntity)
  removed : List WorldId
  deriving DecidableEq

/-- What the engine keeps for one connection id: `connections_`, `visible_caches_`,
`throttle_pending_` and `pending_frames_` at that key. A frame that was built is
`some`, also when it is empty. -/
structure Slot where
  connection : ConnectionProjection
  visibleCache : VisibleCache := {}
  throttlePending : WidSet := ∅
  pendingFrame : Option (Option StateFrame) := none

abbrev RelevanceFilter := ConnectionId → WorldObject → Bool

structure ProjectionEngine where
  config : ProjectionConfig
  policy : ProjectionPolicy := {}
  relevanceFilter : Option RelevanceFilter := none
  spatial : DynamicCellIndex := {}
  latestSnapshotId : Nat := 0
  lastProcessedTick : UInt64 := 0
  spatialRevision : Nat := 0
  seenEraseRevision : Nat := 0
  globalView : WidMap EntityState := ∅
  history : List SnapshotChangeSet := []
  connections : Std.ExtTreeMap ConnectionId Slot compare := ∅
  tickChangedWids : List WorldId := []
  worldSnapshot : List Address := []
  worldSnapshotEraseRevision : Nat := 0
  worldSnapshotStorageRevision : Nat := 0
  scanCache : List ScanEntry := []
  scanCacheDirty : Bool := true

namespace ProjectionEngine

/-- The pointers into the world, sorted by the id of the object they point to. -/
def sortedAddresses (world : World) : Option (List Address) :=
  (world.addresses.mapM fun address =>
    (world.ownedObject address).map fun object => (address, object.id)).map fun pointers =>
      (pointers.insertionSort fun lhs rhs => lhs.2 ≤ rhs.2).map Prod.fst

def refreshWorldSnapshot (engine : ProjectionEngine) (world : World) :
    Option ProjectionEngine :=
  if engine.worldSnapshot.length ≠ world.size
      ∨ engine.worldSnapshotEraseRevision ≠ world.eraseRevision
      ∨ engine.worldSnapshotStorageRevision ≠ world.storageRevision then
    (sortedAddresses world).map fun pointers =>
      { engine with
        worldSnapshot := pointers
        worldSnapshotEraseRevision := world.eraseRevision
        worldSnapshotStorageRevision := world.storageRevision }
  else
    some engine

def scanEntryOf (wid : WorldId) (state : EntityState) : ScanEntry :=
  ⟨wid, state.sourceRevision, state.sourceVersion, state.sourcePosition,
    state.policyVersion⟩

/-- The rebuilt cache lists the global view in ascending order. -/
def refreshScanCache (engine : ProjectionEngine) : ProjectionEngine :=
  if engine.scanCacheDirty then
    { engine with
      scanCache := engine.globalView.toList.map fun entry => scanEntryOf entry.1 entry.2
      scanCacheDirty := false }
  else
    engine

/-- One object the dirty scan could not skip. -/
structure DirtyObject where
  object : WorldObject
  moved : Bool
  cacheIndex : Option Nat
  deriving DecidableEq

def ScanEntryUnchanged (entry : ScanEntry) (policyVersion : Nat) (object : WorldObject) :
    Prop :=
  entry.sourceRevision = object.revision ∧ entry.sourceVersion = object.version ∧
  entry.policyVersion = policyVersion ∧ entry.sourcePosition = object.position

instance (entry : ScanEntry) (policyVersion : Nat) (object : WorldObject) :
    Decidable (ScanEntryUnchanged entry policyVersion object) :=
  inferInstanceAs (Decidable (_ ∧ _ ∧ _ ∧ _))

/-- The two-way merge of the sorted objects with the scan cache. `rest` is the
part of the cache from `cursor` on. -/
def scanDirty (policyVersion : Nat) :
    List WorldObject → Nat → List ScanEntry → List DirtyObject
  | [], _, _ => []
  | object :: objects, cursor, rest =>
    let cursor := cursor + (rest.takeWhile (·.wid < object.id)).length
    let rest := rest.dropWhile (·.wid < object.id)
    match rest.head?.filter (·.wid = object.id) with
    | some entry =>
      if ScanEntryUnchanged entry policyVersion object then
        scanDirty policyVersion objects cursor rest
      else
        ⟨object, decide (entry.sourcePosition ≠ object.position), some cursor⟩ ::
          scanDirty policyVersion objects cursor rest
    | none => ⟨object, true, none⟩ :: scanDirty policyVersion objects cursor rest

/-- Writes the new dirty-check baseline of `object` into its cache entry, or
records that the cache has no entry for it. -/
def syncScanEntry (engine : ProjectionEngine) (object : WorldObject)
    (cacheIndex : Option Nat) : ProjectionEngine :=
  match cacheIndex with
  | none => engine
  | some index =>
    { engine with
      scanCache := engine.scanCache.modify index fun entry =>
        { entry with
          sourceRevision := object.revision
          sourceVersion := object.version
          sourcePosition := object.position
          policyVersion := engine.policy.version } }

/-- The serial merge of one dirty object; the list collects the changed ids with
their projections in discovery order. -/
def mergeDirty (acc : ProjectionEngine × List (WorldId × ProjectedEntity))
    (dirty : DirtyObject) : ProjectionEngine × List (WorldId × ProjectedEntity) :=
  let (engine, changed) := acc
  let object := dirty.object
  let projected := engine.policy.project object
  let hash := projectedEntityHash projected
  let existing := engine.globalView[object.id]?
  match existing.filter (·.hash = hash) with
  | some state =>
    let engine := { engine with
      globalView := engine.globalView.insert object.id { state with
        sourceRevision := object.revision
        sourceVersion := object.version
        policyVersion := engine.policy.version } }
    (engine.syncScanEntry object dirty.cacheIndex, changed)
  | none =>
    let slotEnu := engine.config.geometry.ecefToEnu object.position
    -- An object that did not move is known to the cache, hence to the view.
    let enu := if dirty.moved then slotEnu else (existing.map (·.enu)).getD slotEnu
    let engine := if dirty.moved then
        { engine with
          spatial := engine.spatial.upsert engine.config.geometry object.id enu
          spatialRevision := engine.spatialRevision + 1 }
      else engine
    let engine := { engine with
      globalView := engine.globalView.insert object.id
        ⟨projected, hash, enu, object.revision, object.version, object.position,
          engine.policy.version⟩ }
    let engine := match dirty.cacheIndex with
      | none => { engine with scanCacheDirty := true }
      | some _ => engine.syncScanEntry object dirty.cacheIndex
    (engine, changed ++ [(object.id, projected)])

/-- Removes one id that the world no longer has. -/
def removeStale (engine : ProjectionEngine) (wid : WorldId) : ProjectionEngine :=
  { engine with
    globalView := engine.globalView.erase wid
    spatial := engine.spatial.erase wid
    spatialRevision := engine.spatialRevision + 1 }

def staleWids (engine : ProjectionEngine) (world : World) : List WorldId :=
  engine.globalView.keys.filter fun wid => (world.find wid).isNone

/-- The stale scan runs only when the erase counter differs from the one last seen. -/
def sweepStale (engine : ProjectionEngine) (world : World) :
    ProjectionEngine × List WorldId :=
  if world.eraseRevision ≠ engine.seenEraseRevision then
    let engine := { engine with seenEraseRevision := world.eraseRevision }
    let stale := engine.staleWids world
    let engine := stale.foldl removeStale engine
    let dirty := if stale.isEmpty then engine.scanCacheDirty else true
    ({ engine with scanCacheDirty := dirty }, stale)
  else
    (engine, [])

def pushHistory (engine : ProjectionEngine) (changes : SnapshotChangeSet) :
    ProjectionEngine :=
  let history := engine.history ++ [changes]
  { engine with
    history := history.drop (history.length - engine.config.snapshotHistoryFrames) }

/-- Everything `on_projection` does before the frames of the connections are built. -/
def refreshGlobalView (engine : ProjectionEngine) (world : World) (tick : UInt64) :
    Option ProjectionEngine := do
  let engine := { engine with
    latestSnapshotId := engine.latestSnapshotId + 1
    lastProcessedTick := tick }
  let engine ← engine.refreshWorldSnapshot world
  let engine := engine.refreshScanCache
  let objects ← engine.worldSnapshot.mapM world.ownedObject
  let dirty := scanDirty engine.policy.version objects 0 engine.scanCache
  let (engine, changed) := dirty.foldl mergeDirty (engine, [])
  let changed := changed.insertionSort fun lhs rhs => lhs.1 ≤ rhs.1
  let engine := { engine with tickChangedWids := changed.map Prod.fst }
  let (engine, removed) := engine.sweepStale world
  some (engine.pushHistory ⟨engine.latestSnapshotId, changed, removed⟩)

def intervalTicks (engine : ProjectionEngine) (frequencyHz : Nat) : UInt64 :=
  max 1 (engine.config.geometry.roundedIntervalTicks frequencyHz)

def keyframeIntervalTicks (engine : ProjectionEngine) : UInt64 :=
  UInt64.ofNat (engine.config.keyframeIntervalSeconds * microsecondsPerSecond
    / engine.config.tickDtMicroseconds)

def resolveBounds (engine : ProjectionEngine) (connection : ConnectionProjection) :
    Option Aabb :=
  match connection.subscription.area with
  | some area => some area
  | none =>
    match connection.subscription.follow with
    | none => none
    | some target =>
      engine.globalView[target]?.map fun state =>
        engine.config.geometry.boundsAround state.enu
          connection.subscription.followRadiusMeters

def queryVisible (engine : ProjectionEngine) (bounds : Option Aabb) : List WorldId :=
  match bounds with
  | none => []
  | some bounds => engine.spatial.query engine.config.geometry bounds

/-- The cached area result may be used: same bounds, same spatial revision. -/
def CacheHit (engine : ProjectionEngine) (cache : VisibleCache) (bounds : Option Aabb) :
    Prop :=
  cache.valid ∧ bounds.isSome = cache.hasBounds ∧
  (∀ area ∈ bounds, area = cache.bounds) ∧ cache.spatialRevision = engine.spatialRevision

instance (engine : ProjectionEngine) (cache : VisibleCache) (bounds : Option Aabb) :
    Decidable (engine.CacheHit cache bounds) :=
  inferInstanceAs (Decidable (_ ∧ _ ∧ _ ∧ _))

structure VisibleResult where
  visible : List WorldId
  cache : VisibleCache
  fromCache : Bool

def resolveVisible (engine : ProjectionEngine) (connection : ConnectionProjection)
    (cache : VisibleCache) (bounds : Option Aabb) (world : World) : VisibleResult :=
  match engine.relevanceFilter with
  | some relevant =>
    let visible := (engine.queryVisible bounds).filter fun wid =>
      match world.find wid with
      | none => false
      | some object => relevant connection.id object
    ⟨visible, cache, false⟩
  | none =>
    if engine.CacheHit cache bounds then
      ⟨cache.visible, cache, true⟩
    else
      let visible := engine.queryVisible bounds
      ⟨visible,
        { valid := true
          hasBounds := bounds.isSome
          bounds := bounds.getD cache.bounds
          spatialRevision := engine.spatialRevision
          visible := visible },
        false⟩

def keyframeDue (engine : ProjectionEngine) (connection : ConnectionProjection)
    (tick : UInt64) : Bool :=
  if connection.nextKeyframeTick ≠ 0 then
    decide (tick ≥ connection.nextKeyframeTick)
  else
    let phase := connectionIdHash connection.id % engine.keyframeIntervalTicks
    decide (tick + phase ≥ connection.lastKeyframeTick + engine.keyframeIntervalTicks)

end ProjectionEngine

end GeoWorld.Projection
