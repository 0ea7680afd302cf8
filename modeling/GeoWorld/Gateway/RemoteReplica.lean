import Mathlib
import GeoWorld.Gateway.HashAgreement
import GeoWorld.Library.SortedSelection
import GeoWorld.Projection.FeatureIds
import GeoWorld.Projection.ReplicaAgreement
import GeoWorld.Protocol.Interpolation
import GeoWorld.Protocol.ServerFrame

/-!
The stream from the projection of a world to a client behind it: frames are encoded, travel in
order, are decoded and applied. The hash of the client's replica is then the hash that the server
gives its view of the connection.
-/

namespace GeoWorld.Protocol

open WorldModel Library

/-- The order in which the entries of a hash table are visited. -/
structure VisitOrder (α : Type) where
  visit : WidMap α → List (WorldId × α)
  complete : ∀ entries, (visit entries).Perm entries.toList

def VisitOrder.ascending (α : Type) : VisitOrder α :=
  ⟨fun entries => entries.toList, fun _ => .refl _⟩

def VisitOrder.descending (α : Type) : VisitOrder α :=
  ⟨fun entries => entries.toList.reverse, fun _ => List.reverse_perm _⟩

namespace Interpolation

/-- One entry of the loop of `hash`. -/
def foldEntry (hash : UInt64) (entry : WorldId × FeatureId × UInt64) : UInt64 :=
  foldU64 (foldU64 (foldU64 hash (UInt64.ofNat entry.2.1)) entry.1) entry.2.2

def ReplicaAccumulator.hash (order : VisitOrder (FeatureId × UInt64))
    (replica : ReplicaAccumulator) : UInt64 :=
  ((order.visit replica).insertionSort fun lhs rhs => lhs.2.1 ≤ rhs.2.1).foldl foldEntry fnvOffset

end Interpolation

/-- The decoder of a frame accepts under wider limits what it accepts, and reads the same. -/
theorem decodeRoot_widens {limits wider : ProtocolLimits} (le : limits.NoWider wider)
    (entities : limits.maxEntitiesPerFrame ≤ wider.maxEntitiesPerFrame)
    (root : Tables.WorldStreamFrame) : Widens (decodeRoot root limits) (decodeRoot root wider) := by
  have enters (sources : List Tables.EntityEnter) :
      Widens (sources.mapM (decodeEnter limits)) (sources.mapM (decodeEnter wider)) :=
    Widens.mapM (fun _ => Widens.bind (decodeEntity_widens le _) fun _ => Widens.refl _) sources
  have updates (sources : List Tables.EntityUpdate) :
      Widens (sources.mapM (decodeUpdate limits)) (sources.mapM (decodeUpdate wider)) :=
    Widens.mapM (fun _ => Widens.bind (decodeEntity_widens le _) fun _ => Widens.refl _) sources
  unfold decodeRoot
  split
  · exact Widens.refl _
  · cases root.frame with
    | keyframe frame =>
      exact Widens.bind (Widens.within (fun few => few.trans entities) _) fun _ =>
        Widens.bind (enters _) fun _ => Widens.refl _
    | delta frame =>
      exact Widens.bind (Widens.within (fun few => few.trans entities) _) fun _ =>
        Widens.bind (enters _) fun _ => Widens.bind (updates _) fun _ => Widens.refl _
    | _ => exact Widens.refl _

/-- Whatever limits the receiving side has, what it reads of an encoded frame is the stored one. -/
theorem decodeServerFrame_stored {buffers : StreamBuffers} (faithful : buffers.Faithful)
    {frame decoded : WireFrame} {limits other : ProtocolLimits} {bytes : buffers.Buffer}
    (encoded : encodeServerFrame buffers frame limits = some bytes)
    (read : decodeServerFrame buffers bytes other = .ok decoded) : decoded = frame.stored := by
  obtain ⟨-, -, -, built⟩ := encodeServerFrame_some faithful encoded
  have rooted : decodeRoot (buffers.getRoot bytes) other = .ok decoded := by
    unfold decodeServerFrame at read
    repeat' split at read
    all_goals first
      | exact read
      | cases read
  let wider : ProtocolLimits :=
    { maxStringBytes := max limits.maxStringBytes other.maxStringBytes
      maxPropertiesPerEntity := max limits.maxPropertiesPerEntity other.maxPropertiesPerEntity
      maxRelationsPerEntity := max limits.maxRelationsPerEntity other.maxRelationsPerEntity
      maxEntitiesPerFrame := max limits.maxEntitiesPerFrame other.maxEntitiesPerFrame }
  have left : limits.NoWider wider :=
    ⟨Nat.le_max_left _ _, Nat.le_max_left _ _, Nat.le_max_left _ _⟩
  have right : other.NoWider wider :=
    ⟨Nat.le_max_right _ _, Nat.le_max_right _ _, Nat.le_max_right _ _⟩
  have first := decodeRoot_widens left (Nat.le_max_left _ _) _ _ built.decoded
  have second := decodeRoot_widens right (Nat.le_max_right _ _) _ _ rooted
  exact Except.ok.inj (second.symm.trans first)

end GeoWorld.Protocol

namespace GeoWorld.Projection

open WorldModel Library ConnectionProjection ProjectionEngine
open Protocol (VisitOrder)

def hashViewEntry (hash : UInt64) (entry : WorldId × TrackedEntity) : UInt64 :=
  HashWriter.u64 (HashWriter.u64 (HashWriter.u64 hash (UInt64.ofNat entry.2.fid)) entry.1)
    entry.2.entityHash

/-- The loop of `connection_view_hash` over a view. -/
def viewHash (order : VisitOrder TrackedEntity) (view : WidMap TrackedEntity) : UInt64 :=
  ((order.visit view).insertionSort fun lhs rhs => lhs.2.fid ≤ rhs.2.fid).foldl hashViewEntry
    fnvOffset

def ProjectionEngine.connectionViewHash (order : VisitOrder TrackedEntity)
    (engine : ProjectionEngine) (id : ConnectionId) : UInt64 :=
  match engine.connections[id]? with
  | none => 0
  | some slot => viewHash order slot.connection.currentView

section Hashes

variable {view : WidMap TrackedEntity} {replica : ReplicaAccumulator}

theorem toList_of_view (same : replica.view = viewOf view) :
    replica.toList = view.toList.map fun entry => (entry.1, entry.2.entry) := by
  have mapped : replica = view.map fun _ tracked => tracked.entry := by
    refine Std.ExtTreeMap.ext_getElem? fun wid => ?_
    rw [Std.ExtTreeMap.getElem?_map]
    exact congrFun same wid
  rw [mapped, Std.ExtTreeMap.toList_map]

/-- A replica of the entries of a view has its hash, in whatever order each side visits its
table. -/
theorem hash_of_view (injective : FidsInjective view) (same : replica.view = viewOf view)
    (order : VisitOrder TrackedEntity) (other : VisitOrder (FeatureId × UInt64)) :
    Protocol.Interpolation.ReplicaAccumulator.hash other replica = viewHash order view := by
  let forward (entry : WorldId × TrackedEntity) : WorldId × FeatureId × UInt64 :=
    (entry.1, entry.2.entry)
  have perm : (other.visit replica).Perm ((order.visit view).map forward) := by
    refine (other.complete replica).trans ?_
    rw [toList_of_view same]
    exact ((order.complete view).map forward).symm
  have apart : ∀ one ∈ other.visit replica, ∀ two ∈ other.visit replica,
      one.2.1 ≤ two.2.1 → two.2.1 ≤ one.2.1 → one = two := by
    intro one one_mem two two_mem le ge
    obtain ⟨left, left_mem, rfl⟩ := List.mem_map.mp (perm.mem_iff.mp one_mem)
    obtain ⟨right, right_mem, rfl⟩ := List.mem_map.mp (perm.mem_iff.mp two_mem)
    have left_found := Std.ExtTreeMap.mem_toList_iff_getElem?_eq_some.mp
      ((order.complete view).mem_iff.mp left_mem)
    have right_found := Std.ExtTreeMap.mem_toList_iff_getElem?_eq_some.mp
      ((order.complete view).mem_iff.mp right_mem)
    have wids := injective left.1 right.1 left.2 right.2 left_found right_found (le_antisymm le ge)
    rw [wids, right_found] at left_found
    rw [Prod.ext wids (Option.some.inj left_found).symm]
  have sorted : (other.visit replica).insertionSort (fun lhs rhs => lhs.2.1 ≤ rhs.2.1) =
      ((order.visit view).insertionSort fun lhs rhs => lhs.2.fid ≤ rhs.2.fid).map forward := by
    rw [List.map_insertionSort (fun lhs rhs => lhs.2.fid ≤ rhs.2.fid)
      (fun lhs rhs => lhs.2.1 ≤ rhs.2.1) forward _ fun _ _ _ _ => Iff.rfl]
    exact insertionSort_congr perm apart
  rw [Protocol.Interpolation.ReplicaAccumulator.hash, sorted, List.foldl_map]
  rfl

theorem FidsMapped.current_injective {connection : ConnectionProjection}
    (mapped : FidsMapped connection) : FidsInjective connection.currentView := by
  intro wid wid' entry entry' found found' same
  have one := mapped.current wid entry found
  have two := mapped.current wid' entry' found'
  rw [← same] at two
  exact Option.some.inj (((mapped.inverse wid entry.fid).mp one).symm.trans
    ((mapped.inverse wid' entry.fid).mp two))

end Hashes

end GeoWorld.Projection

namespace GeoWorld.Gateway

open WorldModel Library
open Projection (ProjectionEngine StateFrame EntityState ConnectionId EngineEvent Slot View)
open Protocol (Building ProtocolLimits StreamBuffers VisitOrder)
open Protocol.Builder
open Protocol.Interpolation (Observed)

/-- An entity that both sides hash alike: no attributes on its relations, no negative zero. -/
structure PlainEntity (entity : Projection.ProjectedEntity) : Prop where
  relations : ∀ relation ∈ entity.relations, relation.attributes = ∅
  kept : (toWireEntity entity).Kept

/-- The entities a frame carries. -/
def carriedEntities : StateFrame → List Projection.ProjectedEntity
  | .keyframe frame => frame.entities.map Projection.EntityEnter.entity
  | .delta frame => frame.enters.map Projection.EntityEnter.entity ++
      frame.updates.map Projection.EntityUpdate.entity

def PlainFrame (frame : StateFrame) : Prop :=
  ∀ entity ∈ carriedEntities frame, PlainEntity entity

def PlainView (engine : ProjectionEngine) : Prop :=
  ∀ (wid : WorldId) (state : EntityState), engine.globalView[wid]? = some state →
    PlainEntity state.projected

section Frames

variable {entity : Projection.ProjectedEntity} {frame : StateFrame}

theorem PlainEntity.fid (plain : PlainEntity entity) (fid : FeatureId) :
    PlainEntity { entity with fid := fid } :=
  ⟨plain.relations, plain.kept⟩

theorem PlainEntity.hash (plain : PlainEntity entity) :
    Protocol.wireEntityHash (toWireEntity entity).stored =
      Projection.projectedEntityHash entity := by
  rw [Protocol.wireEntityHash_eq, projectedEntityHash_eq,
    (storedEntityBytes_eq_iff entity).mpr ⟨plain.relations, plain.kept⟩]

/-- What the client observes of a state frame. -/
def observedFrame (frame : StateFrame) : Option Observed :=
  match (toWireFrame frame).stored with
  | .keyframe content => some (.keyframe content)
  | .delta content => some (.delta content)
  | _ => none

/-- The client applies the stored frame as the reference client applies the frame itself. -/
theorem apply_observed (plain : PlainFrame frame) (replica : Projection.ReplicaAccumulator) :
    ∃ observed, observedFrame frame = some observed ∧
      Protocol.Interpolation.ReplicaAccumulator.apply replica observed = replica.apply frame := by
  have enter_eq (enter : Projection.EntityEnter) (plain : PlainEntity enter.entity)
      (replica : Projection.ReplicaAccumulator) :
      replica.insert enter.wid (Protocol.Interpolation.replicaEntry enter.fid
        (toWireEntity enter.entity).stored) = replica.writeEnter enter := by
    rw [Protocol.Interpolation.replicaEntry, plain.hash]
    rfl
  have update_eq (update : Projection.EntityUpdate) (plain : PlainEntity update.entity)
      (replica : Projection.ReplicaAccumulator) :
      replica.insert update.wid (Protocol.Interpolation.replicaEntry update.fid
        (toWireEntity update.entity).stored) = replica.writeUpdate update := by
    rw [Protocol.Interpolation.replicaEntry, plain.hash]
    rfl
  cases frame with
  | keyframe frame =>
    refine ⟨_, rfl, ?_⟩
    simp only [Protocol.Interpolation.ReplicaAccumulator.apply,
      Protocol.Interpolation.keyframeWrites, List.foldl_map]
    exact List.foldl_ext _ _ _ fun acc enter member =>
      enter_eq enter (plain _ (List.mem_map_of_mem member)) acc
  | delta frame =>
    refine ⟨_, rfl, ?_⟩
    have enters : ∀ (start : Projection.ReplicaAccumulator),
        frame.enters.foldl (fun acc enter => acc.insert enter.wid
          (Protocol.Interpolation.replicaEntry enter.fid (toWireEntity enter.entity).stored)) start =
        frame.enters.foldl Projection.ReplicaAccumulator.writeEnter start := fun start =>
      List.foldl_ext _ _ _ fun acc enter member =>
        enter_eq enter (plain _ (List.mem_append_left _ (List.mem_map_of_mem member))) acc
    have updates : ∀ (start : Projection.ReplicaAccumulator),
        frame.updates.foldl (fun acc update => acc.insert update.wid
          (Protocol.Interpolation.replicaEntry update.fid (toWireEntity update.entity).stored)) start =
        frame.updates.foldl Projection.ReplicaAccumulator.writeUpdate start := fun start =>
      List.foldl_ext _ _ _ fun acc update member =>
        update_eq update (plain _ (List.mem_append_right _ (List.mem_map_of_mem member))) acc
    simp only [Protocol.Interpolation.ReplicaAccumulator.apply, Protocol.Interpolation.applyDelta,
      Protocol.Interpolation.deltaWrites, List.foldl_append, List.foldl_map, toWireEnter,
      Protocol.WireEnter.stored, toWireUpdate, Protocol.WireUpdate.stored, enters, updates]
    rfl

end Frames

section Builds

variable {engine : ProjectionEngine} {world : World} {tick : UInt64} {slot : Slot}

/-- The state that an action sends. -/
def sentState : Projection.WidAction → Option EntityState
  | .enter state => some state
  | .update _ state => some state
  | _ => none

/-- What is sent of an entity is what the global view holds. -/
def SendsView (engine : ProjectionEngine) (action : WorldId → Projection.WidAction) : Prop :=
  ∀ wid state, sentState (action wid) = some state → engine.globalView[wid]? = some state

theorem keyframeAction_view (engine : ProjectionEngine) :
    SendsView engine engine.keyframeAction := by
  intro wid state sends
  unfold ProjectionEngine.keyframeAction at sends
  cases held : engine.globalView[wid]? with
  | none =>
    rw [held] at sends
    cases sends
  | some other =>
    rw [held] at sends
    exact sends

theorem widAction_view (engine : ProjectionEngine) (connection : Projection.ConnectionProjection)
    (visible : List WorldId) (tick : UInt64) :
    SendsView engine (engine.widAction connection visible tick) := by
  intro wid state sends
  unfold ProjectionEngine.widAction at sends
  split at sends
  · split at sends
    · cases sends
    · next held _ => exact held.trans sends
    · next held _ =>
      split at sends
      · cases sends
      · split at sends
        · cases sends
        · exact held.trans sends
  · split at sends <;> cases sends

variable {action : WorldId → Projection.WidAction} {reason : WorldId → Projection.LeaveReason}
  {connection : Projection.ConnectionProjection} {wids : List WorldId}
  {scan : ProjectionEngine.DeltaScan}

/-- The loop over entities of a plain view collects plain entities. -/
theorem loop_plain (result : Projection.LoopResult action reason tick connection wids scan)
    (sends : SendsView engine action) (plain : PlainView engine) :
    (∀ enter ∈ scan.enters, PlainEntity enter.entity) ∧
      ∀ update ∈ scan.updates, PlainEntity update.entity := by
  constructor
  · intro enter member
    rw [result.enters_eq] at member
    obtain ⟨wid, -, found⟩ := List.mem_filterMap.mp member
    cases does : action wid with
    | enter state =>
      have held := sends wid state (by rw [does]; rfl)
      simp only [does, Projection.WidAction.enterEntry, Option.some.injEq] at found
      exact found ▸ (plain wid state held).fid _
    | _ => simp [does, Projection.WidAction.enterEntry] at found
  · intro update member
    rw [result.updates_eq] at member
    obtain ⟨wid, -, found⟩ := List.mem_filterMap.mp member
    cases does : action wid with
    | update entry state =>
      have held := sends wid state (by rw [does]; rfl)
      simp only [does, Projection.WidAction.updateEntry, Option.some.injEq] at found
      exact found ▸ (plain wid state held).fid _
    | _ => simp [does, Projection.WidAction.updateEntry] at found

theorem buildKeyframe_plain {visible : List WorldId} (distinct : visible.Nodup)
    (plain : PlainView engine) (forced : Bool) :
    PlainFrame (.keyframe (engine.buildKeyframe connection visible forced tick).1) := by
  have looped := loop_plain (engine.keyframeScan_result connection tick distinct)
    (keyframeAction_view engine) plain
  intro entity member
  rw [Projection.ProjectionEngine.buildKeyframe_eq] at member
  obtain ⟨enter, inside, rfl⟩ := List.mem_map.mp member
  exact looped.1 enter inside

theorem finishDelta_plain (result : Projection.LoopResult action reason tick connection wids scan)
    (sends : SendsView engine action) (plain : PlainView engine) {delta : Projection.Delta}
    (built : (engine.finishDelta connection tick scan).1 = some delta) :
    PlainFrame (.delta delta) := by
  obtain ⟨enters, updates⟩ := loop_plain result sends plain
  unfold ProjectionEngine.finishDelta at built
  split at built
  · cases built
  · obtain rfl := Option.some.inj built
    intro entity member
    obtain entered | updated := List.mem_append.mp member
    · obtain ⟨enter, inside, rfl⟩ := List.mem_map.mp entered
      refine enters enter ?_
      have sorted := (List.mem_insertionSort _).mp inside
      unfold ProjectionEngine.trimUpdates at sorted
      split at sorted <;> exact sorted
    · obtain ⟨update, inside, rfl⟩ := List.mem_map.mp updated
      refine updates update ?_
      have sorted := (List.mem_insertionSort _).mp inside
      unfold ProjectionEngine.trimUpdates at sorted
      split at sorted
      · exact (List.mem_insertionSort _).mp (List.mem_of_mem_take sorted)
      · exact sorted

/-- A frame built from a plain view is plain. -/
theorem buildFrame_plain (ready : Projection.BuildReady engine slot) (plain : PlainView engine)
    {frame : StateFrame} (built : (engine.buildFrame world tick slot).1 = some frame) :
    PlainFrame frame := by
  obtain ⟨distinct, -, -⟩ := ready.plan_sound world tick
  unfold ProjectionEngine.buildFrame at built
  simp only at built
  split at built
  · obtain rfl := Option.some.inj built
    exact buildKeyframe_plain distinct plain _
  · obtain ⟨delta, finished, rfl⟩ := Option.map_eq_some_iff.mp built
    exact finishDelta_plain (Projection.scanDelta_result engine world tick
      slot.throttlePending distinct)
      (widAction_view engine _ _ _) plain finished

end Builds

/-- No object of the world gives the two sides different bytes to hash. -/
def PlainWorld (policy : Projection.ProjectionPolicy) (world : World) : Prop :=
  ∀ address object, world.ownedObject address = some object →
    RelationsBare policy object ∧ NoNegativeZero policy object

section Refresh

variable {engine : ProjectionEngine} {world : World} {tick : UInt64}

theorem plain_project {policy : Projection.ProjectionPolicy} {object : WorldObject}
    (bare : RelationsBare policy object) (none : NoNegativeZero policy object) :
    PlainEntity (policy.project object) :=
  ⟨(relationsBare_iff policy object).mpr bare, (kept_iff policy object).mpr none⟩

theorem mem_scanDirty {policyVersion : Nat} {objects : List WorldObject} {cursor : Nat}
    {rest : List Projection.ScanEntry} {dirty : ProjectionEngine.DirtyObject}
    (member : dirty ∈ ProjectionEngine.scanDirty policyVersion objects cursor rest) :
    dirty.object ∈ objects := by
  induction objects generalizing cursor rest with
  | nil => cases member
  | cons object objects ih =>
    unfold ProjectionEngine.scanDirty at member
    simp only at member
    split at member
    · split at member
      · exact List.mem_cons_of_mem _ (ih member)
      · obtain rfl | later := List.mem_cons.mp member
        · exact List.mem_cons_self
        · exact List.mem_cons_of_mem _ (ih later)
    · obtain rfl | later := List.mem_cons.mp member
      · exact List.mem_cons_self
      · exact List.mem_cons_of_mem _ (ih later)

theorem PlainView.insert (plain : PlainView engine) {state : EntityState}
    (entity : PlainEntity state.projected) (id : WorldId) {later : ProjectionEngine}
    (view : later.globalView = engine.globalView.insert id state) : PlainView later := by
  intro wid other found
  rw [view, lookup_insert] at found
  split at found
  · obtain rfl := Option.some.inj found
    exact entity
  · exact plain wid other found

theorem mergeDirty_plain (plain : PlainView engine)
    (changed : List (WorldId × Projection.ProjectedEntity)) (dirty : ProjectionEngine.DirtyObject)
    (entity : PlainEntity (engine.policy.project dirty.object)) :
    PlainView (ProjectionEngine.mergeDirty (engine, changed) dirty).1 := by
  unfold ProjectionEngine.mergeDirty
  simp only
  cases unchanged : (engine.globalView[dirty.object.id]?).filter
      (·.hash = Projection.projectedEntityHash (engine.policy.project dirty.object)) with
  | some state =>
    obtain ⟨existing, -⟩ := Option.filter_eq_some_iff.mp unchanged
    obtain ⟨scanCache, synced⟩ := Projection.syncScanEntry_frame { engine with
      globalView := engine.globalView.insert dirty.object.id { state with
        sourceRevision := dirty.object.revision
        sourceVersion := dirty.object.version
        policyVersion := engine.policy.version } } dirty.object dirty.cacheIndex
    simp only [synced]
    refine plain.insert ?_ dirty.object.id rfl
    exact plain dirty.object.id state existing
  | none =>
    simp only
    by_cases moved : dirty.moved = true
    · simp only [moved, if_true]
      cases dirty.cacheIndex <;> exact plain.insert entity dirty.object.id rfl
    · simp only [moved, Bool.false_eq_true, if_false]
      cases dirty.cacheIndex <;> exact plain.insert entity dirty.object.id rfl

theorem foldl_mergeDirty_plain (inv : Projection.GlobalInv engine) (plain : PlainView engine)
    (dirty : List ProjectionEngine.DirtyObject)
    (changed : List (WorldId × Projection.ProjectedEntity))
    (entities : ∀ item ∈ dirty, PlainEntity (engine.policy.project item.object)) :
    PlainView (dirty.foldl ProjectionEngine.mergeDirty (engine, changed)).1 := by
  induction dirty generalizing engine changed with
  | nil => exact plain
  | cons head rest ih =>
    obtain ⟨next, step⟩ := Projection.mergeDirty_step inv changed head
    refine ih next (mergeDirty_plain plain changed head (entities head List.mem_cons_self))
      (ProjectionEngine.mergeDirty (engine, changed) head).2 fun item member => ?_
    rw [step.policy_eq]
    exact entities item (List.mem_cons_of_mem _ member)

theorem foldl_removeStale_plain (plain : PlainView engine) (stale : List WorldId) :
    PlainView (stale.foldl ProjectionEngine.removeStale engine) := by
  induction stale generalizing engine with
  | nil => exact plain
  | cons wid rest ih =>
    refine ih fun other state found => plain other state ?_
    have erased : (engine.globalView.erase wid)[other]? = some state := found
    rw [lookup_erase] at erased
    split at erased
    · cases erased
    · exact erased

theorem sweepStale_plain (plain : PlainView engine) (world : World) :
    PlainView (engine.sweepStale world).1 := by
  unfold ProjectionEngine.sweepStale
  split
  · exact @foldl_removeStale_plain { engine with
      seenEraseRevision := world.eraseRevision } plain _
  · exact plain

theorem exists_of_mapM {α β : Type} {read : α → Option β} {items : List α} {found : List β}
    (all : items.mapM read = some found) {value : β} (member : value ∈ found) :
    ∃ item, read item = some value := by
  induction items generalizing found with
  | nil =>
    obtain rfl := Option.some.inj all
    cases member
  | cons item items ih =>
    simp only [List.mapM_cons, Option.bind_eq_bind, Option.bind_eq_some_iff] at all
    obtain ⟨first, here, rest, later, same⟩ := all
    obtain rfl := Option.some.inj same
    obtain rfl | deeper := List.mem_cons.mp member
    · exact ⟨item, here⟩
    · exact ih later deeper

/-- The projection of a plain world leaves the view plain. -/
theorem refreshGlobalView_plain (inv : Projection.GlobalInv engine) (plain : PlainView engine)
    (scene : PlainWorld engine.policy world) {refreshed : ProjectionEngine}
    (refresh : engine.refreshGlobalView world tick = some refreshed) : PlainView refreshed := by
  simp only [ProjectionEngine.refreshGlobalView, Option.bind_eq_bind, Option.bind_eq_some_iff]
    at refresh
  obtain ⟨snapshotted, snapshot, objects, owned, result⟩ := refresh
  obtain ⟨pointers, erase, storage, rfl⟩ := Projection.refreshWorldSnapshot_frame snapshot
  obtain ⟨scanCache, dirtyFlag, cached⟩ := Projection.refreshScanCache_frame
    { engine.tickStart tick with
      worldSnapshot := pointers
      worldSnapshotEraseRevision := erase
      worldSnapshotStorageRevision := storage }
  simp only [ProjectionEngine.tickStart] at cached
  rw [cached] at result
  simp only at result
  have start : Projection.GlobalInv { engine.tickStart tick with
      worldSnapshot := pointers
      worldSnapshotEraseRevision := erase
      worldSnapshotStorageRevision := storage
      scanCache := scanCache
      scanCacheDirty := dirtyFlag } := ⟨inv.index_consistent, inv.index_known, inv.hashes⟩
  have merged := foldl_mergeDirty_plain start plain
    (ProjectionEngine.scanDirty engine.policy.version objects 0 scanCache) [] fun item member => by
      obtain ⟨address, held⟩ := exists_of_mapM owned (mem_scanDirty member)
      obtain ⟨bare, none⟩ := scene address item.object held
      exact plain_project bare none
  simp only [ProjectionEngine.tickStart] at merged
  generalize (ProjectionEngine.scanDirty engine.policy.version objects 0 scanCache).foldl
    ProjectionEngine.mergeDirty _ = outcome at result merged
  obtain ⟨merged_engine, changed⟩ := outcome
  simp only [Option.some.injEq] at result merged
  subst result
  exact @sweepStale_plain { merged_engine with
    tickChangedWids := (changed.insertionSort fun lhs rhs => lhs.1 ≤ rhs.1).map Prod.fst }
    merged world

end Refresh

/-- A frame on its way, with what it was made of and the view and hash that the server had when it
was taken. -/
structure Sent (buffers : StreamBuffers) where
  bytes : buffers.Buffer
  frame : StateFrame
  view : View
  viewHash : UInt64

/-- The engine, the frames of one connection that have not arrived, oldest first, and the client. -/
structure RemoteLink (buffers : StreamBuffers) where
  engine : ProjectionEngine
  inFlight : List (Sent buffers) := []
  replica : Protocol.Interpolation.ReplicaAccumulator := ∅

inductive RemoteEvent where
  | server (event : EngineEvent)
  | deliver

/-- The frame that an operation takes for `id`. -/
def takenFrame (engine : ProjectionEngine) (id : ConnectionId) : EngineEvent → Option StateFrame
  | .nextFrame other => if other = id then (engine.nextFrame id).1 else none
  | _ => none

def serverView (engine : ProjectionEngine) (id : ConnectionId) : View :=
  match engine.connections[id]? with
  | none => fun _ => none
  | some slot => Projection.viewOf slot.connection.currentView

/-- The client decodes a frame and applies it; `none` where it cannot decode it. -/
def receiveFrame (buffers : StreamBuffers) (limits : ProtocolLimits)
    (replica : Protocol.Interpolation.ReplicaAccumulator) (bytes : buffers.Buffer) :
    Option Protocol.Interpolation.ReplicaAccumulator :=
  match Protocol.decodeServerFrame buffers bytes limits with
  | .ok (.keyframe frame) => some (replica.apply (.keyframe frame))
  | .ok (.delta frame) => some (replica.apply (.delta frame))
  | .ok _ => some replica
  | .error _ => none

/-- What both ends of the stream are configured with. -/
structure StreamSetup where
  buffers : StreamBuffers
  faithful : buffers.Faithful
  serverLimits : ProtocolLimits := {}
  clientLimits : ProtocolLimits := {}
  order : VisitOrder Projection.TrackedEntity

namespace RemoteLink

variable (setup : StreamSetup) (id : ConnectionId)

/-- A frame that cannot be encoded or decoded ends the connection. -/
def step (link : RemoteLink setup.buffers) : RemoteEvent → Option (RemoteLink setup.buffers)
  | .server event =>
    (link.engine.step event).bind fun engine =>
      match takenFrame link.engine id event with
      | none => some { link with engine := engine }
      | some frame => (encodeStateFrameInto frame setup.serverLimits).map fun finished =>
        { link with
          engine := engine
          inFlight := link.inFlight ++ [⟨setup.buffers.finish finished, frame,
            serverView engine id, engine.connectionViewHash setup.order id⟩] }
  | .deliver =>
    match link.inFlight with
    | [] => none
    | sent :: rest =>
      (receiveFrame setup.buffers setup.clientLimits link.replica sent.bytes).map fun replica =>
        { link with inFlight := rest, replica := replica }

abbrev Step (before : RemoteLink setup.buffers) (event : RemoteEvent)
    (after : RemoteLink setup.buffers) : Prop :=
  before.step setup id event = some after

/-- The reference client, with everything on its way applied. -/
def reference {buffers : StreamBuffers} (link : RemoteLink buffers) : Projection.ReplicaLink :=
  ⟨link.engine, link.inFlight.foldl (fun replica sent =>
    Projection.ReplicaAccumulator.apply replica sent.frame) link.replica⟩

/-- The connection stays, every build covers what the client will not have, and the worlds are
plain. -/
def Calm {buffers : StreamBuffers} (link : RemoteLink buffers) : RemoteEvent → Prop
  | .server event => (Projection.KeepsStream id event ∧
      Projection.CoveredStep id link.reference event) ∧
      ∀ world tick, event = .onProjection world tick → PlainWorld link.engine.policy world
  | .deliver => True

/-- Each frame on its way decodes to the frame it was made of, and brings the client to the view
that the server had. -/
def Arriving (replica : Projection.ReplicaAccumulator) : List (Sent setup.buffers) → Prop
  | [] => True
  | sent :: rest =>
    (Protocol.encodeServerFrame setup.buffers (toWireFrame sent.frame) setup.serverLimits =
        some sent.bytes ∧ PlainFrame sent.frame) ∧
      (∃ current, Projection.FidsInjective current ∧ sent.view = Projection.viewOf current ∧
        sent.viewHash = Projection.viewHash setup.order current ∧
        (replica.apply sent.frame).view = sent.view) ∧
      Arriving (replica.apply sent.frame) rest

structure RemoteInv (link : RemoteLink setup.buffers) : Prop where
  link_inv : Projection.LinkInv id link.reference
  mapped : ∀ slot, link.engine.connections[id]? = some slot →
    Projection.FidsMapped slot.connection
  plain_view : PlainView link.engine
  plain_pending : ∀ slot frame, link.engine.connections[id]? = some slot →
    slot.pendingFrame = some (some frame) → PlainFrame frame
  arriving : Arriving setup link.replica link.inFlight

variable {setup : StreamSetup} {id : ConnectionId} {link after : RemoteLink setup.buffers}
  {replica : Projection.ReplicaAccumulator}

/-- The bytes of a taken frame are those of its wire frame. -/
theorem encoded_frame {frame : StateFrame} {limits : ProtocolLimits} {finished : Protocol.Finished}
    (encoded : encodeStateFrameInto frame limits = some finished) :
    Protocol.encodeServerFrame setup.buffers (toWireFrame frame) limits =
      some (setup.buffers.finish finished) := by
  have root : Protocol.encodeServerFrameInto (toWireFrame frame) limits = some finished := by
    rw [← encoded]
    unfold encodeStateFrameInto Protocol.encodeServerFrameInto
    refine congrArg Protocol.finishFrame ?_
    cases frame with
    | keyframe keyframe =>
      have counted : (Library.require ((keyframe.entities.map toWireEnter).length ≤
          limits.maxEntitiesPerFrame) : Building Unit) =
          Library.require (keyframe.entities.length ≤ limits.maxEntitiesPerFrame) :=
        require_congr (by rw [List.length_map])
      simp only [Protocol.encodeServerFrameRoot, toWireFrame, directEncodeKeyframe,
        Protocol.encodeKeyframe, directEncodeEnters_eq, toWireHeader, counted]
    | delta delta =>
      have counted : (Library.require ((delta.enters.map toWireEnter).length +
          (delta.updates.map toWireUpdate).length + (delta.leaves.map toWireLeave).length ≤
            limits.maxEntitiesPerFrame) : Building Unit) =
          Library.require (delta.enters.length + delta.updates.length + delta.leaves.length ≤
            limits.maxEntitiesPerFrame) :=
        require_congr (by rw [List.length_map, List.length_map, List.length_map])
      simp only [Protocol.encodeServerFrameRoot, toWireFrame, directEncodeDelta,
        Protocol.encodeDelta, directEncodeEnters_eq, directEncodeUpdates_eq, directEncodeLeaves_eq,
        toWireHeader, counted]
  rw [Protocol.encodeServerFrame, root]
  rfl

/-- A plain frame that arrives is applied as the reference client applies it. -/
theorem receiveFrame_eq {frame : StateFrame} {bytes : setup.buffers.Buffer}
    (encoded : Protocol.encodeServerFrame setup.buffers (toWireFrame frame) setup.serverLimits =
      some bytes) (plain : PlainFrame frame) {later : Protocol.Interpolation.ReplicaAccumulator}
    (received : receiveFrame setup.buffers setup.clientLimits replica bytes = some later) :
    later = replica.apply frame := by
  obtain ⟨observed, seen, applied⟩ := apply_observed plain replica
  unfold receiveFrame at received
  cases read : Protocol.decodeServerFrame setup.buffers bytes setup.clientLimits with
  | error failure =>
    rw [read] at received
    cases received
  | ok decoded =>
    have stored := Protocol.decodeServerFrame_stored setup.faithful encoded read
    rw [read] at received
    subst stored
    unfold observedFrame at seen
    cases frame with
    | keyframe keyframe =>
      obtain rfl := Option.some.inj seen
      exact (Option.some.inj received).symm.trans applied
    | delta delta =>
      obtain rfl := Option.some.inj seen
      exact (Option.some.inj received).symm.trans applied

theorem arriving_append {inFlight : List (Sent setup.buffers)} {sent : Sent setup.buffers}
    (arriving : Arriving setup replica inFlight)
    (last : Arriving setup (inFlight.foldl (fun replica sent => replica.apply sent.frame) replica)
      [sent]) : Arriving setup replica (inFlight ++ [sent]) := by
  induction inFlight generalizing replica with
  | nil => exact last
  | cons first rest ih =>
    obtain ⟨genuine, lands, more⟩ := arriving
    exact ⟨genuine, lands, ih more last⟩

theorem receive_eq (id : ConnectionId) (link : Projection.ReplicaLink) (event : EngineEvent) :
    link.receive id event = match takenFrame link.engine id event with
      | none => link.replica
      | some frame => link.replica.apply frame := by
  cases event with
  | nextFrame other =>
    simp only [Projection.ReplicaLink.receive, takenFrame]
    split
    · cases (link.engine.nextFrame id).1 <;> rfl
    · rfl
  | _ => rfl

/-- Only `on_projection` writes the global view. -/
theorem globalView_of_step {engine later : ProjectionEngine} {event : EngineEvent}
    (step : engine.step event = some later)
    (other : ∀ world tick, event ≠ .onProjection world tick) :
    later.globalView = engine.globalView := by
  have modified : ∀ id change,
      (engine.modifyConnection id change).2.globalView = engine.globalView := by
    intro id change
    unfold ProjectionEngine.modifyConnection
    cases engine.connections[id]? <;> rfl
  cases event with
  | onProjection world tick => exact absurd rfl (other world tick)
  | addConnection id subscription =>
    obtain rfl := Option.some.inj step
    unfold ProjectionEngine.addConnection
    split <;> rfl
  | nextFrame id =>
    obtain rfl := Option.some.inj step
    unfold ProjectionEngine.nextFrame
    cases engine.connections[id]? <;> rfl
  | acknowledge id snapshotId =>
    obtain rfl := Option.some.inj step
    unfold ProjectionEngine.acknowledge
    cases engine.connections[id]? <;> rfl
  | updateSubscription id subscription =>
    obtain rfl := Option.some.inj step
    exact modified id _
  | resetStreamEpoch id =>
    obtain rfl := Option.some.inj step
    exact modified id _
  | scheduleKeyframe id =>
    obtain rfl := Option.some.inj step
    exact modified id _
  | removeConnection id =>
    obtain rfl := Option.some.inj step
    rfl
  | changePolicy change =>
    obtain rfl := Option.some.inj step
    rfl
  | setRelevanceFilter filter =>
    obtain rfl := Option.some.inj step
    rfl

section Server

variable {engine : ProjectionEngine} {event : EngineEvent}

/-- An operation of the engine keeps the feature ids of the connection and the plainness of what
is going to be sent. -/
theorem server_slot (inv : RemoteInv setup id link) (calm : link.Calm id (.server event))
    (stepped : link.engine.step event = some engine) {slot : Slot}
    (found : engine.connections[id]? = some slot) :
    Projection.FidsMapped slot.connection ∧
      ∀ frame, slot.pendingFrame = some (some frame) → PlainFrame frame := by
  have engine_inv := inv.link_inv.engine_inv
  cases Projection.slotStep_of_step stepped found with
  | @built world tick refreshed old refresh found_old =>
    have ready := engine_inv.buildReady refresh found_old
    have plain := refreshGlobalView_plain engine_inv.global_inv inv.plain_view
      (calm.2 world tick rfl) refresh
    obtain ⟨-, steps⟩ := Projection.refreshGlobalView_step engine_inv.global_inv refresh
    have before : link.engine.connections[id]? = some old := by
      rw [steps.connections_eq] at found_old
      exact found_old
    obtain ⟨planned, -⟩ := Projection.planFrame_fids refreshed world tick (inv.mapped old before)
    refine ⟨(Projection.buildFrame_fids ready planned).mapped, fun frame pending => ?_⟩
    have built : (refreshed.buildFrame world tick old).1 = some frame := by
      simpa [ProjectionEngine.buildSlot] using pending
    exact buildFrame_plain ready plain built
  | @changed _ old other found_old =>
    refine ⟨Projection.slotEffect_fids _ id event (inv.mapped old found_old), fun frame pending => ?_⟩
    obtain ⟨waiting, -, -⟩ := Projection.slotEffect_pending calm.1.1 pending
    exact inv.plain_pending old frame found_old waiting
  | created absent =>
    refine ⟨.empty ⟨rfl, rfl, rfl, rfl, rfl⟩ rfl, fun frame pending => ?_⟩
    cases pending

theorem server_view (inv : RemoteInv setup id link) (calm : link.Calm id (.server event))
    (stepped : link.engine.step event = some engine) : PlainView engine := by
  by_cases projects : ∃ world tick, event = .onProjection world tick
  · obtain ⟨world, tick, rfl⟩ := projects
    obtain ⟨refreshed, refresh, rfl⟩ := Option.map_eq_some_iff.mp stepped
    have plain : PlainView refreshed := refreshGlobalView_plain
      inv.link_inv.engine_inv.global_inv inv.plain_view (calm.2 world tick rfl) refresh
    exact plain
  · have same := globalView_of_step stepped fun world tick equal => projects ⟨world, tick, equal⟩
    intro wid state found
    rw [same] at found
    exact inv.plain_view wid state found

/-- The reference client makes the same step, the frame taken being applied at once. -/
theorem server_reference (stepped : link.engine.step event = some engine)
    (served : link.step setup id (.server event) = some after) :
    after.engine = engine ∧ link.reference.step id event = some after.reference := by
  have reference : link.reference.step id event =
      some ⟨engine, link.reference.receive id event⟩ := by
    rw [Projection.ReplicaLink.step]
    change (link.engine.step event).map _ = _
    rw [stepped]
    rfl
  rw [reference, receive_eq]
  simp only [step, stepped, Option.bind_some] at served
  change _ ∧ some (Projection.ReplicaLink.mk engine (match takenFrame link.engine id event with
    | none => link.reference.replica
    | some frame => link.reference.replica.apply frame)) = _
  cases taken : takenFrame link.engine id event with
  | none =>
    rw [taken] at served
    obtain rfl := Option.some.inj served
    exact ⟨rfl, rfl⟩
  | some frame =>
    rw [taken] at served
    obtain ⟨finished, -, rfl⟩ := Option.map_eq_some_iff.mp served
    refine ⟨rfl, ?_⟩
    simp only [RemoteLink.reference, List.foldl_append, List.foldl_cons, List.foldl_nil]

theorem taken_slot {frame : StateFrame} (stepped : link.engine.step event = some engine)
    (taken : takenFrame link.engine id event = some frame) :
    event = .nextFrame id ∧ ∃ old, link.engine.connections[id]? = some old ∧
      old.pendingFrame = some (some frame) ∧
      engine.connections[id]? = some { old with pendingFrame := none } := by
  cases event with
  | nextFrame other =>
    simp only [takenFrame] at taken
    split at taken
    · next same =>
      subst same
      obtain rfl := Option.some.inj stepped
      refine ⟨rfl, ?_⟩
      unfold ProjectionEngine.nextFrame at taken ⊢
      cases held : link.engine.connections[other]? with
      | none =>
        rw [held] at taken
        cases taken
      | some old =>
        rw [held] at taken
        refine ⟨old, rfl, Option.join_eq_some_iff.mp taken, ?_⟩
        exact lookup_insert_self _ _ _
    · cases taken
  | _ => cases taken

/-- What the engine does keeps the invariant. -/
theorem server_inv (inv : RemoteInv setup id link) (calm : link.Calm id (.server event))
    (served : link.step setup id (.server event) = some after) : RemoteInv setup id after := by
  obtain ⟨engine, stepped, -⟩ := Option.bind_eq_some_iff.mp served
  obtain ⟨same, reference⟩ := server_reference stepped served
  have link_inv : Projection.LinkInv id after.reference := by
    refine ⟨?_, Projection.pendingAgrees_step calm.1.1 calm.1.2 inv.link_inv.engine_inv reference
      inv.link_inv.pending⟩
    change Projection.EngineInv after.engine
    rw [same]
    exact inv.link_inv.engine_inv.step stepped
  refine ⟨link_inv, fun slot found => ?_, ?_, fun slot frame found => ?_, ?_⟩
  · rw [same] at found
    exact (server_slot inv calm stepped found).1
  · rw [same]
    exact server_view inv calm stepped
  · rw [same] at found
    exact (server_slot inv calm stepped found).2 frame
  · simp only [step, stepped, Option.bind_some] at served
    cases taken : takenFrame link.engine id event with
    | none =>
      rw [taken] at served
      obtain rfl := Option.some.inj served
      exact inv.arriving
    | some frame =>
      rw [taken] at served
      obtain ⟨finished, encoded, rfl⟩ := Option.map_eq_some_iff.mp served
      obtain ⟨rfl, old, held, waiting, now⟩ := taken_slot stepped taken
      refine arriving_append inv.arriving ⟨⟨encoded_frame encoded,
        inv.plain_pending old frame held waiting⟩, ⟨old.connection.currentView,
        (inv.mapped old held).current_injective, ?_, ?_, ?_⟩, trivial⟩
      · simp only [serverView, now]
      · simp only [ProjectionEngine.connectionViewHash, now]
      · simp only [serverView, now]
        exact inv.link_inv.pending old frame held waiting

end Server

/-- What arrives keeps the invariant: the client then holds what the server had. -/
theorem deliver_inv (inv : RemoteInv setup id link)
    (delivered : link.step setup id .deliver = some after) :
    RemoteInv setup id after ∧ ∃ sent, link.inFlight = sent :: after.inFlight ∧
      ∃ current, Projection.FidsInjective current ∧ sent.view = Projection.viewOf current ∧
        sent.viewHash = Projection.viewHash setup.order current ∧
        Projection.ReplicaAccumulator.view after.replica = sent.view := by
  have arriving := inv.arriving
  unfold step at delivered
  cases flight : link.inFlight with
  | nil =>
    simp only [flight] at delivered
    cases delivered
  | cons sent rest =>
    simp only [flight] at delivered
    rw [flight] at arriving
    obtain ⟨⟨encoded, plain⟩, lands, more⟩ := arriving
    obtain ⟨replica, received, rfl⟩ := Option.map_eq_some_iff.mp delivered
    obtain rfl := receiveFrame_eq encoded plain received
    have reference : (RemoteLink.mk link.engine rest
        (Projection.ReplicaAccumulator.apply link.replica sent.frame)).reference =
        link.reference := by
      simp only [RemoteLink.reference, flight, List.foldl_cons]
    refine ⟨⟨?_, inv.mapped, inv.plain_view, inv.plain_pending, more⟩, sent, rfl, lands⟩
    rw [reference]
    exact inv.link_inv

theorem step_inv {event : RemoteEvent} (inv : RemoteInv setup id link)
    (calm : link.Calm id event) (stepped : link.step setup id event = some after) :
    RemoteInv setup id after := by
  cases event with
  | server event => exact server_inv inv calm stepped
  | deliver => exact (deliver_inv inv stepped).1

theorem inv_initial (config : Projection.ProjectionConfig) (policy : Projection.ProjectionPolicy) :
    RemoteInv setup id { engine := { config := config, policy := policy } } := by
  refine ⟨⟨Projection.EngineInv.initial config policy, fun slot frame found => ?_⟩,
    fun slot found => ?_, fun wid state found => ?_, fun slot frame found => ?_, trivial⟩
  · simp [RemoteLink.reference] at found
  · simp at found
  · simp at found
  · simp at found

/-- The frame that arrives next brings the client to what the server had when it was taken. -/
def ArrivesWhole (setup : StreamSetup) (id : ConnectionId) (link : RemoteLink setup.buffers) :
    Prop :=
  ∀ sent rest after, link.inFlight = sent :: rest → link.step setup id .deliver = some after →
    Projection.ReplicaAccumulator.view after.replica = sent.view ∧
      ∀ order, after.replica.hash order = sent.viewHash

/-- However far the client is behind, each frame that reaches it through the bytes of the stream
gives its replica the entities, feature ids and hashes of the view that the server kept for it when
it took the frame, and `hash` gives what `connection_view_hash` gave there. -/
theorem remote_replica_agrees (setup : StreamSetup) (id : ConnectionId)
    (config : Projection.ProjectionConfig) (policy : Projection.ProjectionPolicy)
    {events : List RemoteEvent} {link : RemoteLink setup.buffers}
    (run : GuardedRun (Step setup id) (Calm id)
      { engine := { config := config, policy := policy } } events link) :
    ArrivesWhole setup id link := by
  have inv : RemoteInv setup id link := run.invariant (inv_initial config policy)
    fun before event after calm stepped inv => step_inv inv calm stepped
  intro sent rest after flight delivered
  obtain ⟨-, first, split, current, injective, view, hashed, lands⟩ := deliver_inv inv delivered
  obtain ⟨rfl, -⟩ := List.cons.inj (flight.symm.trans split)
  refine ⟨lands, fun order => ?_⟩
  rw [hashed]
  exact Projection.hash_of_view injective (lands.trans view) setup.order order

/-- A runtime that keeps the calls, and tables visited from the last id to the first. -/
def traceSetup : StreamSetup where
  buffers := Protocol.traceBuffers
  faithful := Protocol.traceBuffers_faithful
  order := .descending _

/-- Objects without relations, properties and state, and without negative zeros. -/
def bareWorld (world : World) : Bool :=
  world.addresses.all fun address => (world.ownedObject address).all fun object =>
    object.relations.isEmpty && object.properties.isEmpty && object.state.isEmpty &&
      decide (object.position.x ≠ Protocol.negativeZero ∧
        object.position.y ≠ Protocol.negativeZero ∧ object.position.z ≠ Protocol.negativeZero)

theorem plainWorld_of_bare (policy : Projection.ProjectionPolicy) {world : World}
    (bare : bareWorld world = true) : PlainWorld policy world := by
  intro address object held
  have owned : address ∈ world.addresses := by
    unfold World.ownedObject at held
    split at held
    · assumption
    · cases held
  have checked := List.all_eq_true.mp bare address owned
  simp only [held, Option.all_some, Bool.and_eq_true, List.isEmpty_iff, decide_eq_true_eq]
    at checked
  obtain ⟨⟨⟨relations, properties⟩, state⟩, position⟩ := checked
  refine ⟨fun relation member => ?_, ⟨position, fun key found => ?_, fun key found => ?_⟩⟩
  · rw [relations] at member
    cases member
  · rw [Std.ExtTreeMap.isEmpty_iff.mp properties] at found
    simp at found
  · rw [Std.ExtTreeMap.isEmpty_iff.mp state] at found
    simp at found

def calmCheck (link : RemoteLink traceSetup.buffers) : RemoteEvent → Bool
  | .server event => Projection.promptStep link.reference event &&
      match event with
      | .onProjection world _ => bareWorld world
      | _ => true
  | .deliver => true

theorem calmCheck_sound (link : RemoteLink traceSetup.buffers) (event : RemoteEvent)
    (checked : calmCheck link event = true) : link.Calm 7 event := by
  cases event with
  | server event =>
    obtain ⟨prompt, bare⟩ := Bool.and_eq_true_iff.mp checked
    refine ⟨Projection.promptStep_sound link.reference event prompt, ?_⟩
    rintro world tick rfl
    exact plainWorld_of_bare _ bare
  | deliver => trivial

/-- The first of two frames arrives after the server has taken the second. -/
def laggingEvents : List RemoteEvent :=
  [.server (.addConnection 7 Projection.originArea),
    .server (.onProjection Projection.originWorld 1), .server (.nextFrame 7),
    .server (.acknowledge 7 1), .server (.onProjection Projection.originWorldBoth 2),
    .server (.nextFrame 7), .server (.acknowledge 7 2), .deliver]

theorem remote_replica_agrees_lagging :
    ∃ link, runLabels (step traceSetup 7) { engine := { config := Projection.originConfig } }
        laggingEvents = some link ∧ ArrivesWhole traceSetup 7 link := by
  have defined : (runLabels (fun link event =>
      if calmCheck link event then step traceSetup 7 link event else none)
        { engine := { config := Projection.originConfig } } laggingEvents).isSome = true := by
    decide +kernel
  obtain ⟨link, computed⟩ := Option.isSome_iff_exists.mp defined
  have run := GuardedRun.of_checked calmCheck_sound computed
  exact ⟨link, run.computed, remote_replica_agrees traceSetup 7 Projection.originConfig {} run⟩

end RemoteLink

end GeoWorld.Gateway
