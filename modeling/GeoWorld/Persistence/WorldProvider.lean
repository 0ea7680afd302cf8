import Mathlib
import GeoWorld.Persistence.CheckpointCodec
import GeoWorld.Persistence.PayloadBytes
import GeoWorld.WorldModel.CopyOnWrite

/-!
The checkpoint provider of the world: how a frozen snapshot becomes the payload of a
block, and how a payload is read back into a world. The payload lists the objects by
ascending id, and the reader takes them in that order only.
-/

namespace GeoWorld.Persistence

open WorldModel Library ByteReader

def worldProviderId : ByteString := asciiBytes "world".toList

def worldSchemaVersion : UInt32 := 1

def maxWorldObjects : Nat := 2000000

def maxWorldCollectionItems : Nat := 2000000

def maxWorldStringBytes : Nat := 16 * 1024 * 1024

def worldLimits : PayloadLimits where
  stringBytes := maxWorldStringBytes
  collectionItems := maxWorldCollectionItems
  emptyKeys := true
  stringBytes_lt := by decide
  collectionItems_lt := by decide

structure WorldSnapshot where
  objects : List WorldObject := []
  nextRevision : UInt64 := 0
  eraseRevision : UInt64 := 0
  deriving DecidableEq

def restoreSnapshot (world : World) (snapshot : WorldSnapshot) : World :=
  world.restore snapshot.objects snapshot.nextRevision snapshot.eraseRevision.toNat

/-- The order in which a build visits the objects of a hashed table. -/
structure Traversal where
  visit : WidMap ObjectEntry → List (WorldId × ObjectEntry)
  complete : ∀ objects, (visit objects).Perm objects.toList

def Traversal.ascending : Traversal :=
  ⟨fun objects => objects.toList, fun _ => List.Perm.refl _⟩

def Traversal.descending : Traversal :=
  ⟨fun objects => objects.toList.reverse, fun _ => List.reverse_perm _⟩

def lifecycleOf (raw : UInt8) : LifecycleState :=
  if raw = 0 then .staged
  else if raw = 1 then .active
  else if raw = 2 then .suspended
  else .retired

def writeRelation (relation : Relation) : ByteString :=
  PayloadWriter.u64 relation.target ++ (PayloadWriter.string relation.type ++
    writeBag relation.attributes)

def readRelation (limits : PayloadLimits) : ByteReader Relation := do
  let target ← PayloadReader.u64
  let type ← PayloadReader.string limits
  let attributes ← readBag limits
  return ⟨target, type, attributes⟩

namespace WorldCheckpointProvider

def schema : CheckpointSchema := ⟨worldProviderId, worldSchemaVersion⟩

def writeObject (object : WorldObject) : ByteString :=
  PayloadWriter.u64 object.id ++ (PayloadWriter.u64 object.version ++
    (PayloadWriter.u64 object.revision ++ (PayloadWriter.u8 object.lifecycle.code ++
    (PayloadWriter.f64 object.position.x ++ (PayloadWriter.f64 object.position.y ++
    (PayloadWriter.f64 object.position.z ++ (PayloadWriter.string object.geometryRef ++
    (PayloadWriter.string object.semanticType ++ (writeBag object.properties ++
    (writeBag object.state ++ (PayloadWriter.u32 object.relations.length ++
    (object.relations.flatMap writeRelation ++ (PayloadWriter.u32 object.capabilities.length ++
    object.capabilities.flatMap PayloadWriter.string)))))))))))))

/-- Blocks are read through the heap the snapshot shares with the world. -/
def encode (traversal : Traversal) (heap : Std.ExtTreeMap Address WorldObject compare)
    (frozen : FrozenStorage) : CheckpointBlock :=
  let objects := (traversal.visit frozen.objects).filterMap fun entry => heap[entry.2.object]?
  let sorted := objects.insertionSort fun left right => left.id ≤ right.id
  { schema := schema
    payload := PayloadWriter.u64 (UInt64.ofNat frozen.objects.size) ++
      (sorted.flatMap writeObject ++ (PayloadWriter.u64 frozen.nextRevision ++
      PayloadWriter.u64 (UInt64.ofNat frozen.eraseRevision))) }

def readObject (previousId : WorldId) : ByteReader WorldObject := do
  let id ← PayloadReader.u64
  let version ← PayloadReader.u64
  let revision ← PayloadReader.u64
  let lifecycleRaw ← PayloadReader.u8
  let x ← PayloadReader.f64
  let y ← PayloadReader.f64
  let z ← PayloadReader.f64
  let geometryRef ← PayloadReader.string worldLimits
  let semanticType ← PayloadReader.string worldLimits
  let properties ← readBag worldLimits
  let state ← readBag worldLimits
  let relationCount ← PayloadReader.u32
  guard (WorldId.valid id ∧ version ≠ 0 ∧ revision ≠ 0 ∧
    ¬(WorldId.valid previousId ∧ id ≤ previousId) ∧ relationCount ≤ maxWorldCollectionItems)
  guard (lifecycleRaw ≤ LifecycleState.retired.code)
  let relations ← times (readRelation worldLimits) relationCount
  let capabilityCount ← PayloadReader.count32 worldLimits
  let capabilities ← times (PayloadReader.string worldLimits) capabilityCount
  return {
    id := id
    geometryRef := geometryRef
    position := ⟨x, y, z⟩
    semanticType := semanticType
    properties := properties
    state := state
    relations := relations
    capabilities := capabilities
    lifecycle := lifecycleOf lifecycleRaw
    version := version
    revision := revision }

/-- So many objects and their largest revision. -/
def readObjects : Nat → WorldId → UInt64 → ByteReader (List WorldObject × UInt64)
  | 0, _, maximumRevision => pure ([], maximumRevision)
  | count + 1, previousId, maximumRevision => do
    let object ← readObject previousId
    let later ← readObjects count object.id (max maximumRevision object.revision)
    return (object :: later.1, later.2)

def readSnapshot : ByteReader WorldSnapshot := do
  let objectCount ← PayloadReader.u64
  guard (objectCount.toNat ≤ maxWorldObjects)
  let objects ← readObjects objectCount.toNat 0 0
  let nextRevision ← PayloadReader.u64
  guard (objects.2 ≤ nextRevision)
  let eraseRevision ← PayloadReader.u64
  return ⟨objects.1, nextRevision, eraseRevision⟩

def restore (world : World) (payload : ByteString) (schemaVersion : UInt32) :
    PersistenceError × World :=
  if schemaVersion ≠ worldSchemaVersion then (.providerVersionMismatch, world)
  else match readSnapshot.readAll payload with
    | none => (.checkpointInvalid, world)
    | some snapshot => (.none, restoreSnapshot world snapshot)

/-- A world that is thrown away takes the restore. -/
def validateRestore (payload : ByteString) (schemaVersion : UInt32) : PersistenceError :=
  (restore {} payload schemaVersion).1

end WorldCheckpointProvider

section Limits

variable (limits : PayloadLimits)

structure PayloadLimits.AllowsRelation (relation : Relation) : Prop where
  type : limits.AllowsString relation.type
  attributes : limits.AllowsBag relation.attributes

structure PayloadLimits.AllowsObject (object : WorldObject) : Prop where
  geometryRef : limits.AllowsString object.geometryRef
  semanticType : limits.AllowsString object.semanticType
  properties : limits.AllowsBag object.properties
  state : limits.AllowsBag object.state
  relationCount : object.relations.length ≤ limits.collectionItems
  relations : ∀ relation ∈ object.relations, limits.AllowsRelation relation
  capabilityCount : object.capabilities.length ≤ limits.collectionItems
  capabilities : ∀ capability ∈ object.capabilities, limits.AllowsString capability

instance (relation : Relation) : Decidable (limits.AllowsRelation relation) :=
  decidable_of_iff (limits.AllowsString relation.type ∧ limits.AllowsBag relation.attributes)
    ⟨fun all => ⟨all.1, all.2⟩, fun fits => ⟨fits.type, fits.attributes⟩⟩

instance (object : WorldObject) : Decidable (limits.AllowsObject object) :=
  decidable_of_iff ((limits.AllowsString object.geometryRef ∧
      limits.AllowsString object.semanticType) ∧ (limits.AllowsBag object.properties ∧
      limits.AllowsBag object.state) ∧ (object.relations.length ≤ limits.collectionItems ∧
      ∀ relation ∈ object.relations, limits.AllowsRelation relation) ∧
      object.capabilities.length ≤ limits.collectionItems ∧
      ∀ capability ∈ object.capabilities, limits.AllowsString capability)
    ⟨fun all => ⟨all.1.1, all.1.2, all.2.1.1, all.2.1.2, all.2.2.1.1, all.2.2.1.2, all.2.2.2.1,
      all.2.2.2.2⟩,
    fun fits => ⟨⟨fits.geometryRef, fits.semanticType⟩, ⟨fits.properties, fits.state⟩,
      ⟨fits.relationCount, fits.relations⟩, fits.capabilityCount, fits.capabilities⟩⟩

end Limits

/-- The counters of an object against the last revision that was given out. -/
structure CountersIntact (nextRevision : UInt64) (object : WorldObject) : Prop where
  version : object.version ≠ 0
  revision : object.revision ≠ 0
  given : object.revision ≤ nextRevision

section RoundTrip

theorem revision_max_le {first second bound : UInt64} :
    max first second ≤ bound ↔ first ≤ bound ∧ second ≤ bound := by
  change (if first ≤ second then second else first) ≤ bound ↔ _
  split <;> rename_i before <;> rw [UInt64.le_iff_toNat_le] at * <;>
    simp only [UInt64.le_iff_toNat_le] <;> omega

@[simp] theorem lifecycleOf_code (state : LifecycleState) :
    lifecycleOf state.code = state := by
  cases state <;> rfl

theorem lifecycle_code_le (state : LifecycleState) :
    state.code ≤ LifecycleState.retired.code := by
  cases state <;> decide

theorem reads_relation {limits : PayloadLimits} {relation : Relation}
    (fits : limits.AllowsRelation relation) :
    Reads (readRelation limits) (writeRelation relation) relation :=
  (reads_u64 relation.target).bind ((reads_string fits.type).bind
    ((reads_bag fits.attributes).last (Reads.pure relation)))

namespace WorldCheckpointProvider

theorem reads_object {object : WorldObject} {previousId nextRevision : UInt64}
    (fits : worldLimits.AllowsObject object) (intact : CountersIntact nextRevision object)
    (valid : WorldId.valid object.id) (ascending : previousId < object.id) :
    Reads (readObject previousId) (writeObject object) object := by
  have accepted : WorldId.valid object.id ∧ object.version ≠ 0 ∧ object.revision ≠ 0 ∧
      ¬(WorldId.valid previousId ∧ object.id ≤ previousId) ∧
      object.relations.length ≤ maxWorldCollectionItems :=
    ⟨valid, intact.version, intact.revision,
      fun before => absurd ascending (UInt64.not_lt.mpr before.2), fits.relationCount⟩
  have counted : Reads PayloadReader.u32 (PayloadWriter.u32 object.relations.length)
      object.relations.length :=
    Reads.fixed (fits.relationCount.trans_lt worldLimits.collectionItems_lt)
  refine (reads_u64 object.id).bind ((reads_u64 object.version).bind
    ((reads_u64 object.revision).bind ((reads_u8 object.lifecycle.code).bind
    ((reads_u64 object.position.x).bind ((reads_u64 object.position.y).bind
    ((reads_u64 object.position.z).bind ((reads_string fits.geometryRef).bind
    ((reads_string fits.semanticType).bind ((reads_bag fits.properties).bind
    ((reads_bag fits.state).bind (counted.bind (Reads.guard accepted
    (Reads.guard (lifecycle_code_le _) ?_)))))))))))))
  refine (Reads.times fun relation member => reads_relation (fits.relations relation member)).bind
    ((reads_count32 fits.capabilityCount).bind
    ((Reads.times fun capability member => reads_string (fits.capabilities capability member)).last
      ?_))
  rw [lifecycleOf_code]
  exact Reads.pure object

theorem reads_objects {objects : List WorldObject}
    {previousId maximumRevision nextRevision : UInt64}
    (fits : ∀ object ∈ objects, worldLimits.AllowsObject object)
    (intact : ∀ object ∈ objects, CountersIntact nextRevision object)
    (valid : ∀ object ∈ objects, WorldId.valid object.id)
    (later : ∀ object ∈ objects, previousId < object.id)
    (ascending : objects.Pairwise fun first second => first.id < second.id) :
    Reads (readObjects objects.length previousId maximumRevision) (objects.flatMap writeObject)
      (objects, objects.foldl (fun maximum object => max maximum object.revision)
        maximumRevision) := by
  induction objects generalizing previousId maximumRevision with
  | nil => exact Reads.pure ([], maximumRevision)
  | cons object objects ih =>
    rw [List.forall_mem_cons] at fits intact valid later
    obtain ⟨behind, ascending⟩ := List.pairwise_cons.mp ascending
    rw [List.flatMap_cons, List.length_cons, readObjects]
    exact (reads_object fits.1 intact.1 valid.1 later.1).bind
      ((ih fits.2 intact.2 valid.2 behind ascending).last (Reads.pure _))

/-- A payload is read back when its objects are in order, within the limits and counted. -/
theorem reads_snapshot {objects : List WorldObject} {nextRevision eraseRevision : UInt64}
    (few : objects.length ≤ maxWorldObjects)
    (fits : ∀ object ∈ objects, worldLimits.AllowsObject object)
    (intact : ∀ object ∈ objects, CountersIntact nextRevision object)
    (valid : ∀ object ∈ objects, WorldId.valid object.id)
    (ascending : objects.Pairwise fun first second => first.id < second.id) :
    Reads readSnapshot (PayloadWriter.u64 (UInt64.ofNat objects.length) ++
      (objects.flatMap writeObject ++ (PayloadWriter.u64 nextRevision ++
      PayloadWriter.u64 eraseRevision))) ⟨objects, nextRevision, eraseRevision⟩ := by
  have small : objects.length < 2 ^ 64 := few.trans_lt (by decide)
  have exact_size : (UInt64.ofNat objects.length).toNat = objects.length :=
    UInt64.toNat_ofNat_of_lt' small
  have bounded : ∀ maximum : UInt64, maximum ≤ nextRevision →
      objects.foldl (fun maximum object => max maximum object.revision) maximum ≤
        nextRevision := by
    clear few fits valid ascending small exact_size
    induction objects with
    | nil => exact fun _ below => below
    | cons object objects ih =>
      rw [List.forall_mem_cons] at intact
      exact fun maximum below => ih intact.2 _ (revision_max_le.mpr ⟨below, intact.1.given⟩)
  refine (reads_u64 (UInt64.ofNat objects.length)).bind ?_
  rw [exact_size]
  refine Reads.guard few ((reads_objects fits intact valid (fun object member => ?_)
    ascending).bind ((reads_u64 nextRevision).bind (Reads.guard (bounded 0 ?_)
    ((reads_u64 eraseRevision).last (Reads.pure _)))))
  · have nonzero := valid object member
    simp only [WorldId.valid, bne_iff_ne, ne_eq] at nonzero
    exact UInt64.pos_iff_ne_zero.mpr nonzero
  · exact UInt64.zero_le

/-- An object that was read has been given a version and a revision. -/
theorem ensures_object (previousId : WorldId) :
    Ensures (readObject previousId) fun object => object.version ≠ 0 ∧ object.revision ≠ 0 := by
  refine .skip fun id => .skip fun version => .skip fun revision => .skip fun lifecycleRaw =>
    .skip fun x => .skip fun y => .skip fun z => .skip fun geometryRef => .skip fun semanticType =>
    .skip fun properties => .skip fun state => .skip fun relationCount =>
    .guard fun accepted => .guard fun _ => .skip fun relations => .skip fun capabilityCount =>
    .skip fun capabilities => .pure ⟨accepted.2.1, accepted.2.2.1⟩

theorem ensures_objects (count : Nat) (previousId : WorldId) (maximumRevision : UInt64) :
    Ensures (readObjects count previousId maximumRevision) fun read =>
      maximumRevision ≤ read.2 ∧ ∀ object ∈ read.1, CountersIntact read.2 object := by
  induction count generalizing previousId maximumRevision with
  | zero => exact .pure ⟨UInt64.le_refl _, by simp⟩
  | succ count ih =>
    refine (ensures_object previousId).bind fun object counted =>
      (ih object.id (max maximumRevision object.revision)).bind fun later rest => .pure ?_
    obtain ⟨kept, given⟩ := revision_max_le.mp rest.1
    refine ⟨kept, ?_⟩
    rw [List.forall_mem_cons]
    exact ⟨⟨counted.1, counted.2, given⟩, rest.2⟩

/-- Whatever payload is accepted, its objects are counted. -/
theorem ensures_snapshot : Ensures readSnapshot fun snapshot =>
    ∀ object ∈ snapshot.objects, CountersIntact snapshot.nextRevision object := by
  refine .skip fun objectCount => .guard fun _ =>
    (ensures_objects objectCount.toNat 0 0).bind fun objects counted =>
    .skip fun nextRevision => .guard fun given => .skip fun eraseRevision => .pure ?_
  intro object member
  have held := counted.2 object member
  exact ⟨held.version, held.revision, UInt64.le_trans held.given given⟩

end WorldCheckpointProvider

end RoundTrip

end GeoWorld.Persistence
