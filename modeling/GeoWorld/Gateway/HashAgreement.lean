import Mathlib
import GeoWorld.Gateway.FrameCodec
import GeoWorld.Protocol.EntityHash

/-!
The two hashes of one entity: the server folds the projection, the client the
wire entity it holds. They fold the same bytes just when no allowed relation
has attributes and, once the entity went through a frame, when none of its
doubles is a negative zero.
-/

namespace GeoWorld.Gateway

open WorldModel Library
open Protocol (foldBytes foldBytes_append frontBytes backBytes countedBytes relationBytes
  textBytes bagBytes u64Bytes wireEntityBytes wireRelationBytes wireEntityHash
  negativeZero ProtocolLimits)

/-- A relation as the server folds it, attributes included. -/
def fullRelationBytes (relation : Relation) : List UInt8 :=
  relationBytes relation.type relation.target (bagBytes relation.attributes)

/-- The bytes behind `projected_entity_hash`. -/
def projectedEntityBytes (entity : Projection.ProjectedEntity) : List UInt8 :=
  frontBytes (toWireEntity entity) ++
    (countedBytes fullRelationBytes entity.relations ++ backBytes (toWireEntity entity))

theorem value_eq_foldBytes (hash : UInt64) (value : Value) :
    Projection.HashWriter.value hash value =
      foldBytes hash (Protocol.valueBytes value) := by
  rw [← Protocol.foldValue_eq]
  cases value <;> rfl

theorem text_eq_foldBytes (hash : UInt64) (text : ByteString) :
    Projection.HashWriter.text hash text = foldBytes hash (textBytes text) :=
  Protocol.foldText_eq hash text

theorem bag_eq_foldBytes (hash : UInt64) (bag : PropertyBag) :
    Projection.HashWriter.bag hash bag = foldBytes hash (bagBytes bag) := by
  have each : ∀ (h : UInt64) (entry : ByteString × Value),
      Projection.HashWriter.value (Projection.HashWriter.text h entry.1) entry.2 =
        foldBytes h (Protocol.entryBytes entry) := by
    intro h entry
    rw [Protocol.entryBytes, foldBytes_append, ← text_eq_foldBytes, ← value_eq_foldBytes]
  rw [bagBytes, foldBytes_append, ← Protocol.foldl_eq_foldBytes each]
  rfl

theorem texts_eq_foldBytes (hash : UInt64) (texts : List ByteString) :
    Projection.HashWriter.texts hash texts = foldBytes hash (countedBytes textBytes texts) :=
  Protocol.foldl_counted_eq Protocol.foldText_eq hash texts

theorem relations_eq_foldBytes (hash : UInt64) (relations : List Relation) :
    Projection.HashWriter.relations hash relations =
      foldBytes hash (countedBytes fullRelationBytes relations) := by
  have each : ∀ (h : UInt64) (relation : Relation),
      Projection.HashWriter.bag (Projection.HashWriter.u64
        (Projection.HashWriter.text h relation.type) relation.target)
        relation.attributes = foldBytes h (fullRelationBytes relation) := by
    intro h relation
    rw [fullRelationBytes, relationBytes, foldBytes_append, foldBytes_append,
      ← text_eq_foldBytes, bag_eq_foldBytes]
    rfl
  exact Protocol.foldl_counted_eq each hash relations

theorem projectedEntityHash_eq (entity : Projection.ProjectedEntity) :
    Projection.projectedEntityHash entity =
      foldBytes Protocol.fnvOffset (projectedEntityBytes entity) := by
  simp only [Projection.projectedEntityHash, text_eq_foldBytes, bag_eq_foldBytes,
    relations_eq_foldBytes, texts_eq_foldBytes]
  simp only [projectedEntityBytes, frontBytes, backBytes, foldBytes_append, toWireEntity,
    toWireLifecycle_code, toWireFrequency_code]
  rfl

/-- A bag that takes no more bytes than an empty one is empty. -/
theorem bagBytes_length_eq_iff (bag : PropertyBag) :
    (bagBytes bag).length = (u64Bytes 0).length ↔ bag = ∅ := by
  constructor
  · intro same
    rw [bagBytes, List.length_append, Protocol.u64Bytes_length, Protocol.u64Bytes_length]
      at same
    have none : bag.toList.flatMap Protocol.entryBytes = [] :=
      List.length_eq_zero_iff.mp (by omega)
    rw [List.flatMap_eq_nil_iff] at none
    apply Std.ExtTreeMap.ext_getElem?
    intro key
    rw [Std.ExtTreeMap.getElem?_empty, Option.eq_none_iff_forall_ne_some]
    intro value found
    have member := Std.ExtTreeMap.mem_toList_iff_getElem?_eq_some.mpr found
    -- Every entry starts with the eight bytes of its key's length.
    have shorter := congrArg List.length (none (key, value) member)
    simp only [Protocol.entryBytes, textBytes, List.length_append,
      Protocol.u64Bytes_length, List.length_nil] at shorter
    omega
  · intro empty
    subst empty
    rfl

/-- The relations fold to the same bytes on both sides just when none of them
has attributes. -/
theorem relationBytes_eq_iff (relations : List Relation) :
    countedBytes wireRelationBytes (relations.map toWireRelation) =
        countedBytes fullRelationBytes relations ↔
      ∀ relation ∈ relations, relation.attributes = ∅ := by
  have length : ∀ relation : Relation,
      (fullRelationBytes relation).length =
        (wireRelationBytes (toWireRelation relation)).length ↔
      relation.attributes = ∅ := by
    intro relation
    rw [← bagBytes_length_eq_iff]
    simp only [fullRelationBytes, wireRelationBytes, relationBytes, toWireRelation,
      List.length_append, Nat.add_left_cancel_iff]
  have shorter : ∀ relation : Relation,
      (wireRelationBytes (toWireRelation relation)).length ≤
        (fullRelationBytes relation).length := by
    intro relation
    simp only [fullRelationBytes, wireRelationBytes, relationBytes, toWireRelation,
      bagBytes, List.length_append, Protocol.u64Bytes_length]
    omega
  constructor
  · intro same relation member
    have total := congrArg List.length same
    simp only [countedBytes, List.length_append, List.flatMap_map,
      Protocol.u64Bytes_length, Nat.add_left_cancel_iff] at total
    exact (length relation).mp
      (Protocol.flatMap_lengths_meet shorter relations total.symm relation member)
  · intro empty
    simp only [countedBytes, List.length_map, List.flatMap_map]
    refine congrArg _ (List.flatMap_congr fun relation member => ?_)
    rw [fullRelationBytes, empty relation member]
    rfl

theorem wireEntityBytes_eq_iff (entity : Projection.ProjectedEntity) :
    wireEntityBytes (toWireEntity entity) = projectedEntityBytes entity ↔
      ∀ relation ∈ entity.relations, relation.attributes = ∅ := by
  rw [← relationBytes_eq_iff]
  simp only [wireEntityBytes, projectedEntityBytes, List.append_cancel_left_eq,
    List.append_cancel_right_eq]
  rfl

/-- The same for the entity as the client reads it from a frame. -/
theorem storedEntityBytes_eq_iff (entity : Projection.ProjectedEntity) :
    wireEntityBytes (toWireEntity entity).stored = projectedEntityBytes entity ↔
      (∀ relation ∈ entity.relations, relation.attributes = ∅) ∧
        (toWireEntity entity).Kept := by
  rw [← relationBytes_eq_iff, ← Protocol.frontBytes_stored_eq_iff]
  simp only [wireEntityBytes, projectedEntityBytes]
  rw [Protocol.append_eq_iff (Protocol.frontBytes_stored_length _), and_comm]
  refine and_congr_left fun _ => ?_
  change _ ++ backBytes (toWireEntity entity) = _ ↔ _
  rw [List.append_cancel_right_eq]
  rfl

/-- No relation that the policy lets through has attributes. -/
def RelationsBare (policy : Projection.ProjectionPolicy) (object : WorldObject) : Prop :=
  ∀ relation ∈ object.relations,
    policy.allowedRelationTypes.contains relation.type → relation.attributes = ∅

/-- No coordinate and no double that the policy lets through is a negative zero. -/
structure NoNegativeZero (policy : Projection.ProjectionPolicy) (object : WorldObject) :
    Prop where
  position : object.position.x ≠ negativeZero ∧ object.position.y ≠ negativeZero ∧
    object.position.z ≠ negativeZero
  properties : ∀ key, object.properties[key]? = some (.real negativeZero) →
    policy.allowedProperties.contains key = false
  state : ∀ key, object.state[key]? = some (.real negativeZero) →
    policy.allowedStateKeys.contains key = false

theorem relationsBare_iff (policy : Projection.ProjectionPolicy) (object : WorldObject) :
    (∀ relation ∈ (policy.project object).relations, relation.attributes = ∅) ↔
      RelationsBare policy object := by
  simp only [Projection.ProjectionPolicy.project, List.mem_insertionSort, List.mem_filter,
    and_imp]
  rfl

theorem bagKept_filter_iff (bag : PropertyBag) (allowed : ByteString → Bool) :
    Protocol.bagKept (bag.filter fun key _ => allowed key) ↔
      ∀ key, bag[key]? = some (.real negativeZero) → allowed key = false := by
  unfold Protocol.bagKept
  simp only [Prod.forall, Std.ExtTreeMap.mem_toList_iff_getElem?_eq_some,
    Std.ExtTreeMap.getElem?_filter', Option.filter_eq_some_iff, and_imp]
  constructor
  · intro kept key found
    by_contra let_through
    exact kept key _ found (by simpa using let_through) rfl
  · intro kept key value found let_through negative
    subst negative
    rw [kept key found] at let_through
    cases let_through

theorem kept_iff (policy : Projection.ProjectionPolicy) (object : WorldObject) :
    (toWireEntity (policy.project object)).Kept ↔ NoNegativeZero policy object := by
  have properties := bagKept_filter_iff object.properties policy.allowedProperties.contains
  have state := bagKept_filter_iff object.state policy.allowedStateKeys.contains
  constructor
  · intro kept
    exact ⟨kept.1, properties.mp kept.2.1, state.mp kept.2.2⟩
  · intro none
    exact ⟨none.position, properties.mpr none.properties, state.mpr none.state⟩

/-- Every reading of the encoded entity, under whatever limits, is the entity
as stored. -/
theorem received_eq_stored {entity : Protocol.WireEntity} {limits other : ProtocolLimits}
    {handle : Handle Protocol.Tables.ProjectedEntity} {calls after : List Protocol.Call}
    {decoded : Protocol.WireEntity}
    (encoded : Protocol.encodeEntity limits entity calls = some (handle, after))
    (read : Protocol.decodeEntity (some handle.target) other = .ok decoded) :
    decoded = entity.stored :=
  Protocol.decodeEntity_agrees
    (Protocol.encodeEntity_returns limits entity calls handle after encoded).decoded read

/-- The client's hash of an entity is the server's, both of the wire entity and
of what comes out of a frame. -/
structure HashesAgree (policy : Projection.ProjectionPolicy) (object : WorldObject) :
    Prop where
  sent : wireEntityHash (toWireEntity (policy.project object)) =
    Projection.projectedEntityHash (policy.project object)
  received : ∀ (limits other : ProtocolLimits)
    (handle : Handle Protocol.Tables.ProjectedEntity) (calls after : List Protocol.Call)
    (decoded : Protocol.WireEntity),
    Protocol.encodeEntity limits (toWireEntity (policy.project object)) calls =
      some (handle, after) →
    Protocol.decodeEntity (some handle.target) other = .ok decoded →
    wireEntityHash decoded = Projection.projectedEntityHash (policy.project object)

/-- The bytes the two sides fold are the same, before and after a frame. -/
def FoldedAlike (policy : Projection.ProjectionPolicy) (object : WorldObject) : Prop :=
  wireEntityBytes (toWireEntity (policy.project object)) =
      projectedEntityBytes (policy.project object) ∧
    wireEntityBytes (toWireEntity (policy.project object)).stored =
      projectedEntityBytes (policy.project object)

theorem foldedAlike_iff (policy : Projection.ProjectionPolicy) (object : WorldObject) :
    FoldedAlike policy object ↔ RelationsBare policy object ∧ NoNegativeZero policy object := by
  rw [FoldedAlike, wireEntityBytes_eq_iff, storedEntityBytes_eq_iff, relationsBare_iff,
    kept_iff, ← and_assoc, and_self]

theorem FoldedAlike.hashesAgree {policy : Projection.ProjectionPolicy}
    {object : WorldObject} (alike : FoldedAlike policy object) :
    HashesAgree policy object where
  sent := by
    rw [Protocol.wireEntityHash_eq, projectedEntityHash_eq, alike.1]
  received limits other handle calls after decoded encoded read := by
    rw [received_eq_stored encoded read, Protocol.wireEntityHash_eq,
      projectedEntityHash_eq, alike.2]

/-- Without attributes on allowed relations and without negative zeros the two
hashes are one; and only then do the two sides fold the same bytes, so that any
other agreement is a collision of the 64-bit hash. -/
theorem entity_hashes_agree (policy : Projection.ProjectionPolicy) (object : WorldObject) :
    (RelationsBare policy object ∧ NoNegativeZero policy object →
        HashesAgree policy object) ∧
      (FoldedAlike policy object ↔
        RelationsBare policy object ∧ NoNegativeZero policy object) := by
  refine ⟨fun plain => ?_, foldedAlike_iff policy object⟩
  exact ((foldedAlike_iff policy object).mpr plain).hashesAgree

/-- A sensor attached to object 2, the relation itself carrying one attribute. -/
def attachedObject (attributes : PropertyBag) : WorldObject where
  id := 1
  relations := [⟨2, [110], attributes⟩]

def attachmentPolicy : Projection.ProjectionPolicy :=
  ({} : Projection.ProjectionPolicy).allowRelationType [110]

theorem entity_hashes_agree_attached :
    HashesAgree attachmentPolicy (attachedObject ∅) := by
  refine (entity_hashes_agree attachmentPolicy (attachedObject ∅)).1 ⟨?_, ?_⟩
  · intro relation member _
    simp only [attachedObject, List.mem_singleton] at member
    rw [member]
  · exact ⟨by decide, by simp [attachedObject], by simp [attachedObject]⟩

theorem relation_attributes_change_hash :
    ¬ ∀ (policy : Projection.ProjectionPolicy) (object : WorldObject),
      HashesAgree policy object := by
  intro claim
  let attributes : PropertyBag := (∅ : PropertyBag).insert [107] (.boolean true)
  have agree := (claim attachmentPolicy (attachedObject attributes)).sent
  revert agree
  decide +kernel

end GeoWorld.Gateway
