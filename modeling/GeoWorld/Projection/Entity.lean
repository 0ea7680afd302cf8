import Mathlib
import GeoWorld.Library.LittleEndian
import GeoWorld.WorldModel.World

/-!
The client-visible entity, the whitelist policy that produces it from a world
object, and its canonical hash (FNV-1a over the fields in wire order).
The feature id is local to a connection and takes no part in the hash.
-/

namespace GeoWorld.Projection

open WorldModel Library

inductive FrequencyClass where
  | onChange
  | slow
  | fast
  deriving DecidableEq

def FrequencyClass.code : FrequencyClass → UInt8
  | onChange => 0
  | slow => 1
  | fast => 2

structure ProjectionMetadata where
  frequency : FrequencyClass := .onChange
  priority : UInt32 := 0
  visibilityTags : List ByteString := []
  deriving DecidableEq

structure ProjectedEntity where
  wid : WorldId
  fid : FeatureId := 0
  version : UInt64
  position : PositionEcef
  semanticType : ByteString
  geometryRef : ByteString
  lifecycle : LifecycleState
  properties : PropertyBag
  state : PropertyBag
  relations : List Relation
  capabilities : List ByteString
  metadata : ProjectionMetadata
  deriving DecidableEq

/-- Every setter bumps `version`; connections compare it to theirs. -/
structure ProjectionPolicy where
  allowedProperties : Std.ExtTreeSet ByteString compare := ∅
  allowedStateKeys : Std.ExtTreeSet ByteString compare := ∅
  allowedRelationTypes : Std.ExtTreeSet ByteString compare := ∅
  allowedCapabilities : Std.ExtTreeSet ByteString compare := ∅
  frequencyResolver : Option (WorldObject → FrequencyClass) := none
  priorityResolver : Option (WorldObject → UInt32) := none
  version : Nat := 1

namespace ProjectionPolicy

def allowProperty (policy : ProjectionPolicy) (key : ByteString) : ProjectionPolicy :=
  { policy with
    allowedProperties := policy.allowedProperties.insert key
    version := policy.version + 1 }

def allowStateKey (policy : ProjectionPolicy) (key : ByteString) : ProjectionPolicy :=
  { policy with
    allowedStateKeys := policy.allowedStateKeys.insert key
    version := policy.version + 1 }

def allowRelationType (policy : ProjectionPolicy) (type : ByteString) : ProjectionPolicy :=
  { policy with
    allowedRelationTypes := policy.allowedRelationTypes.insert type
    version := policy.version + 1 }

def allowCapability (policy : ProjectionPolicy) (capability : ByteString) :
    ProjectionPolicy :=
  { policy with
    allowedCapabilities := policy.allowedCapabilities.insert capability
    version := policy.version + 1 }

def setFrequencyResolver (policy : ProjectionPolicy)
    (resolver : Option (WorldObject → FrequencyClass)) : ProjectionPolicy :=
  { policy with frequencyResolver := resolver, version := policy.version + 1 }

def setPriorityResolver (policy : ProjectionPolicy)
    (resolver : Option (WorldObject → UInt32)) : ProjectionPolicy :=
  { policy with priorityResolver := resolver, version := policy.version + 1 }

/-- The order of projected relations: by type, then by target. -/
def relationBefore (lhs rhs : Relation) : Prop :=
  if lhs.type ≠ rhs.type then lhs.type ≤ rhs.type else lhs.target ≤ rhs.target

instance : DecidableRel relationBefore := fun lhs rhs =>
  inferInstanceAs (Decidable (if lhs.type ≠ rhs.type then _ else _))

def project (policy : ProjectionPolicy) (object : WorldObject) : ProjectedEntity where
  wid := object.id
  version := object.version
  position := object.position
  semanticType := object.semanticType
  geometryRef := object.geometryRef
  lifecycle := object.lifecycle
  properties := object.properties.filter fun key _ => policy.allowedProperties.contains key
  state := object.state.filter fun key _ => policy.allowedStateKeys.contains key
  relations := (object.relations.filter fun relation =>
    policy.allowedRelationTypes.contains relation.type).insertionSort relationBefore
  capabilities := ((object.capabilities.filter fun capability =>
    policy.allowedCapabilities.contains capability).insertionSort (· ≤ ·)).dedup
  metadata :=
    { frequency := (policy.frequencyResolver.map (· object)).getD .onChange
      priority := (policy.priorityResolver.map (· object)).getD 0 }

end ProjectionPolicy

/-- One calling convention for the six policy setters. -/
inductive PolicyChange where
  | allowProperty (key : ByteString)
  | allowStateKey (key : ByteString)
  | allowRelationType (type : ByteString)
  | allowCapability (capability : ByteString)
  | setFrequencyResolver (resolver : Option (WorldObject → FrequencyClass))
  | setPriorityResolver (resolver : Option (WorldObject → UInt32))

def PolicyChange.apply (policy : ProjectionPolicy) : PolicyChange → ProjectionPolicy
  | allowProperty key => policy.allowProperty key
  | allowStateKey key => policy.allowStateKey key
  | allowRelationType type => policy.allowRelationType type
  | allowCapability capability => policy.allowCapability capability
  | setFrequencyResolver resolver => policy.setFrequencyResolver resolver
  | setPriorityResolver resolver => policy.setPriorityResolver resolver

@[simp] theorem PolicyChange.apply_version (policy : ProjectionPolicy)
    (change : PolicyChange) : (change.apply policy).version = policy.version + 1 := by
  cases change <;> rfl

def fnvOffset : UInt64 := 14695981039346656037

def fnvPrime : UInt64 := 1099511628211

namespace HashWriter

def bytes (hash : UInt64) (data : List UInt8) : UInt64 :=
  data.foldl (fun h byte => (h ^^^ byte.toUInt64) * fnvPrime) hash

def u8 (hash : UInt64) (value : UInt8) : UInt64 :=
  bytes hash [value]

def u32 (hash : UInt64) (value : UInt32) : UInt64 :=
  bytes hash (bytesLE 4 value.toNat)

def u64 (hash : UInt64) (value : UInt64) : UInt64 :=
  bytes hash (bytesLE 8 value.toNat)

def text (hash : UInt64) (value : ByteString) : UInt64 :=
  bytes (u64 hash (UInt64.ofNat value.length)) value

def value (hash : UInt64) : Value → UInt64
  | .integer v => u64 (u8 hash 0) v.toUInt64
  | .real bits => u64 (u8 hash 1) bits
  | .boolean v => u8 (u8 hash 2) (if v then 1 else 0)
  | .text v => text (u8 hash 3) v

def bag (hash : UInt64) (bag : PropertyBag) : UInt64 :=
  bag.toList.foldl (fun h entry => value (text h entry.1) entry.2)
    (u64 hash (UInt64.ofNat bag.size))

def relations (hash : UInt64) (relations : List Relation) : UInt64 :=
  relations.foldl (fun h relation =>
    bag (u64 (text h relation.type) relation.target) relation.attributes)
    (u64 hash (UInt64.ofNat relations.length))

def texts (hash : UInt64) (values : List ByteString) : UInt64 :=
  values.foldl text (u64 hash (UInt64.ofNat values.length))

end HashWriter

open HashWriter in
def projectedEntityHash (entity : ProjectedEntity) : UInt64 :=
  let h := u64 fnvOffset entity.wid
  let h := u64 h entity.version
  let h := u64 h entity.position.x
  let h := u64 h entity.position.y
  let h := u64 h entity.position.z
  let h := text h entity.semanticType
  let h := text h entity.geometryRef
  let h := u8 h entity.lifecycle.code
  let h := bag h entity.properties
  let h := bag h entity.state
  let h := relations h entity.relations
  let h := texts h entity.capabilities
  let h := u8 h entity.metadata.frequency.code
  let h := u32 h entity.metadata.priority
  texts h entity.metadata.visibilityTags

/-- Assigning the connection-local feature id leaves the hash alone. -/
@[simp] theorem projectedEntityHash_fid (entity : ProjectedEntity) (fid : FeatureId) :
    projectedEntityHash { entity with fid := fid } = projectedEntityHash entity := rfl

end GeoWorld.Projection
