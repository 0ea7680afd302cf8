import Mathlib
import GeoWorld.Library.LittleEndian
import GeoWorld.Protocol.RoundTrip

/-!
The client's hash of an entity, as a fold over bytes, and the decoder seen
through wider limits.
-/

namespace GeoWorld.Protocol

open WorldModel Library

def fnvOffset : UInt64 := 14695981039346656037

def fnvPrime : UInt64 := 1099511628211

def foldU8 (hash : UInt64) (value : UInt8) : UInt64 :=
  (hash ^^^ value.toUInt64) * fnvPrime

/-- The loops of `fold_u32` and `fold_u64` go from the low byte up. -/
def foldU32 (hash : UInt64) (value : UInt32) : UInt64 :=
  (bytesLE 4 value.toNat).foldl foldU8 hash

def foldU64 (hash : UInt64) (value : UInt64) : UInt64 :=
  (bytesLE 8 value.toNat).foldl foldU8 hash

def foldText (hash : UInt64) (value : ByteString) : UInt64 :=
  value.foldl foldU8 (foldU64 hash (UInt64.ofNat value.length))

def foldValue (hash : UInt64) : WireValue → UInt64
  | .integer value => foldU64 (foldU8 hash 0) value.toUInt64
  | .real bits => foldU64 (foldU8 hash 1) bits
  | .boolean value => foldU8 (foldU8 hash 2) (if value then 1 else 0)
  | .text value => foldText (foldU8 hash 3) value

def foldBag (hash : UInt64) (bag : WireAttributes) : UInt64 :=
  bag.toList.foldl (fun h entry => foldValue (foldText h entry.1) entry.2)
    (foldU64 hash (UInt64.ofNat bag.size))

/-- The schema carries no attributes; an empty bag is folded for them. -/
def foldRelation (hash : UInt64) (relation : WireRelation) : UInt64 :=
  foldU64 (foldU64 (foldText hash relation.type) relation.targetWid) 0

def wireEntityHash (entity : WireEntity) : UInt64 :=
  let h := foldU64 fnvOffset entity.wid
  let h := foldU64 h entity.version
  let h := foldU64 h entity.position.x
  let h := foldU64 h entity.position.y
  let h := foldU64 h entity.position.z
  let h := foldText h entity.semanticType
  let h := foldText h entity.geometryRef
  let h := foldU8 h entity.lifecycle.code
  let h := foldBag h entity.properties
  let h := foldBag h entity.state
  let h := entity.relations.foldl foldRelation
    (foldU64 h (UInt64.ofNat entity.relations.length))
  let h := entity.capabilities.foldl foldText
    (foldU64 h (UInt64.ofNat entity.capabilities.length))
  let h := foldU8 h entity.frequency.code
  let h := foldU32 h entity.priority
  entity.visibilityTags.foldl foldText
    (foldU64 h (UInt64.ofNat entity.visibilityTags.length))

/-! The bytes that are folded. -/

def foldBytes (hash : UInt64) (bytes : List UInt8) : UInt64 := bytes.foldl foldU8 hash

theorem foldBytes_append (hash : UInt64) (front back : List UInt8) :
    foldBytes hash (front ++ back) = foldBytes (foldBytes hash front) back :=
  List.foldl_append

def u64Bytes (value : UInt64) : List UInt8 := bytesLE 8 value.toNat

def textBytes (text : ByteString) : List UInt8 :=
  u64Bytes (UInt64.ofNat text.length) ++ text

def valueBytes : WireValue → List UInt8
  | .integer value => [0] ++ u64Bytes value.toUInt64
  | .real bits => [1] ++ u64Bytes bits
  | .boolean value => [2] ++ [if value then 1 else 0]
  | .text value => [3] ++ textBytes value

def entryBytes (entry : ByteString × WireValue) : List UInt8 :=
  textBytes entry.1 ++ valueBytes entry.2

def bagBytes (bag : WireAttributes) : List UInt8 :=
  u64Bytes (UInt64.ofNat bag.size) ++ bag.toList.flatMap entryBytes

/-- A relation as it is folded: `attributes` stands for its bag. -/
def relationBytes (type : ByteString) (target : UInt64) (attributes : List UInt8) :
    List UInt8 :=
  textBytes type ++ (u64Bytes target ++ attributes)

def countedBytes {α : Type} (bytes : α → List UInt8) (items : List α) : List UInt8 :=
  u64Bytes (UInt64.ofNat items.length) ++ items.flatMap bytes

/-- Everything that stands before the relations. -/
def frontBytes (entity : WireEntity) : List UInt8 :=
  u64Bytes entity.wid ++ (u64Bytes entity.version ++ (u64Bytes entity.position.x ++
    (u64Bytes entity.position.y ++ (u64Bytes entity.position.z ++
      (textBytes entity.semanticType ++ (textBytes entity.geometryRef ++
        ([entity.lifecycle.code] ++
          (bagBytes entity.properties ++ bagBytes entity.state))))))))

def backBytes (entity : WireEntity) : List UInt8 :=
  countedBytes textBytes entity.capabilities ++ ([entity.frequency.code] ++
    (bytesLE 4 entity.priority.toNat ++ countedBytes textBytes entity.visibilityTags))

def wireRelationBytes (relation : WireRelation) : List UInt8 :=
  relationBytes relation.type relation.targetWid (u64Bytes 0)

def wireEntityBytes (entity : WireEntity) : List UInt8 :=
  frontBytes entity ++ (countedBytes wireRelationBytes entity.relations ++ backBytes entity)

/-- A loop that folds one item after the other folds their bytes in a row. -/
theorem foldl_eq_foldBytes {α : Type} {fold : UInt64 → α → UInt64} {bytes : α → List UInt8}
    (each : ∀ hash item, fold hash item = foldBytes hash (bytes item)) (hash : UInt64)
    (items : List α) : items.foldl fold hash = foldBytes hash (items.flatMap bytes) := by
  induction items generalizing hash with
  | nil => rfl
  | cons item items ih =>
    rw [List.foldl_cons, ih, each, List.flatMap_cons, foldBytes_append]

theorem foldText_eq (hash : UInt64) (text : ByteString) :
    foldText hash text = foldBytes hash (textBytes text) := by
  rw [textBytes, foldBytes_append]
  rfl

theorem foldValue_eq (hash : UInt64) (value : WireValue) :
    foldValue hash value = foldBytes hash (valueBytes value) := by
  cases value with
  | text value =>
    rw [valueBytes, foldBytes_append, ← foldText_eq]
    rfl
  | _ =>
    rw [valueBytes, foldBytes_append]
    rfl

theorem foldBag_eq (hash : UInt64) (bag : WireAttributes) :
    foldBag hash bag = foldBytes hash (bagBytes bag) := by
  have each : ∀ (h : UInt64) (entry : ByteString × WireValue),
      foldValue (foldText h entry.1) entry.2 = foldBytes h (entryBytes entry) := by
    intro h entry
    rw [entryBytes, foldBytes_append, ← foldText_eq, ← foldValue_eq]
  rw [bagBytes, foldBytes_append, ← foldl_eq_foldBytes each]
  rfl

theorem foldRelation_eq (hash : UInt64) (relation : WireRelation) :
    foldRelation hash relation = foldBytes hash (wireRelationBytes relation) := by
  rw [wireRelationBytes, relationBytes, foldBytes_append, foldBytes_append, ← foldText_eq]
  rfl

theorem foldl_counted_eq {α : Type} {fold : UInt64 → α → UInt64} {bytes : α → List UInt8}
    (each : ∀ hash item, fold hash item = foldBytes hash (bytes item)) (hash : UInt64)
    (items : List α) :
    items.foldl fold (foldU64 hash (UInt64.ofNat items.length)) =
      foldBytes hash (countedBytes bytes items) := by
  rw [countedBytes, foldBytes_append, ← foldl_eq_foldBytes each]
  rfl

theorem wireEntityHash_eq (entity : WireEntity) :
    wireEntityHash entity = foldBytes fnvOffset (wireEntityBytes entity) := by
  simp only [wireEntityHash, foldText_eq, foldBag_eq, foldl_counted_eq foldText_eq,
    foldl_counted_eq foldRelation_eq]
  simp only [wireEntityBytes, frontBytes, backBytes, foldBytes_append]
  rfl

/-! Which entities the wire and the tables leave as they are. -/

section Lists

variable {α β : Type}

/-- Replacing items by others of the same length changes the row unless each
item keeps its bytes. -/
theorem flatMap_map_eq_iff {bytes : α → List β} {change : α → α}
    (length : ∀ item, (bytes (change item)).length = (bytes item).length)
    (items : List α) :
    (items.map change).flatMap bytes = items.flatMap bytes ↔
      ∀ item ∈ items, bytes (change item) = bytes item := by
  induction items with
  | nil => simp
  | cons item items ih =>
    rw [List.map_cons, List.flatMap_cons, List.flatMap_cons, List.forall_mem_cons, ← ih]
    constructor
    · intro same
      exact List.append_inj same (length item)
    · intro same
      rw [same.1, same.2]

theorem flatMap_length_le {longer shorter : α → List β}
    (each : ∀ item, (shorter item).length ≤ (longer item).length) (items : List α) :
    (items.flatMap shorter).length ≤ (items.flatMap longer).length := by
  induction items with
  | nil => exact Nat.le_refl _
  | cons item items ih =>
    rw [List.flatMap_cons, List.flatMap_cons, List.length_append, List.length_append]
    exact Nat.add_le_add (each item) ih

theorem flatMap_lengths_meet {longer shorter : α → List β}
    (each : ∀ item, (shorter item).length ≤ (longer item).length) (items : List α)
    (same : (items.flatMap longer).length = (items.flatMap shorter).length) :
    ∀ item ∈ items, (longer item).length = (shorter item).length := by
  induction items with
  | nil => simp
  | cons item items ih =>
    rw [List.flatMap_cons, List.flatMap_cons, List.length_append, List.length_append]
      at same
    have head := each item
    have tail := flatMap_length_le each items
    rw [List.forall_mem_cons]
    exact ⟨by omega, ih (by omega)⟩

end Lists

@[simp] theorem u64Bytes_length (value : UInt64) : (u64Bytes value).length = 8 :=
  bytesLE_length 8 _

theorem u64Bytes_injective : Function.Injective u64Bytes := by
  intro a b same
  have read := congrArg valueLE same
  rw [u64Bytes, u64Bytes, valueLE_bytesLE 8 _ a.toNat_lt, valueLE_bytesLE 8 _ b.toNat_lt]
    at read
  exact UInt64.toNat_inj.mp read

theorem readBack_eq_iff (bits : UInt64) : readBack bits = bits ↔ bits ≠ negativeZero := by
  unfold readBack
  by_cases negative : bits = negativeZero
  · rw [if_pos negative, negative]
    decide
  · simp [negative]

theorem storedValue_eq_iff (value : WireValue) :
    storedValue value = value ↔ value ≠ .real negativeZero := by
  cases value with
  | real bits =>
    simp only [storedValue, Value.real.injEq, ne_eq]
    exact readBack_eq_iff bits
  | _ => simp [storedValue]

theorem valueBytes_stored_length (value : WireValue) :
    (valueBytes (storedValue value)).length = (valueBytes value).length := by
  cases value <;> simp [storedValue, valueBytes]

theorem valueBytes_stored_eq_iff (value : WireValue) :
    valueBytes (storedValue value) = valueBytes value ↔ value ≠ .real negativeZero := by
  rw [← storedValue_eq_iff]
  refine ⟨fun same => ?_, fun same => by rw [same]⟩
  cases value with
  | real bits =>
    simp only [storedValue, valueBytes, List.append_cancel_left_eq] at same
    rw [storedValue, u64Bytes_injective same]
  | _ => rfl

/-- No double of the bag is a negative zero. -/
def bagKept (bag : WireAttributes) : Prop :=
  ∀ entry ∈ bag.toList, entry.2 ≠ .real negativeZero

theorem bagBytes_stored_length (bag : WireAttributes) :
    (bagBytes (storedBag bag)).length = (bagBytes bag).length := by
  simp only [bagBytes, storedBag, Std.ExtTreeMap.toList_map, List.length_append,
    u64Bytes_length, List.flatMap_map, List.length_flatMap, entryBytes,
    valueBytes_stored_length]

theorem bagBytes_stored_eq_iff (bag : WireAttributes) :
    bagBytes (storedBag bag) = bagBytes bag ↔ bagKept bag := by
  simp only [bagBytes, storedBag, Std.ExtTreeMap.size_map, Std.ExtTreeMap.toList_map,
    List.append_cancel_left_eq]
  rw [flatMap_map_eq_iff (fun entry => by
    simp only [entryBytes, List.length_append, valueBytes_stored_length])]
  refine forall₂_congr fun entry _ => ?_
  rw [entryBytes, entryBytes, List.append_cancel_left_eq, valueBytes_stored_eq_iff]

def positionKept (position : WireVec3) : Prop :=
  position.x ≠ negativeZero ∧ position.y ≠ negativeZero ∧ position.z ≠ negativeZero

/-- No double of the entity is a negative zero. -/
def WireEntity.Kept (entity : WireEntity) : Prop :=
  positionKept entity.position ∧ bagKept entity.properties ∧ bagKept entity.state

theorem frontBytes_stored_length (entity : WireEntity) :
    (frontBytes entity.stored).length = (frontBytes entity).length := by
  simp only [frontBytes, WireEntity.stored, List.length_append, u64Bytes_length,
    bagBytes_stored_length]

theorem u64Bytes_readBack_eq_iff (bits : UInt64) :
    u64Bytes (readBack bits) = u64Bytes bits ↔ bits ≠ negativeZero := by
  rw [u64Bytes_injective.eq_iff, readBack_eq_iff]

/-- Two rows with a first field of the same length are equal field by field. -/
theorem append_eq_iff {α : Type} {a b as bs : List α} (length : a.length = b.length) :
    a ++ as = b ++ bs ↔ a = b ∧ as = bs :=
  ⟨fun same => List.append_inj same length, fun same => by rw [same.1, same.2]⟩

theorem frontBytes_stored_eq_iff (entity : WireEntity) :
    frontBytes entity.stored = frontBytes entity ↔ entity.Kept := by
  simp only [frontBytes, WireEntity.stored, List.append_cancel_left_eq]
  rw [append_eq_iff (by simp), append_eq_iff (by simp), append_eq_iff (by simp)]
  simp only [List.append_cancel_left_eq]
  rw [append_eq_iff (bagBytes_stored_length _), u64Bytes_readBack_eq_iff,
    u64Bytes_readBack_eq_iff, u64Bytes_readBack_eq_iff, bagBytes_stored_eq_iff,
    bagBytes_stored_eq_iff]
  simp only [WireEntity.Kept, positionKept, and_assoc]

end GeoWorld.Protocol
