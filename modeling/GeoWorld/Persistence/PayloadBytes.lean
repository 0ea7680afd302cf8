import Mathlib
import GeoWorld.Library.ByteReader
import GeoWorld.Library.EditScript
import GeoWorld.WorldModel.Object

/-!
The bytes checkpoint providers write their fields in: fixed-width little-endian numbers,
doubles by their bits, strings and collections behind a 32-bit length. Providers differ
in the lengths they read back and in whether a property may have an empty name.
-/

namespace GeoWorld.Persistence

open WorldModel Library ByteReader

/-- What a reader lets through. -/
structure PayloadLimits where
  stringBytes : Nat
  collectionItems : Nat
  emptyKeys : Bool
  stringBytes_lt : stringBytes < 256 ^ 4
  collectionItems_lt : collectionItems < 256 ^ 4

namespace PayloadWriter

def u8 (value : UInt8) : ByteString := [value]

/-- A size, cut to 32 bits. -/
def u32 (value : Nat) : ByteString := bytesLE 4 value

def u64 (value : UInt64) : ByteString := bytesLE 8 value.toNat

def i64 (value : Int64) : ByteString := u64 value.toUInt64

def f64 (bits : UInt64) : ByteString := u64 bits

def string (value : ByteString) : ByteString := u32 value.length ++ value

end PayloadWriter

namespace PayloadReader

def u8 : ByteReader UInt8 := do
  let value ← fixed 1
  return UInt8.ofNat value

def u32 : ByteReader Nat := fixed 4

def u64 : ByteReader UInt64 := do
  let value ← fixed 8
  return UInt64.ofNat value

def i64 : ByteReader Int64 := do
  let raw ← u64
  return raw.toInt64

def f64 : ByteReader UInt64 := u64

def string (limits : PayloadLimits) : ByteReader ByteString := do
  let length ← u32
  guard (length ≤ limits.stringBytes)
  take length

/-- The number of items of a collection. -/
def count32 (limits : PayloadLimits) : ByteReader Nat := do
  let count ← u32
  guard (count ≤ limits.collectionItems)
  return count

end PayloadReader

def writeValue : Value → ByteString
  | .integer value => PayloadWriter.u8 0 ++ PayloadWriter.i64 value
  | .real bits => PayloadWriter.u8 1 ++ PayloadWriter.f64 bits
  | .boolean value => PayloadWriter.u8 2 ++ PayloadWriter.u8 (if value then 1 else 0)
  | .text value => PayloadWriter.u8 3 ++ PayloadWriter.string value

def writeProperty (property : ByteString × Value) : ByteString :=
  PayloadWriter.string property.1 ++ writeValue property.2

def writeBag (properties : PropertyBag) : ByteString :=
  PayloadWriter.u32 properties.size ++ properties.toList.flatMap writeProperty

section Readers

variable (limits : PayloadLimits)

def readValue : ByteReader Value := do
  let tag ← PayloadReader.u8
  if tag = 0 then
    let item ← PayloadReader.i64
    return .integer item
  else if tag = 1 then
    let item ← PayloadReader.f64
    return .real item
  else if tag = 2 then
    let item ← PayloadReader.u8
    guard (item ≤ 1)
    return .boolean (item ≠ 0)
  else if tag = 3 then
    let item ← PayloadReader.string limits
    return .text item
  else
    failure

/-- So many properties; a repeated name ends the reading. -/
def readProperties : Nat → PropertyBag → ByteReader PropertyBag
  | 0, properties => pure properties
  | count + 1, properties => do
    let key ← PayloadReader.string limits
    guard (limits.emptyKeys ∨ key ≠ [])
    let value ← readValue limits
    guard (properties[key]? = none)
    readProperties count (properties.insert key value)

def readBag : ByteReader PropertyBag := do
  let count ← PayloadReader.count32 limits
  readProperties limits count ∅

end Readers

section Limits

variable (limits : PayloadLimits)

def PayloadLimits.AllowsString (value : ByteString) : Prop :=
  value.length ≤ limits.stringBytes

def PayloadLimits.AllowsValue : Value → Prop
  | .text value => limits.AllowsString value
  | _ => True

structure PayloadLimits.AllowsProperty (property : ByteString × Value) : Prop where
  named : limits.emptyKeys ∨ property.1 ≠ []
  key : limits.AllowsString property.1
  value : limits.AllowsValue property.2

structure PayloadLimits.AllowsBag (properties : PropertyBag) : Prop where
  size : properties.size ≤ limits.collectionItems
  each : ∀ property ∈ properties.toList, limits.AllowsProperty property

instance (value : ByteString) : Decidable (limits.AllowsString value) :=
  inferInstanceAs (Decidable (value.length ≤ limits.stringBytes))

instance : (value : Value) → Decidable (limits.AllowsValue value)
  | .text value => inferInstanceAs (Decidable (limits.AllowsString value))
  | .integer _ | .real _ | .boolean _ => isTrue trivial

instance (property : ByteString × Value) : Decidable (limits.AllowsProperty property) :=
  decidable_of_iff ((limits.emptyKeys ∨ property.1 ≠ []) ∧ limits.AllowsString property.1 ∧
      limits.AllowsValue property.2)
    ⟨fun all => ⟨all.1, all.2.1, all.2.2⟩, fun fits => ⟨fits.named, fits.key, fits.value⟩⟩

instance (properties : PropertyBag) : Decidable (limits.AllowsBag properties) :=
  decidable_of_iff (properties.size ≤ limits.collectionItems ∧
      ∀ property ∈ properties.toList, limits.AllowsProperty property)
    ⟨fun all => ⟨all.1, all.2⟩, fun fits => ⟨fits.size, fits.each⟩⟩

end Limits

section RoundTrip

variable {limits : PayloadLimits}

theorem reads_u8 (value : UInt8) : Reads PayloadReader.u8 (PayloadWriter.u8 value) value := by
  have bytes : PayloadWriter.u8 value = bytesLE 1 value.toNat := by
    simp [PayloadWriter.u8, bytesLE, Nat.mod_eq_of_lt value.toNat_lt]
  rw [bytes]
  refine (Reads.fixed value.toNat_lt).last ?_
  rw [UInt8.ofNat_toNat]
  exact Reads.pure value

theorem reads_u64 (value : UInt64) :
    Reads PayloadReader.u64 (PayloadWriter.u64 value) value := by
  refine (Reads.fixed value.toNat_lt).last ?_
  rw [UInt64.ofNat_toNat]
  exact Reads.pure value

theorem reads_i64 (value : Int64) :
    Reads PayloadReader.i64 (PayloadWriter.i64 value) value :=
  (reads_u64 value.toUInt64).last (Reads.pure value)

theorem reads_string {value : ByteString} (short : limits.AllowsString value) :
    Reads (PayloadReader.string limits) (PayloadWriter.string value) value :=
  (Reads.fixed (short.trans_lt limits.stringBytes_lt)).bind
    (Reads.guard short (Reads.take rfl))

theorem reads_count32 {count : Nat} (few : count ≤ limits.collectionItems) :
    Reads (PayloadReader.count32 limits) (PayloadWriter.u32 count) count :=
  (Reads.fixed (few.trans_lt limits.collectionItems_lt)).last
    (Reads.guard few (Reads.pure count))

theorem reads_value {value : Value} (fits : limits.AllowsValue value) :
    Reads (readValue limits) (writeValue value) value := by
  cases value with
  | integer item => exact (reads_u8 0).bind ((reads_i64 item).last (Reads.pure _))
  | real bits => exact (reads_u8 1).bind ((reads_u64 bits).last (Reads.pure _))
  | boolean item =>
    cases item with
    | false => exact (reads_u8 2).bind ((reads_u8 0).last (Reads.guard (by decide) (Reads.pure _)))
    | true => exact (reads_u8 2).bind ((reads_u8 1).last (Reads.guard (by decide) (Reads.pure _)))
  | text item => exact (reads_u8 3).bind ((reads_string fits).last (Reads.pure _))

theorem reads_properties {entries : List (ByteString × Value)} {properties : PropertyBag}
    (fits : ∀ entry ∈ entries, limits.AllowsProperty entry)
    (distinct : entries.Pairwise fun left right => left.1 ≠ right.1)
    (fresh : ∀ entry ∈ entries, properties[entry.1]? = none) :
    Reads (readProperties limits entries.length properties) (entries.flatMap writeProperty)
      (entries.foldl (fun bag entry => bag.insert entry.1 entry.2) properties) := by
  induction entries generalizing properties with
  | nil => exact Reads.pure properties
  | cons entry entries ih =>
    obtain ⟨apart, distinct⟩ := List.pairwise_cons.mp distinct
    have first := fits entry List.mem_cons_self
    have later := @ih (properties.insert entry.1 entry.2)
      (fun other member => fits other (List.mem_cons_of_mem _ member)) distinct
      fun other member => by
        rw [lookup_insert_ne _ (apart other member).symm]
        exact fresh other (List.mem_cons_of_mem _ member)
    rw [List.flatMap_cons, writeProperty, List.append_assoc, List.length_cons, readProperties]
    refine (reads_string first.key).bind (Reads.guard first.named ?_)
    exact (reads_value first.value).bind (Reads.guard (fresh entry List.mem_cons_self) later)

theorem reads_bag {properties : PropertyBag} (fits : limits.AllowsBag properties) :
    Reads (readBag limits) (writeBag properties) properties := by
  have distinct : properties.toList.Pairwise fun left right => left.1 ≠ right.1 := by
    refine Std.ExtTreeMap.distinct_keys_toList.imp fun apart same => apart ?_
    rw [same]
    exact Std.ReflCmp.compare_self
  have read := @reads_properties limits _ ∅ fits.each distinct (by simp)
  rw [foldl_insert_toList, Std.ExtTreeMap.length_toList] at read
  exact (reads_count32 fits.size).bind read

end RoundTrip

end GeoWorld.Persistence
