import Mathlib
import GeoWorld.Gateway.DurableCodec

/-!
The idempotency index: what became of the command first submitted under a
principal and a request id. Entries are looked up by key and compared by the
fingerprint of the command they were registered with.
-/

namespace GeoWorld.Gateway

open WorldModel Library

inductive DurableEntryState where
  | pending
  | durableAccepted
  | applied
  | rejected
  deriving DecidableEq

structure DurableIdempotencyEntry where
  state : DurableEntryState := .pending
  lsn : UInt64 := 0
  clientSequence : UInt64 := 0
  ingressSequence : UInt64 := 0
  error : GatewayError := .none
  deriving DecidableEq

/-- `DurableIdempotencyIndex::Key`. -/
structure DurableKey where
  principalId : ByteString
  requestId : DurableRequestId
  deriving DecidableEq

abbrev DurableKey.cmp : DurableKey → DurableKey → Ordering :=
  compareFields DurableKey.principalId fun key => key.requestId.toList

instance : Std.TransCmp DurableKey.cmp :=
  inferInstance

instance : Std.LawfulEqCmp DurableKey.cmp := by
  refine compareFields_lawful _ _ fun a b principal request => ?_
  cases a
  cases b
  simp_all [Vector.toList_inj]

/-- `DurableIdempotencyIndex::Slot`. -/
structure DurableSlot where
  fingerprint : ByteString
  entry : DurableIdempotencyEntry
  deriving DecidableEq

structure DurableIdempotencyIndex where
  slots : Std.ExtTreeMap DurableKey DurableSlot DurableKey.cmp := ∅

namespace DurableIdempotencyIndex

/-- The entry of a key and whether its fingerprint is the given one. -/
def lookup (index : DurableIdempotencyIndex) (key : DurableKey) (fingerprint : ByteString) :
    Option (DurableIdempotencyEntry × Bool) :=
  index.slots[key]?.map fun slot => (slot.entry, slot.fingerprint == fingerprint)

def registerPending (index : DurableIdempotencyIndex) (key : DurableKey)
    (fingerprint : ByteString) (clientSequence : UInt64) : DurableIdempotencyIndex :=
  ⟨index.slots.insert key ⟨fingerprint, { clientSequence := clientSequence }⟩⟩

def modifyEntry (index : DurableIdempotencyIndex) (key : DurableKey)
    (change : DurableIdempotencyEntry → DurableIdempotencyEntry) : DurableIdempotencyIndex :=
  match index.slots[key]? with
  | none => index
  | some slot => ⟨index.slots.insert key { slot with entry := change slot.entry }⟩

def markDurableAccepted (index : DurableIdempotencyIndex) (key : DurableKey)
    (lsn ingressSequence : UInt64) : DurableIdempotencyIndex :=
  index.modifyEntry key fun entry =>
    { entry with state := .durableAccepted, lsn := lsn, ingressSequence := ingressSequence }

def markFinal (index : DurableIdempotencyIndex) (key : DurableKey) (applied : Bool)
    (error : GatewayError) : DurableIdempotencyIndex :=
  index.modifyEntry key fun entry =>
    { entry with
      state := if applied then .applied else .rejected
      error := if applied then .none else error }

def erase (index : DurableIdempotencyIndex) (key : DurableKey) : DurableIdempotencyIndex :=
  ⟨index.slots.erase key⟩

def contains (index : DurableIdempotencyIndex) (key : DurableKey) : Bool :=
  index.slots[key]?.isSome

section Lookup

variable (index : DurableIdempotencyIndex) (key other : DurableKey)

theorem slots_modifyEntry (change : DurableIdempotencyEntry → DurableIdempotencyEntry) :
    (index.modifyEntry key change).slots[other]? =
      if other = key then
        index.slots[key]?.map fun slot => { slot with entry := change slot.entry }
      else index.slots[other]? := by
  unfold modifyEntry
  cases found : index.slots[key]? with
  | none =>
    by_cases same : other = key
    · simp [same, found]
    · simp [same]
  | some slot => simp [lookup_insert]

@[simp] theorem contains_modifyEntry
    (change : DurableIdempotencyEntry → DurableIdempotencyEntry) :
    (index.modifyEntry key change).contains other = index.contains other := by
  unfold contains
  rw [slots_modifyEntry]
  by_cases same : other = key
  · simp [same]
  · simp [same]

@[simp] theorem contains_markDurableAccepted (lsn ingressSequence : UInt64) :
    (index.markDurableAccepted key lsn ingressSequence).contains other = index.contains other :=
  contains_modifyEntry index key other _

@[simp] theorem contains_markFinal (applied : Bool) (error : GatewayError) :
    (index.markFinal key applied error).contains other = index.contains other :=
  contains_modifyEntry index key other _

@[simp] theorem contains_registerPending (fingerprint : ByteString) (clientSequence : UInt64) :
    (index.registerPending key fingerprint clientSequence).contains other =
      (decide (other = key) || index.contains other) := by
  unfold contains registerPending
  by_cases same : other = key <;> simp [lookup_insert, same]

@[simp] theorem contains_erase :
    (index.erase key).contains other = (decide (other ≠ key) && index.contains other) := by
  unfold contains erase
  by_cases same : other = key <;> simp [lookup_erase, same]

end Lookup

end DurableIdempotencyIndex

end GeoWorld.Gateway
