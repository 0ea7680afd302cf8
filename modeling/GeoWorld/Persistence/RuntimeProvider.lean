import Mathlib
import GeoWorld.Ai.Decision
import GeoWorld.Persistence.WorldProvider
import GeoWorld.Rules.EventBus

/-!
The checkpoint providers of the three queues: pending commands, events and intents as the
payloads of blocks, and back. The readers refuse what has no valid id, key or type, which
the queues themselves may hold.
-/

namespace GeoWorld.Persistence

open WorldModel Library ByteReader Simulation Rules Ai

def commandBufferProviderId : ByteString := asciiBytes "command_buffer".toList

def eventBusProviderId : ByteString := asciiBytes "event_bus".toList

def aiIntentsProviderId : ByteString := asciiBytes "ai_intents".toList

def providerSchemaVersion : UInt32 := 1

def maxProviderItems : Nat := 2000000

def maxProviderStringBytes : Nat := 16 * 1024 * 1024

def providerLimits : PayloadLimits where
  stringBytes := maxProviderStringBytes
  collectionItems := maxProviderItems
  emptyKeys := false
  stringBytes_lt := by decide
  collectionItems_lt := by decide

namespace RuntimeProvider

def count64 : ByteReader Nat := do
  let count ← PayloadReader.u64
  guard (count.toNat ≤ maxProviderItems)
  return count.toNat

section Commands

def writeObject (object : WorldObject) : ByteString :=
  PayloadWriter.u64 object.id ++ (PayloadWriter.string object.geometryRef ++
    (PayloadWriter.f64 object.position.x ++ (PayloadWriter.f64 object.position.y ++
    (PayloadWriter.f64 object.position.z ++ (PayloadWriter.string object.semanticType ++
    (writeBag object.properties ++ (writeBag object.state ++
    (PayloadWriter.u32 object.relations.length ++ (object.relations.flatMap writeRelation ++
    (PayloadWriter.u32 object.capabilities.length ++
    (object.capabilities.flatMap PayloadWriter.string ++
    (PayloadWriter.u8 object.lifecycle.code ++ (PayloadWriter.u64 object.version ++
    PayloadWriter.u64 object.revision)))))))))))))

def readRelation : ByteReader Relation := do
  let target ← PayloadReader.u64
  guard (WorldId.valid target)
  let type ← PayloadReader.string providerLimits
  guard (type ≠ [])
  let attributes ← readBag providerLimits
  return ⟨target, type, attributes⟩

def readCapability : ByteReader ByteString := do
  let capability ← PayloadReader.string providerLimits
  guard (capability ≠ [])
  return capability

def readObject : ByteReader WorldObject := do
  let id ← PayloadReader.u64
  guard (WorldId.valid id)
  let geometryRef ← PayloadReader.string providerLimits
  let x ← PayloadReader.f64
  let y ← PayloadReader.f64
  let z ← PayloadReader.f64
  let semanticType ← PayloadReader.string providerLimits
  let properties ← readBag providerLimits
  let state ← readBag providerLimits
  let relationCount ← PayloadReader.count32 providerLimits
  let relations ← times readRelation relationCount
  let capabilityCount ← PayloadReader.count32 providerLimits
  let capabilities ← times readCapability capabilityCount
  let lifecycle ← PayloadReader.u8
  guard (lifecycle ≤ LifecycleState.retired.code)
  let version ← PayloadReader.u64
  guard (version ≠ 0)
  let revision ← PayloadReader.u64
  return {
    id := id
    geometryRef := geometryRef
    position := ⟨x, y, z⟩
    semanticType := semanticType
    properties := properties
    state := state
    relations := relations
    capabilities := capabilities
    lifecycle := lifecycleOf lifecycle
    version := version
    revision := revision }

def writePayload : CommandPayload → ByteString
  | .createObject object => PayloadWriter.u8 0 ++ writeObject object
  | .destroyObject id => PayloadWriter.u8 1 ++ PayloadWriter.u64 id
  | .setProperty id key value =>
    PayloadWriter.u8 2 ++ (PayloadWriter.u64 id ++ (PayloadWriter.string key ++ writeValue value))

def readPayload : ByteReader CommandPayload := do
  let tag ← PayloadReader.u8
  if tag = 0 then
    let object ← readObject
    return .createObject object
  else if tag = 1 then
    let id ← PayloadReader.u64
    guard (WorldId.valid id)
    return .destroyObject id
  else if tag = 2 then
    let id ← PayloadReader.u64
    guard (WorldId.valid id)
    let key ← PayloadReader.string providerLimits
    guard (key ≠ [])
    let value ← readValue providerLimits
    return .setProperty id key value
  else
    failure

def writeCommand (command : Command) : ByteString :=
  PayloadWriter.u64 command.sequence ++ (PayloadWriter.u64 command.targetTick ++
    (PayloadWriter.u64 command.meta.ingressSequence ++
    (PayloadWriter.u64 command.meta.durableLsn ++
    (PayloadWriter.u64 command.meta.expectedObjectVersion ++ writePayload command.payload))))

def readCommand : ByteReader Command := do
  let sequence ← PayloadReader.u64
  let targetTick ← PayloadReader.u64
  let ingressSequence ← PayloadReader.u64
  let durableLsn ← PayloadReader.u64
  let expectedObjectVersion ← PayloadReader.u64
  let payload ← readPayload
  return ⟨sequence, targetTick, payload, ⟨ingressSequence, expectedObjectVersion, durableLsn⟩⟩

end Commands

section Events

def writeEvent (event : Event) : ByteString :=
  PayloadWriter.u64 event.sequence ++ (PayloadWriter.u64 event.targetTick ++
    (PayloadWriter.i64 event.priority.toInt64 ++ (PayloadWriter.string event.type ++
    (PayloadWriter.u64 event.subject ++ writeBag event.payload))))

def readEvent : ByteReader Event := do
  let sequence ← PayloadReader.u64
  let targetTick ← PayloadReader.u64
  let priority ← PayloadReader.i64
  guard (Int32.minValue.toInt64 ≤ priority ∧ priority ≤ Int32.maxValue.toInt64)
  let type ← PayloadReader.string providerLimits
  let subject ← PayloadReader.u64
  let payload ← readBag providerLimits
  return ⟨sequence, targetTick, priority.toInt32, type, subject, payload⟩

end Events

section Intents

def writeIntent (pending : PendingIntent) : ByteString :=
  PayloadWriter.u64 pending.sequence ++ (PayloadWriter.u64 pending.targetTick ++
    (PayloadWriter.u64 pending.intent.target ++ (PayloadWriter.string pending.intent.key ++
    writeValue pending.intent.value)))

def readIntent : ByteReader PendingIntent := do
  let sequence ← PayloadReader.u64
  let targetTick ← PayloadReader.u64
  let target ← PayloadReader.u64
  let key ← PayloadReader.string providerLimits
  let value ← readValue providerLimits
  return ⟨sequence, targetTick, ⟨target, key, value⟩⟩

end Intents

/-- The decoding of a provider: the version, the whole payload, then the owner's own test. -/
def decodeAndRestore {σ : Type} (read : ByteReader σ) (restore : σ → Option σ) (target : σ)
    (payload : ByteString) (version : UInt32) : PersistenceError × σ :=
  if version ≠ providerSchemaVersion then
    (.providerVersionMismatch, target)
  else match read.readAll payload with
    | none => (.checkpointInvalid, target)
    | some snapshot => match restore snapshot with
      | none => (.checkpointInvalid, target)
      | some restored => (.none, restored)

end RuntimeProvider

open RuntimeProvider

namespace CommandProvider

def encode (snapshot : CommandBufferSnapshot) : CheckpointBlock where
  schema := ⟨commandBufferProviderId, providerSchemaVersion⟩
  payload := PayloadWriter.u64 snapshot.nextSequence ++
    (PayloadWriter.u64 snapshot.includedDurableLsn ++
    (PayloadWriter.u64 (UInt64.ofNat snapshot.pending.length) ++
    snapshot.pending.flatMap writeCommand))

def readSnapshot : ByteReader CommandBufferSnapshot := do
  let nextSequence ← PayloadReader.u64
  let includedDurableLsn ← PayloadReader.u64
  let count ← count64
  let pending ← times readCommand count
  return ⟨nextSequence, includedDurableLsn, pending⟩

def restore : CommandBuffer → ByteString → UInt32 → PersistenceError × CommandBuffer :=
  decodeAndRestore readSnapshot CommandBuffer.restore

end CommandProvider

namespace EventProvider

def encode (snapshot : EventBusSnapshot) : CheckpointBlock where
  schema := ⟨eventBusProviderId, providerSchemaVersion⟩
  payload := PayloadWriter.u64 snapshot.nextSequence ++
    (PayloadWriter.u64 (UInt64.ofNat snapshot.pending.length) ++
    snapshot.pending.flatMap writeEvent)

def readSnapshot : ByteReader EventBusSnapshot := do
  let nextSequence ← PayloadReader.u64
  let count ← count64
  let pending ← times readEvent count
  return ⟨nextSequence, pending⟩

def restore : EventBus → ByteString → UInt32 → PersistenceError × EventBus :=
  decodeAndRestore readSnapshot EventBus.restore

end EventProvider

namespace IntentProvider

def encode (snapshot : DecisionIntentSnapshot) : CheckpointBlock where
  schema := ⟨aiIntentsProviderId, providerSchemaVersion⟩
  payload := PayloadWriter.u64 snapshot.nextSequence ++
    (PayloadWriter.u64 (UInt64.ofNat snapshot.pending.length) ++
    snapshot.pending.flatMap writeIntent)

def readSnapshot : ByteReader DecisionIntentSnapshot := do
  let nextSequence ← PayloadReader.u64
  let count ← count64
  let pending ← times readIntent count
  return ⟨nextSequence, pending⟩

def restore : DecisionIntentBuffer → ByteString → UInt32 →
    PersistenceError × DecisionIntentBuffer :=
  decodeAndRestore readSnapshot DecisionIntentBuffer.restore

end IntentProvider

section Limits

/-- A relation the command reader accepts. -/
structure ReadableRelation (relation : Relation) : Prop where
  allowed : providerLimits.AllowsRelation relation
  target : WorldId.valid relation.target
  type : relation.type ≠ []

structure ReadableObject (object : WorldObject) : Prop where
  allowed : providerLimits.AllowsObject object
  id : WorldId.valid object.id
  relations : ∀ relation ∈ object.relations, ReadableRelation relation
  capabilities : ∀ capability ∈ object.capabilities, capability ≠ []
  version : object.version ≠ 0

def ReadablePayload : CommandPayload → Prop
  | .createObject object => ReadableObject object
  | .destroyObject id => WorldId.valid id
  | .setProperty id key value =>
    WorldId.valid id ∧ (key ≠ [] ∧ providerLimits.AllowsString key) ∧
      providerLimits.AllowsValue value

/-- An event type and payload the event reader and `EventBus::restore` accept. -/
structure ReadableEvent (type : ByteString) (payload : PropertyBag) : Prop where
  named : type ≠ []
  type : providerLimits.AllowsString type
  payload : providerLimits.AllowsBag payload

structure ReadableIntent (intent : SetPropertyIntent) : Prop where
  key : providerLimits.AllowsString intent.key
  value : providerLimits.AllowsValue intent.value

instance (relation : Relation) : Decidable (ReadableRelation relation) :=
  decidable_of_iff (providerLimits.AllowsRelation relation ∧ WorldId.valid relation.target ∧
      relation.type ≠ [])
    ⟨fun all => ⟨all.1, all.2.1, all.2.2⟩, fun fits => ⟨fits.allowed, fits.target, fits.type⟩⟩

instance (object : WorldObject) : Decidable (ReadableObject object) :=
  decidable_of_iff ((providerLimits.AllowsObject object ∧ WorldId.valid object.id) ∧
      (∀ relation ∈ object.relations, ReadableRelation relation) ∧
      (∀ capability ∈ object.capabilities, capability ≠ []) ∧ object.version ≠ 0)
    ⟨fun all => ⟨all.1.1, all.1.2, all.2.1, all.2.2.1, all.2.2.2⟩,
      fun fits => ⟨⟨fits.allowed, fits.id⟩, fits.relations, fits.capabilities, fits.version⟩⟩

instance : (payload : CommandPayload) → Decidable (ReadablePayload payload)
  | .createObject object => inferInstanceAs (Decidable (ReadableObject object))
  | .destroyObject id => inferInstanceAs (Decidable (WorldId.valid id = true))
  | .setProperty id key value =>
    inferInstanceAs (Decidable (WorldId.valid id ∧ (key ≠ [] ∧ providerLimits.AllowsString key) ∧
      providerLimits.AllowsValue value))

instance (type : ByteString) (payload : PropertyBag) : Decidable (ReadableEvent type payload) :=
  decidable_of_iff (type ≠ [] ∧ providerLimits.AllowsString type ∧
      providerLimits.AllowsBag payload)
    ⟨fun all => ⟨all.1, all.2.1, all.2.2⟩, fun fits => ⟨fits.named, fits.type, fits.payload⟩⟩

instance (intent : SetPropertyIntent) : Decidable (ReadableIntent intent) :=
  decidable_of_iff (providerLimits.AllowsString intent.key ∧
      providerLimits.AllowsValue intent.value)
    ⟨fun all => ⟨all.1, all.2⟩, fun fits => ⟨fits.key, fits.value⟩⟩

end Limits

section RoundTrip

namespace RuntimeProvider

theorem reads_count64 {count : Nat} (few : count ≤ maxProviderItems) :
    Reads count64 (PayloadWriter.u64 (UInt64.ofNat count)) count := by
  have small : count < 2 ^ 64 := few.trans_lt (by decide)
  have exact_count : (UInt64.ofNat count).toNat = count := UInt64.toNat_ofNat_of_lt' small
  refine (reads_u64 (UInt64.ofNat count)).last ?_
  rw [exact_count]
  exact Reads.guard few (Reads.pure count)

theorem reads_relation {relation : Relation} (fits : ReadableRelation relation) :
    Reads readRelation (writeRelation relation) relation :=
  (reads_u64 relation.target).bind (Reads.guard fits.target
    ((reads_string fits.allowed.type).bind (Reads.guard fits.type
    ((reads_bag fits.allowed.attributes).last (Reads.pure relation)))))

theorem reads_capability {capability : ByteString} (named : capability ≠ [])
    (short : providerLimits.AllowsString capability) :
    Reads readCapability (PayloadWriter.string capability) capability :=
  (reads_string short).last (Reads.guard named (Reads.pure capability))

theorem reads_object {object : WorldObject} (fits : ReadableObject object) :
    Reads readObject (writeObject object) object := by
  have allowed := fits.allowed
  refine (reads_u64 object.id).bind (Reads.guard fits.id
    ((reads_string allowed.geometryRef).bind ((reads_u64 object.position.x).bind
    ((reads_u64 object.position.y).bind ((reads_u64 object.position.z).bind
    ((reads_string allowed.semanticType).bind ((reads_bag allowed.properties).bind
    ((reads_bag allowed.state).bind ((reads_count32 allowed.relationCount).bind ?_)))))))))
  refine (Reads.times fun relation member => reads_relation (fits.relations relation member)).bind
    ((reads_count32 allowed.capabilityCount).bind ((Reads.times fun capability member =>
      reads_capability (fits.capabilities capability member)
        (allowed.capabilities capability member)).bind ?_))
  refine (reads_u8 object.lifecycle.code).bind (Reads.guard (lifecycle_code_le _)
    ((reads_u64 object.version).bind (Reads.guard fits.version
    ((reads_u64 object.revision).last ?_))))
  rw [lifecycleOf_code]
  exact Reads.pure object

theorem reads_payload {payload : CommandPayload} (fits : ReadablePayload payload) :
    Reads readPayload (writePayload payload) payload := by
  cases payload with
  | createObject object => exact (reads_u8 0).bind ((reads_object fits).last (Reads.pure _))
  | destroyObject id =>
    exact (reads_u8 1).bind ((reads_u64 id).last (Reads.guard fits (Reads.pure _)))
  | setProperty id key value =>
    obtain ⟨valid, ⟨named, short⟩, small⟩ := fits
    exact (reads_u8 2).bind ((reads_u64 id).bind (Reads.guard valid
      ((reads_string short).bind (Reads.guard named
      ((reads_value small).last (Reads.pure _))))))

theorem reads_command {command : Command} (fits : ReadablePayload command.payload) :
    Reads readCommand (writeCommand command) command :=
  (reads_u64 command.sequence).bind ((reads_u64 command.targetTick).bind
    ((reads_u64 command.meta.ingressSequence).bind ((reads_u64 command.meta.durableLsn).bind
    ((reads_u64 command.meta.expectedObjectVersion).bind
    ((reads_payload fits).last (Reads.pure command))))))

theorem reads_event {event : Event} (fits : ReadableEvent event.type event.payload) :
    Reads readEvent (writeEvent event) event := by
  have inside : Int32.minValue.toInt64 ≤ event.priority.toInt64 ∧
      event.priority.toInt64 ≤ Int32.maxValue.toInt64 := by
    simp only [Int64.le_iff_toInt_le, Int32.toInt_toInt64]
    exact ⟨event.priority.minValue_le_toInt, event.priority.toInt_le⟩
  refine (reads_u64 event.sequence).bind ((reads_u64 event.targetTick).bind
    ((reads_i64 event.priority.toInt64).bind (Reads.guard inside
    ((reads_string fits.type).bind ((reads_u64 event.subject).bind
    ((reads_bag fits.payload).last ?_))))))
  rw [Int32.toInt32_toInt64]
  exact Reads.pure event

theorem reads_intent {pending : PendingIntent} (fits : ReadableIntent pending.intent) :
    Reads readIntent (writeIntent pending) pending :=
  (reads_u64 pending.sequence).bind ((reads_u64 pending.targetTick).bind
    ((reads_u64 pending.intent.target).bind ((reads_string fits.key).bind
    ((reads_value fits.value).last (Reads.pure pending)))))

/-- A payload that is read back whole is left to the owner's test. -/
theorem decodeAndRestore_of_reads {σ : Type} {read : ByteReader σ} {restore : σ → Option σ}
    {payload : ByteString} {snapshot restored : σ} (whole : Reads read payload snapshot)
    (accepted : restore snapshot = some restored) (target : σ) :
    decodeAndRestore read restore target payload providerSchemaVersion = (.none, restored) := by
  rw [decodeAndRestore, if_neg (not_not_intro rfl), whole.readAll]
  simp only [accepted]

end RuntimeProvider

theorem CommandProvider.reads_snapshot {snapshot : CommandBufferSnapshot}
    (few : snapshot.pending.length ≤ maxProviderItems)
    (fits : ∀ command ∈ snapshot.pending, ReadablePayload command.payload) :
    Reads readSnapshot (encode snapshot).payload snapshot :=
  (reads_u64 snapshot.nextSequence).bind ((reads_u64 snapshot.includedDurableLsn).bind
    ((reads_count64 few).bind
    ((Reads.times fun command member => reads_command (fits command member)).last
      (Reads.pure snapshot))))

theorem EventProvider.reads_snapshot {snapshot : EventBusSnapshot}
    (few : snapshot.pending.length ≤ maxProviderItems)
    (fits : ∀ event ∈ snapshot.pending, ReadableEvent event.type event.payload) :
    Reads readSnapshot (encode snapshot).payload snapshot :=
  (reads_u64 snapshot.nextSequence).bind ((reads_count64 few).bind
    ((Reads.times fun event member => reads_event (fits event member)).last
      (Reads.pure snapshot)))

theorem IntentProvider.reads_snapshot {snapshot : DecisionIntentSnapshot}
    (few : snapshot.pending.length ≤ maxProviderItems)
    (fits : ∀ pending ∈ snapshot.pending, ReadableIntent pending.intent) :
    Reads readSnapshot (encode snapshot).payload snapshot :=
  (reads_u64 snapshot.nextSequence).bind ((reads_count64 few).bind
    ((Reads.times fun pending member => reads_intent (fits pending member)).last
      (Reads.pure snapshot)))

end RoundTrip

end GeoWorld.Persistence
