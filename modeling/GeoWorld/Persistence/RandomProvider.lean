import Mathlib
import GeoWorld.Foundation.RandomStreams
import GeoWorld.Persistence.OverlayPublish
import GeoWorld.Persistence.RuntimeProvider

/-!
The checkpoint provider of the random streams. What it writes of the streams that a run has made
gives these streams back in whatever process reads it, or is refused because of its size.
-/

namespace GeoWorld.Persistence

open WorldModel Library ByteReader Foundation RuntimeProvider

def randomStreamsProviderId : ByteString := asciiBytes "random_streams".toList

namespace RandomProvider

def writeItem (item : NamedRandomStreamState) : ByteString :=
  PayloadWriter.string item.name ++ PayloadWriter.u64 item.state

def readItem : ByteReader NamedRandomStreamState := do
  let name ← PayloadReader.string providerLimits
  let state ← PayloadReader.u64
  return ⟨name, state⟩

def encode (items : List NamedRandomStreamState) : CheckpointBlock where
  schema := ⟨randomStreamsProviderId, providerSchemaVersion⟩
  payload := PayloadWriter.u64 (UInt64.ofNat items.length) ++ items.flatMap writeItem

def readItems : ByteReader (List NamedRandomStreamState) := do
  let count ← count64
  times readItem count

/-- `decode` into the streams of the process, which a refused payload leaves as they are. -/
def restore (target : NamedRandomStreams) (payload : ByteString) (version : UInt32) :
    PersistenceError × NamedRandomStreams :=
  if version ≠ providerSchemaVersion then
    (.providerVersionMismatch, target)
  else
    ((readItems.readAll payload).bind NamedRandomStreams.restore).elim (.checkpointInvalid, target)
      fun restored => (.none, restored)

/-- The size of what the provider reads back. -/
structure Readable (limits : PayloadLimits) (items : List NamedRandomStreamState) : Prop where
  few : items.length ≤ maxProviderItems
  short : ∀ item ∈ items, limits.AllowsString item.name

instance (limits : PayloadLimits) (items : List NamedRandomStreamState) :
    Decidable (Readable limits items) :=
  decidable_of_iff (items.length ≤ maxProviderItems ∧ ∀ item ∈ items, limits.AllowsString item.name)
    ⟨fun all => ⟨all.1, all.2⟩, fun fits => ⟨fits.few, fits.short⟩⟩

variable {items : List NamedRandomStreamState}

theorem reads_item {item : NamedRandomStreamState} (short : providerLimits.AllowsString item.name) :
    Reads readItem (writeItem item) item :=
  (reads_string short).bind ((reads_u64 item.state).last (Reads.pure item))

theorem reads_items (fits : Readable providerLimits items) :
    Reads readItems (encode items).payload items :=
  (reads_count64 fits.few).bind (Reads.times fun item member => reads_item (fits.short item member))

theorem admits_item {item : NamedRandomStreamState} (uncut : sizeLimits.AllowsString item.name) :
    Admits readItem (writeItem item) (providerLimits.AllowsString item.name) item :=
  (admits_string uncut).bind fun short => (reads_u64 item.state).lastAdmits (Admits.pure short)

theorem admits_count64 {count : Nat} (counted : count < 2 ^ 64) :
    Admits count64 (PayloadWriter.u64 (UInt64.ofNat count)) (count ≤ maxProviderItems) count := by
  have exact_count : (UInt64.ofNat count).toNat = count := UInt64.toNat_ofNat_of_lt' counted
  refine (reads_u64 (UInt64.ofNat count)).lastAdmits ?_
  rw [exact_count]
  exact Admits.guard fun few => Admits.pure few

theorem admits_items (counted : items.length < 2 ^ 64)
    (uncut : ∀ item ∈ items, sizeLimits.AllowsString item.name) :
    Admits readItems (encode items).payload (Readable providerLimits items) items := by
  have each : Admits (times readItem items.length) (items.flatMap writeItem)
      (∀ item ∈ items, providerLimits.AllowsString item.name) items :=
    Admits.times fun item member => admits_item (uncut item member)
  refine (admits_count64 counted).bind fun few rest result read => ?_
  obtain ⟨short, same⟩ := each rest result read
  exact ⟨⟨few, short⟩, same⟩

/-- Whatever a run of the streams has made, what the provider writes of it gives the same streams
back in any process if its size is within the limits, and leaves the process as it was if not. -/
theorem random_streams_reopened (requests : List NamedRandomStreams.StreamRequest)
    (target : NamedRandomStreams)
    (counted : (NamedRandomStreams.serveAll ∅ requests).2.snapshot.length < 2 ^ 64)
    (uncut : ∀ item ∈ (NamedRandomStreams.serveAll ∅ requests).2.snapshot,
      sizeLimits.AllowsString item.name) :
    let streams := (NamedRandomStreams.serveAll ∅ requests).2
    restore target (encode streams.snapshot).payload (encode streams.snapshot).schema.schemaVersion =
      if Readable providerLimits streams.snapshot then (.none, streams)
      else (.checkpointInvalid, target) := by
  intro streams
  have named : streams[([] : ByteString)]? = none :=
    NamedRandomStreams.serveAll_named Std.ExtTreeMap.getElem?_empty requests
  have version : (encode streams.snapshot).schema.schemaVersion = providerSchemaVersion := rfl
  rw [restore, if_neg (not_not_intro version)]
  by_cases fits : Readable providerLimits streams.snapshot
  · rw [if_pos fits, (reads_items fits).readAll, Option.bind_some,
      NamedRandomStreams.restore_snapshot named]
    rfl
  · rw [if_neg fits]
    cases read : readItems.readAll (encode streams.snapshot).payload with
    | none => rfl
    | some items => exact absurd ((admits_items counted uncut).readAll read).1 fits

def drawnStreams : List NamedRandomStreams.StreamRequest :=
  [.create [1] 5, .create [2] 7, .draw [2], .checkpoint, .draw [1], .draw [2]]

theorem random_streams_reopened_drawn :
    let streams := (NamedRandomStreams.serveAll ∅ drawnStreams).2
    restore ((∅ : NamedRandomStreams).insert [3] ⟨1⟩) (encode streams.snapshot).payload
      providerSchemaVersion = (.none, streams) :=
  (random_streams_reopened drawnStreams _ (by decide +kernel) (by decide +kernel)).trans
    (if_pos (by decide +kernel))

end RandomProvider

end GeoWorld.Persistence
