import Mathlib
import GeoWorld.Library.Runs
import GeoWorld.Persistence.RuntimeProvider
import GeoWorld.Simulation.CommandBuffer

/-!
What becomes of a queue when its snapshot is restored. The restored queue holds its items
in the order of their numbers, and no later operation can tell. A queue may hold what its
provider cannot read back, and then the snapshot is refused.
-/

namespace GeoWorld.Persistence

open WorldModel Library Simulation Rules Ai

/-- The restore succeeded, and the restored object answers as the original does. -/
def Indistinguishable {σ ε ρ : Type} (operate : σ → ε → ρ × σ) (reopened : PersistenceError × σ)
    (original : σ) : Prop :=
  reopened.1 = .none ∧
    ∀ operations, answers operate reopened.2 operations = answers operate original operations

/-- The next item has a number, and so has the one behind it; it can be counted. -/
structure QueueRoom (nextSequence : UInt64) (size : Nat) : Prop where
  number : nextSequence + 1 ≠ 0
  count : size < maxProviderItems

instance (nextSequence : UInt64) (size : Nat) : Decidable (QueueRoom nextSequence size) :=
  decidable_of_iff (nextSequence + 1 ≠ 0 ∧ size < maxProviderItems)
    ⟨fun all => ⟨all.1, all.2⟩, fun room => ⟨room.number, room.count⟩⟩

section Stored

variable {α : Type} (sequence : α → UInt64) (readable : α → Prop)

/-- A queue whose snapshot its provider reads back. -/
structure Restorable (nextSequence : UInt64) (pending : List α) : Prop where
  begun : nextSequence ≠ 0
  few : pending.length ≤ maxProviderItems
  readable : ∀ item ∈ pending, readable item
  numbered : NumberedBelow sequence nextSequence pending

variable {sequence readable} {nextSequence : UInt64} {pending : List α}

theorem Restorable.empty (begun : nextSequence ≠ 0) :
    Restorable sequence readable nextSequence [] :=
  ⟨begun, Nat.zero_le _, by simp, numberedBelow_nil nextSequence⟩

theorem Restorable.concat (held : Restorable sequence readable nextSequence pending) {item : α}
    (room : QueueRoom nextSequence pending.length) (reads : readable item)
    (named : sequence item = nextSequence) :
    Restorable sequence readable (nextSequence + 1) (pending ++ [item]) where
  begun := room.number
  few := by
    rw [List.length_append, List.length_singleton]
    exact room.count
  readable other member := by
    obtain old | same := List.mem_append.mp member
    · exact held.readable other old
    · rw [List.mem_singleton.mp same]
      exact reads
  numbered := held.numbered.concat held.begun room.number named

/-- Reordering and dropping items keeps a queue restorable. -/
theorem Restorable.subperm (held : Restorable sequence readable nextSequence pending)
    {ordered others : List α} (perm : ordered.Perm pending) (part : others.Sublist ordered) :
    Restorable sequence readable nextSequence others where
  begun := held.begun
  few := (part.length_le.trans_eq perm.length_eq).trans held.few
  readable item member := held.readable item (perm.subset (part.subset member))
  numbered := (held.numbered.perm perm).sublist part

end Stored

section Commands

inductive CommandOperation where
  | enqueue (targetTick : UInt64) (payload : CommandPayload) («meta» : CommandMeta)
  | apply (world : World) (tick : UInt64)
  | size

inductive CommandAnswer where
  | sequence (value : UInt64)
  | applied (report : ApplyReport) (world : World)
  | size (value : Nat)

/-- What is asked of an operation on commands for the buffer to stay restorable. -/
def CommandsStorable (buffer : CommandBuffer) : CommandOperation → Prop
  | .enqueue _ payload _ =>
    ReadablePayload payload ∧ QueueRoom buffer.nextSequence buffer.pending.length
  | .apply .. | .size => True

namespace CommandQueue

def operate (buffer : CommandBuffer) : CommandOperation → CommandAnswer × CommandBuffer
  | .enqueue targetTick payload «meta» =>
    let enqueued := CommandBuffer.enqueue buffer targetTick payload «meta»
    (.sequence enqueued.1, enqueued.2)
  | .apply world tick =>
    let applied := CommandBuffer.apply buffer world tick
    (.applied applied.1 applied.2.2, applied.2.1)
  | .size => (.size buffer.pending.length, buffer)

abbrev Holds (buffer : CommandBuffer) : Prop :=
  Restorable Command.sequence (fun command => ReadablePayload command.payload)
    buffer.nextSequence buffer.pending

theorem holds_operate {buffer : CommandBuffer} {operation : CommandOperation}
    (held : Holds buffer) (storable : CommandsStorable buffer operation) :
    Holds (operate buffer operation).2 := by
  cases operation with
  | enqueue targetTick payload «meta» =>
    have more : (operate buffer (.enqueue targetTick payload «meta»)).2 = {
        nextSequence := buffer.nextSequence + 1
        includedDurableLsn := max buffer.includedDurableLsn «meta».durableLsn
        pending := buffer.pending ++ [⟨buffer.nextSequence, targetTick, payload, «meta»⟩] } := by
      simp only [operate, CommandBuffer.enqueue, if_neg held.begun]
    rw [more]
    exact held.concat storable.2 storable.1 rfl
  | apply world tick =>
    have left : (operate buffer (.apply world tick)).2 =
        { buffer with pending := CommandBuffer.deferred buffer tick } :=
      CommandBuffer.apply_buffer tick buffer world
    rw [left]
    exact held.subperm (byNumber_perm Command.sequence buffer.pending) List.filter_sublist
  | size => exact held

/-- Buffers whose commands run in the same order under the same numbers. -/
structure SameOrder (one other : CommandBuffer) : Prop where
  next : one.nextSequence = other.nextSequence
  included : one.includedDurableLsn = other.includedDurableLsn
  sorted : CommandBuffer.sorted one = CommandBuffer.sorted other

theorem sameOrder_operate {one other : CommandBuffer} (operation : CommandOperation)
    (same : SameOrder one other) :
    (operate one operation).1 = (operate other operation).1 ∧
      SameOrder (operate one operation).2 (operate other operation).2 := by
  obtain ⟨next, included, sorted⟩ := same
  cases operation with
  | enqueue targetTick payload «meta» =>
    simp only [operate, CommandBuffer.enqueue, next, included]
    split
    · exact ⟨rfl, next, included, sorted⟩
    · exact ⟨rfl, rfl, rfl, byNumber_concat_congr sorted _⟩
  | apply world tick =>
    simp only [operate, CommandBuffer.apply, sorted]
    exact ⟨trivial, next, included, rfl⟩
  | size =>
    have lengths : one.pending.length = other.pending.length := length_of_byNumber sorted
    simp only [operate, lengths]
    exact ⟨trivial, next, included, sorted⟩

theorem numbered_eq (nextSequence previous : UInt64) (commands : List Command) :
    CommandBuffer.numbered nextSequence previous commands =
      numberedFrom Command.sequence (fun _ => true) nextSequence previous commands := by
  induction commands generalizing previous with
  | nil => rfl
  | cons command rest ih =>
    rw [CommandBuffer.numbered, numberedFrom, ih, Bool.not_true, Bool.or_false]

/-- The restored buffer is the original with its commands in order. -/
theorem restore_sorted {buffer : CommandBuffer} (held : Holds buffer) :
    CommandBuffer.restore buffer =
      some { buffer with pending := CommandBuffer.sorted buffer } := by
  have accepted : CommandBuffer.numbered buffer.nextSequence 0 (CommandBuffer.sorted buffer) := by
    rw [numbered_eq]
    exact held.numbered.restorable fun _ _ => rfl
  rw [CommandBuffer.restore, if_neg held.begun]
  exact if_pos accepted

theorem indistinguishable {buffer : CommandBuffer} (held : Holds buffer) :
    Indistinguishable operate
      (CommandProvider.restore {} (CommandProvider.encode buffer).payload
        (CommandProvider.encode buffer).schema.schemaVersion) buffer := by
  have reopened := RuntimeProvider.decodeAndRestore_of_reads
    (CommandProvider.reads_snapshot held.few held.readable) (restore_sorted held) {}
  rw [CommandProvider.restore, CommandProvider.encode] at *
  rw [reopened]
  refine ⟨rfl, answers_eq operate (fun one other operation => sameOrder_operate operation)
    ⟨rfl, rfl, ?_⟩⟩
  exact byNumber_byNumber Command.sequence buffer.pending

end CommandQueue

end Commands

section Events

inductive EventOperation where
  | publish (targetTick : UInt64) (priority : Int32) (type : ByteString) (subject : WorldId)
      (payload : PropertyBag)
  | drain (tick : UInt64)
  | size

inductive EventAnswer where
  | sequence (value : UInt64)
  | due (events : List Event)
  | size (value : Nat)

/-- What is asked of an operation on events for the bus to stay restorable. -/
def EventsStorable (bus : EventBus) : EventOperation → Prop
  | .publish _ _ type _ payload =>
    ReadableEvent type payload ∧ QueueRoom bus.nextSequence bus.pending.length
  | .drain _ | .size => True

namespace EventQueue

def operate (bus : EventBus) : EventOperation → EventAnswer × EventBus
  | .publish targetTick priority type subject payload =>
    let published := EventBus.publish bus targetTick priority type subject payload
    (.sequence published.1, published.2)
  | .drain tick =>
    let drained := EventBus.drain bus tick
    (.due drained.1, drained.2)
  | .size => (.size bus.pending.length, bus)

abbrev Holds (bus : EventBus) : Prop :=
  Restorable Event.sequence (fun event => ReadableEvent event.type event.payload)
    bus.nextSequence bus.pending

theorem holds_operate {bus : EventBus} {operation : EventOperation} (held : Holds bus)
    (storable : EventsStorable bus operation) : Holds (operate bus operation).2 := by
  cases operation with
  | publish targetTick priority type subject payload => exact held.concat storable.2 storable.1 rfl
  | drain tick => exact held.subperm (EventBus.ordered_perm bus) List.filter_sublist
  | size => exact held

/-- Buses whose events leave in the same order under the same numbers. -/
structure SameOrder (one other : EventBus) : Prop where
  next : one.nextSequence = other.nextSequence
  ordered : EventBus.ordered one = EventBus.ordered other

theorem sameOrder_operate {one other : EventBus} (operation : EventOperation)
    (same : SameOrder one other) :
    (operate one operation).1 = (operate other operation).1 ∧
      SameOrder (operate one operation).2 (operate other operation).2 := by
  obtain ⟨next, ordered⟩ := same
  cases operation with
  | publish targetTick priority type subject payload =>
    simp only [operate, EventBus.publish, EventBus.schedule, next]
    exact ⟨trivial, rfl, EventBus.ordered_concat_congr ordered _⟩
  | drain tick =>
    simp only [operate, EventBus.drain, ordered]
    exact ⟨trivial, next, rfl⟩
  | size =>
    have lengths : one.pending.length = other.pending.length := by
      rw [← (EventBus.ordered_perm one).length_eq, ordered, (EventBus.ordered_perm other).length_eq]
    simp only [operate, lengths]
    exact ⟨trivial, next, ordered⟩

/-- The restored bus is the original with its events in the order of their numbers. -/
theorem restore_byNumber {bus : EventBus} (held : Holds bus) :
    EventBus.restore bus = some { bus with pending := byNumber Event.sequence bus.pending } := by
  have accepted : numberedFrom Event.sequence (fun event => !event.type.isEmpty)
      bus.nextSequence 0 (byNumber Event.sequence bus.pending) := by
    refine held.numbered.restorable fun event member => ?_
    rw [Bool.not_eq_true', List.isEmpty_eq_false_iff]
    exact (held.readable event member).named
  rw [EventBus.restore, if_neg held.begun]
  exact if_pos accepted

/-- Events with different numbers have different places, so their list may be reordered. -/
theorem ordered_byNumber {bus : EventBus} (held : Holds bus) :
    EventBus.ordered { bus with pending := byNumber Event.sequence bus.pending } =
      EventBus.ordered bus :=
  EventBus.ordered_congr (byNumber_perm Event.sequence bus.pending)
    fun _ member _ other number => held.numbered.unique
      ((byNumber_perm Event.sequence bus.pending).subset member)
      ((byNumber_perm Event.sequence bus.pending).subset other) number

theorem indistinguishable {bus : EventBus} (held : Holds bus) :
    Indistinguishable operate
      (EventProvider.restore {} (EventProvider.encode bus).payload
        (EventProvider.encode bus).schema.schemaVersion) bus := by
  have reopened := RuntimeProvider.decodeAndRestore_of_reads
    (EventProvider.reads_snapshot held.few held.readable) (restore_byNumber held) {}
  rw [EventProvider.restore, EventProvider.encode] at *
  rw [reopened]
  exact ⟨rfl, answers_eq operate (fun one other operation => sameOrder_operate operation)
    ⟨rfl, ordered_byNumber held⟩⟩

end EventQueue

end Events

section Intents

inductive IntentOperation where
  | submit (targetTick : UInt64) (intent : SetPropertyIntent)
  | flush (tick : UInt64) (commands : CommandBuffer)
  | size

inductive IntentAnswer where
  | submitted (value : Bool)
  | flushed (report : IntentFlushReport) (commands : CommandBuffer)
  | size (value : Nat)

/-- What is asked of an operation on intents for the buffer to stay restorable. -/
def IntentsStorable (buffer : DecisionIntentBuffer) : IntentOperation → Prop
  | .submit _ intent =>
    intent.accepted → ReadableIntent intent ∧ QueueRoom buffer.nextSequence buffer.pending.length
  | .flush .. | .size => True

namespace IntentQueue

def operate (buffer : DecisionIntentBuffer) :
    IntentOperation → IntentAnswer × DecisionIntentBuffer
  | .submit targetTick intent =>
    let submitted := DecisionIntentBuffer.submit buffer targetTick intent
    (.submitted submitted.1, submitted.2)
  | .flush tick commands =>
    let flushed := DecisionIntentBuffer.flush buffer tick commands
    (.flushed flushed.1 flushed.2.1, flushed.2.2)
  | .size => (.size buffer.pending.length, buffer)

abbrev Holds (buffer : DecisionIntentBuffer) : Prop :=
  Restorable PendingIntent.sequence
    (fun pending => ReadableIntent pending.intent ∧ pending.intent.accepted)
    buffer.nextSequence buffer.pending

theorem holds_operate {buffer : DecisionIntentBuffer} {operation : IntentOperation}
    (held : Holds buffer) (storable : IntentsStorable buffer operation) :
    Holds (operate buffer operation).2 := by
  cases operation with
  | submit targetTick intent =>
    simp only [operate, DecisionIntentBuffer.submit]
    split
    · rename_i accepted
      obtain ⟨reads, room⟩ := storable accepted
      exact held.concat room ⟨reads, accepted⟩ rfl
    · exact held
  | flush tick commands =>
    simp only [operate, DecisionIntentBuffer.flush_buffer]
    exact held.subperm (byNumber_perm PendingIntent.sequence buffer.pending) List.filter_sublist
  | size => exact held

/-- Buffers whose intents are flushed in the same order under the same numbers. -/
structure SameOrder (one other : DecisionIntentBuffer) : Prop where
  next : one.nextSequence = other.nextSequence
  sorted : DecisionIntentBuffer.sorted one = DecisionIntentBuffer.sorted other

theorem sameOrder_operate {one other : DecisionIntentBuffer} (operation : IntentOperation)
    (same : SameOrder one other) :
    (operate one operation).1 = (operate other operation).1 ∧
      SameOrder (operate one operation).2 (operate other operation).2 := by
  obtain ⟨next, sorted⟩ := same
  cases operation with
  | submit targetTick intent =>
    simp only [operate, DecisionIntentBuffer.submit, next]
    split
    · exact ⟨rfl, rfl, byNumber_concat_congr sorted _⟩
    · exact ⟨rfl, next, sorted⟩
  | flush tick commands =>
    simp only [operate, DecisionIntentBuffer.flush, sorted]
    exact ⟨trivial, next, rfl⟩
  | size =>
    have lengths : one.pending.length = other.pending.length := length_of_byNumber sorted
    simp only [operate, lengths]
    exact ⟨trivial, next, sorted⟩

/-- The restored buffer is the original with its intents in order. -/
theorem restore_sorted {buffer : DecisionIntentBuffer} (held : Holds buffer) :
    DecisionIntentBuffer.restore buffer =
      some { buffer with pending := DecisionIntentBuffer.sorted buffer } := by
  have accepted : numberedFrom PendingIntent.sequence (fun pending => pending.intent.accepted)
      buffer.nextSequence 0 (DecisionIntentBuffer.sorted buffer) :=
    held.numbered.restorable fun pending member => (held.readable pending member).2
  rw [DecisionIntentBuffer.restore, if_neg held.begun]
  exact if_pos accepted

theorem indistinguishable {buffer : DecisionIntentBuffer} (held : Holds buffer) :
    Indistinguishable operate
      (IntentProvider.restore {} (IntentProvider.encode buffer).payload
        (IntentProvider.encode buffer).schema.schemaVersion) buffer := by
  have reopened := RuntimeProvider.decodeAndRestore_of_reads
    (IntentProvider.reads_snapshot held.few fun pending member =>
      (held.readable pending member).1) (restore_sorted held) {}
  rw [IntentProvider.restore, IntentProvider.encode] at *
  rw [reopened]
  exact ⟨rfl, answers_eq operate (fun one other operation => sameOrder_operate operation)
    ⟨rfl, byNumber_byNumber PendingIntent.sequence buffer.pending⟩⟩

end IntentQueue

end Intents

/-- Each queue, restored from its own snapshot into a fresh object, answers as before. -/
structure RestoredAlike (commands : CommandBuffer) (events : EventBus)
    (intents : DecisionIntentBuffer) : Prop where
  commands : Indistinguishable CommandQueue.operate
    (CommandProvider.restore {} (CommandProvider.encode commands).payload
      (CommandProvider.encode commands).schema.schemaVersion) commands
  events : Indistinguishable EventQueue.operate
    (EventProvider.restore {} (EventProvider.encode events).payload
      (EventProvider.encode events).schema.schemaVersion) events
  intents : Indistinguishable IntentQueue.operate
    (IntentProvider.restore {} (IntentProvider.encode intents).payload
      (IntentProvider.encode intents).schema.schemaVersion) intents

section Runs

variable {firstSequence : UInt64} {commandOperations : List CommandOperation}
  {eventOperations : List EventOperation} {intentOperations : List IntentOperation}
  {commands : CommandBuffer} {events : EventBus} {intents : DecisionIntentBuffer}

theorem CommandQueue.holds_run (begun : firstSequence ≠ 0)
    (run : GuardedRun (Moves CommandQueue.operate) CommandsStorable
      { nextSequence := firstSequence } commandOperations commands) : CommandQueue.Holds commands :=
  run.invariant (Restorable.empty begun) fun _ _ _ storable moved held =>
    moved ▸ CommandQueue.holds_operate held storable

theorem EventQueue.holds_run
    (run : GuardedRun (Moves EventQueue.operate) EventsStorable {} eventOperations events) :
    EventQueue.Holds events :=
  run.invariant (Restorable.empty (by decide)) fun _ _ _ storable moved held =>
    moved ▸ EventQueue.holds_operate held storable

theorem IntentQueue.holds_run
    (run : GuardedRun (Moves IntentQueue.operate) IntentsStorable {} intentOperations intents) :
    IntentQueue.Holds intents :=
  run.invariant (Restorable.empty (by decide)) fun _ _ _ storable moved held =>
    moved ▸ IntentQueue.holds_operate held storable

/-- Queues that were given only what their providers read back, and never the last number,
survive a restore unnoticed. -/
theorem queues_restored_alike (begun : firstSequence ≠ 0)
    (commandRun : GuardedRun (Moves CommandQueue.operate) CommandsStorable
      { nextSequence := firstSequence } commandOperations commands)
    (eventRun : GuardedRun (Moves EventQueue.operate) EventsStorable {} eventOperations events)
    (intentRun : GuardedRun (Moves IntentQueue.operate) IntentsStorable {} intentOperations
      intents) : RestoredAlike commands events intents where
  commands := CommandQueue.indistinguishable (CommandQueue.holds_run begun commandRun)
  events := EventQueue.indistinguishable (EventQueue.holds_run eventRun)
  intents := IntentQueue.indistinguishable (IntentQueue.holds_run intentRun)

end Runs

instance (buffer : CommandBuffer) :
    (operation : CommandOperation) → Decidable (CommandsStorable buffer operation)
  | .enqueue _ payload _ => inferInstanceAs (Decidable (ReadablePayload payload ∧
      QueueRoom buffer.nextSequence buffer.pending.length))
  | .apply .. | .size => isTrue trivial

instance (bus : EventBus) :
    (operation : EventOperation) → Decidable (EventsStorable bus operation)
  | .publish _ _ type _ payload => inferInstanceAs (Decidable (ReadableEvent type payload ∧
      QueueRoom bus.nextSequence bus.pending.length))
  | .drain _ | .size => isTrue trivial

instance (buffer : DecisionIntentBuffer) :
    (operation : IntentOperation) → Decidable (IntentsStorable buffer operation)
  | .submit _ intent => inferInstanceAs (Decidable (intent.accepted →
      ReadableIntent intent ∧ QueueRoom buffer.nextSequence buffer.pending.length))
  | .flush .. | .size => isTrue trivial

section Waiting

/-- Two commands, of which one waits for its tick. -/
def waitingCommands : List CommandOperation :=
  [.enqueue 9 (.destroyObject 4) {}, .enqueue 2 (.setProperty 4 [107] (.integer 1)) {},
    .apply {} 3]

/-- Two events that a drain lists against their numbers. -/
def waitingEvents : List EventOperation :=
  [.publish 8 1 [97] 4 ∅, .publish 8 5 [98] 4 ∅, .drain 3]

/-- An intent that waits, in front of one that is flushed. -/
def waitingIntents : List IntentOperation :=
  [.submit 7 ⟨4, [107], .boolean true⟩, .submit 1 ⟨4, [107], .boolean false⟩, .flush 3 {}]

theorem waiting_queues_restored_alike :
    RestoredAlike (moveAll CommandQueue.operate {} waitingCommands)
      (moveAll EventQueue.operate {} waitingEvents)
      (moveAll IntentQueue.operate {} waitingIntents) := by
  have commandRun : GuardedRun (Moves CommandQueue.operate) CommandsStorable
      { nextSequence := firstCommandSequence } waitingCommands _ :=
    .cons (by decide) rfl (.cons (by decide) rfl (.cons (by decide) rfl (.nil _)))
  have eventRun : GuardedRun (Moves EventQueue.operate) EventsStorable {} waitingEvents _ :=
    .cons (by decide) rfl (.cons (by decide) rfl (.cons (by decide) rfl (.nil _)))
  have intentRun : GuardedRun (Moves IntentQueue.operate) IntentsStorable {} waitingIntents _ :=
    .cons (by decide) rfl (.cons (by decide) rfl (.cons (by decide) rfl (.nil _)))
  exact queues_restored_alike (by decide) commandRun eventRun intentRun

end Waiting

/-- A bus takes an event without a type, and its snapshot is refused. -/
theorem untyped_event_refused :
    ¬ ∀ (commandOperations : List CommandOperation) (commands : CommandBuffer)
      (eventOperations : List EventOperation) (events : EventBus)
      (intentOperations : List IntentOperation) (intents : DecisionIntentBuffer),
      AnyRun (Moves CommandQueue.operate) {} commandOperations commands →
      AnyRun (Moves EventQueue.operate) {} eventOperations events →
      AnyRun (Moves IntentQueue.operate) {} intentOperations intents →
      RestoredAlike commands events intents := by
  intro always
  have published : AnyRun (Moves EventQueue.operate) {} [.publish 0 0 [] 4 ∅]
      (moveAll EventQueue.operate {} [.publish 0 0 [] 4 ∅]) := .cons trivial rfl (.nil _)
  have alike := always [] {} _ _ [] {} (.nil _) published (.nil _)
  exact absurd alike.events.1 (by decide +kernel)

end GeoWorld.Persistence
