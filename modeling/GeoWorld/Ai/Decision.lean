import Mathlib
import GeoWorld.Library.NumberedQueue
import GeoWorld.Simulation.CommandBuffer

/-!
The buffer of decisions. An intent is checked and numbered when it is submitted, and
becomes a command in the first flush that has reached its target tick.
-/

namespace GeoWorld.Ai

open WorldModel Simulation Library

structure SetPropertyIntent where
  target : WorldId
  key : ByteString
  value : Value
  deriving DecidableEq

structure IntentFlushReport where
  enqueued : Nat := 0
  deferred : Nat := 0
  deriving DecidableEq

structure PendingIntent where
  sequence : UInt64
  targetTick : UInt64
  intent : SetPropertyIntent
  deriving DecidableEq

structure DecisionIntentSnapshot where
  nextSequence : UInt64 := 1
  pending : List PendingIntent := []
  deriving DecidableEq

/-- What a `DecisionIntentBuffer` stores, and what its snapshot copies. -/
abbrev DecisionIntentBuffer := DecisionIntentSnapshot

/-- The test of `submit`, which `restore` repeats. -/
def SetPropertyIntent.accepted (intent : SetPropertyIntent) : Bool :=
  WorldId.valid intent.target && !intent.key.isEmpty

namespace DecisionIntentBuffer

def submit (buffer : DecisionIntentBuffer) (targetTick : UInt64) (intent : SetPropertyIntent) :
    Bool × DecisionIntentBuffer :=
  if intent.accepted then
    (true, {
      nextSequence := buffer.nextSequence + 1
      pending := buffer.pending ++ [⟨buffer.nextSequence, targetTick, intent⟩] })
  else
    (false, buffer)

/-- The report, the deferred intents and the commands after a prefix of the loop. -/
structure FlushState where
  report : IntentFlushReport := {}
  deferred : List PendingIntent := []
  commands : CommandBuffer

def flushOne (tick : UInt64) (state : FlushState) (pending : PendingIntent) : FlushState :=
  if tick < pending.targetTick then
    { state with deferred := state.deferred ++ [pending] }
  else
    { state with
      commands := (state.commands.enqueue pending.targetTick
        (.setProperty pending.intent.target pending.intent.key pending.intent.value) {}).2
      report := { state.report with enqueued := state.report.enqueued + 1 } }

/-- The order `flush` goes through the pending intents in. -/
def sorted (buffer : DecisionIntentBuffer) : List PendingIntent :=
  byNumber PendingIntent.sequence buffer.pending

def flush (buffer : DecisionIntentBuffer) (tick : UInt64) (commands : CommandBuffer) :
    IntentFlushReport × CommandBuffer × DecisionIntentBuffer :=
  let final := buffer.sorted.foldl (flushOne tick) { commands := commands }
  ({ final.report with deferred := final.deferred.length }, final.commands,
    { buffer with pending := final.deferred })

/-- `none` is the answer false, which leaves the buffer as it was. -/
def restore (snapshot : DecisionIntentSnapshot) : Option DecisionIntentBuffer :=
  if snapshot.nextSequence = 0 then
    none
  else
    let sorted := DecisionIntentBuffer.sorted snapshot
    if numberedFrom PendingIntent.sequence (fun pending => pending.intent.accepted)
        snapshot.nextSequence 0 sorted then
      some { snapshot with pending := sorted }
    else
      none

theorem flushOne_deferred (tick : UInt64) (pending : List PendingIntent) (state : FlushState) :
    (pending.foldl (flushOne tick) state).deferred =
      state.deferred ++ pending.filter fun pending => decide (tick < pending.targetTick) := by
  induction pending generalizing state with
  | nil => simp
  | cons first rest ih =>
    rw [List.foldl_cons, ih]
    by_cases later : tick < first.targetTick <;> simp [flushOne, later]

/-- What a flush leaves in the buffer. -/
theorem flush_buffer (buffer : DecisionIntentBuffer) (tick : UInt64) (commands : CommandBuffer) :
    (buffer.flush tick commands).2.2 = { buffer with
      pending := buffer.sorted.filter fun pending => decide (tick < pending.targetTick) } := by
  rw [flush, flushOne_deferred, List.nil_append]

end DecisionIntentBuffer

end GeoWorld.Ai
