import Mathlib
import GeoWorld.Gateway.HandOverStep
import GeoWorld.Simulation.CommandBuffer

/-!
The main loop of the daemon: the runtime executes a tick, reports the outcomes to the
gateway, and between ticks the gateway serves its clients and polls the tickets of the
write-ahead log. The gateway submits into the command buffer of the runtime.
The writer thread fulfils tickets in the order of the appends, with ascending LSNs
(other records may take LSNs in between) until a fault, after which it fails them all.
-/

namespace GeoWorld.Gateway

open WorldModel Library Simulation

/-- How far the writer thread is. -/
structure WalProgress where
  fulfilled : Nat := 0
  lastLsn : UInt64 := 0
  fault : Bool := false
  deriving DecidableEq

/-- The LSN a capture records, and the durable commands handed over before it. -/
structure CapturedLsn where
  includedLsn : UInt64
  handed : List HandOver
  deriving DecidableEq

/-- `executed` records the commands every tick ran, in order. -/
structure GatewayLoop where
  admission : AdmissionSystem CommandBuffer
  wal : WalProgress := {}
  world : World := {}
  clock : UInt64 := 0
  executed : List (UInt64 × List Command) := []
  captures : List CapturedLsn := []

inductive LoopEvent where
  | admission (event : AdmissionEvent)
  /-- The writer thread made the next record durable, or could not. -/
  | commit (lsn : UInt64)
  | fail
  /-- `WorldRuntime::submit` without metadata. -/
  | submit (targetTick : UInt64) (payload : CommandPayload)
  /-- A tick: the due commands run, then the phases change the world and enqueue commands of
  their own, then the gateway learns the outcomes. -/
  | tick (world : World) (internal : List (UInt64 × CommandPayload))
      (accepts : CommandOutcome → Bool)
  | capture

namespace GatewayLoop

def buffer (loop : GatewayLoop) : CommandBuffer :=
  loop.admission.target

def setBuffer (loop : GatewayLoop) (buffer : CommandBuffer) : GatewayLoop :=
  { loop with admission := { loop.admission with target := buffer } }

def enqueueInternal (buffer : CommandBuffer) (command : UInt64 × CommandPayload) :
    CommandBuffer :=
  (buffer.enqueue command.1 command.2 {}).2

def fulfillNext (loop : GatewayLoop) (outcome : DurableAppendOutcome) (wal : WalProgress) :
    Option GatewayLoop :=
  (loop.admission.log.fulfill loop.wal.fulfilled outcome).map fun log =>
    { loop with
      admission := { loop.admission with log := log }
      wal := { wal with fulfilled := loop.wal.fulfilled + 1 } }

/-- `WorldRuntime::step` and the report to the gateway. -/
def runTick (loop : GatewayLoop) (world : World) (internal : List (UInt64 × CommandPayload))
    (accepts : CommandOutcome → Bool) : GatewayLoop :=
  let (report, buffer, _) := loop.buffer.apply loop.world loop.clock
  let stepped := { loop.setBuffer (internal.foldl enqueueInternal buffer) with
    world := world
    clock := loop.clock + 1
    executed := loop.executed ++ [(loop.clock, loop.buffer.due loop.clock)] }
  { stepped with admission := stepped.admission.onCommandsApplied report accepts }

def step (loop : GatewayLoop) : LoopEvent → Option GatewayLoop
  | .admission (.fulfill _ _) => none
  | .admission (.onCommandsApplied _ _) => none
  | .admission event =>
    (loop.admission.step event).map fun admission => { loop with admission := admission }
  | .commit lsn =>
    if loop.wal.fault ∨ lsn ≤ loop.wal.lastLsn then none
    else loop.fulfillNext ⟨lsn, true⟩ { loop.wal with lastLsn := lsn }
  | .fail => loop.fulfillNext ⟨0, false⟩ { loop.wal with fault := true }
  | .submit targetTick payload =>
    if loop.admission.polling.isSome then none
    else some (loop.setBuffer (enqueueInternal loop.buffer (targetTick, payload)))
  | .tick world internal accepts =>
    if loop.admission.polling.isSome then none
    else some (loop.runTick world internal accepts)
  | .capture =>
    if loop.admission.polling.isSome then none
    else some { loop with
      captures := loop.captures ++ [⟨loop.buffer.includedDurableLsn, loop.admission.handed⟩] }

abbrev Step (before : GatewayLoop) (event : LoopEvent) (after : GatewayLoop) : Prop :=
  before.step event = some after

/-- A process whose command buffer is new. -/
def start (config : GatewayConfig) (authorization : AuthorizationPolicy)
    (index : DurableIdempotencyIndex) (durableLog : Bool) (world : World) (clock : UInt64) :
    GatewayLoop :=
  { admission := AdmissionSystem.start config authorization index durableLog
      (some CommandBuffer.enqueue) {}
    world := world
    clock := clock }

/-- What the writer thread has done after one more record: an LSN is larger than the ones
before it. -/
structure Advances (before : WalProgress) (outcome : DurableAppendOutcome)
    (after : WalProgress) : Prop where
  last : before.lastLsn ≤ after.lastLsn
  assigned : outcome.ok = true → before.lastLsn < outcome.lsn ∧ after.lastLsn = outcome.lsn

/-- The kinds of steps, by what they do to the buffer and the admission. -/
theorem step_cases {before after : GatewayLoop} {event : LoopEvent}
    (stepped : before.step event = some after) :
    (∃ inner admission, event = .admission inner ∧
      before.admission.step inner = some admission ∧
      after = { before with admission := admission }) ∨
    (∃ outcome wal, Advances before.wal outcome wal ∧
      before.fulfillNext outcome wal = some after) ∨
    (∃ targetTick payload, before.admission.polling = none ∧
      after = before.setBuffer (enqueueInternal before.buffer (targetTick, payload))) ∨
    (∃ world internal accepts, before.admission.polling = none ∧
      after = before.runTick world internal accepts) ∨
    (before.admission.polling = none ∧ after = { before with
      captures := before.captures ++
        [⟨before.buffer.includedDurableLsn, before.admission.handed⟩] }) := by
  cases event with
  | admission inner =>
    cases inner with
    | fulfill ticket outcome => cases stepped
    | onCommandsApplied report accepts => cases stepped
    | _ =>
      obtain ⟨admission, moved, rfl⟩ := Option.map_eq_some_iff.mp stepped
      exact .inl ⟨_, admission, rfl, moved, rfl⟩
  | commit lsn =>
    simp only [step] at stepped
    split at stepped
    · cases stepped
    · rename_i free
      have later : before.wal.lastLsn < lsn := UInt64.not_le.mp fun le => free (.inr le)
      exact .inr (.inl ⟨_, _, ⟨UInt64.le_of_lt later, fun _ => ⟨later, rfl⟩⟩, stepped⟩)
  | fail =>
    have advances : Advances before.wal ⟨0, false⟩ { before.wal with fault := true } :=
      ⟨UInt64.le_refl _, fun ok => by cases ok⟩
    exact .inr (.inl ⟨_, _, advances, stepped⟩)
  | submit targetTick payload =>
    simp only [step] at stepped
    split at stepped
    · cases stepped
    · rename_i idle
      obtain rfl := Option.some.inj stepped
      exact .inr (.inr (.inl ⟨targetTick, payload, by simpa using idle, rfl⟩))
  | tick world internal accepts =>
    simp only [step] at stepped
    split at stepped
    · cases stepped
    · rename_i idle
      obtain rfl := Option.some.inj stepped
      exact .inr (.inr (.inr (.inl ⟨world, internal, accepts, by simpa using idle, rfl⟩)))
  | capture =>
    simp only [step] at stepped
    split at stepped
    · cases stepped
    · rename_i idle
      obtain rfl := Option.some.inj stepped
      exact .inr (.inr (.inr (.inr ⟨by simpa using idle, rfl⟩)))

theorem fulfillNext_cases {before after : GatewayLoop} {outcome : DurableAppendOutcome}
    {wal : WalProgress} (stepped : before.fulfillNext outcome wal = some after) :
    ∃ log, before.admission.log.fulfill before.wal.fulfilled outcome = some log ∧
      after = { before with
        admission := { before.admission with log := log }
        wal := { wal with fulfilled := before.wal.fulfilled + 1 } } := by
  obtain ⟨log, fulfilled, same⟩ := Option.map_eq_some_iff.mp stepped
  exact ⟨log, fulfilled, same.symm⟩

/-- Every step keeps the ledger of the gateway sound. -/
theorem step_admissible {before after : GatewayLoop} {event : LoopEvent}
    (admissible : before.admission.Admissible) (stepped : before.step event = some after) :
    after.admission.Admissible := by
  rcases step_cases stepped with ⟨inner, admission, _, moved, rfl⟩ | ⟨outcome, wal, _, fulfilled⟩ |
    ⟨targetTick, payload, _, rfl⟩ | ⟨world, internal, accepts, _, rfl⟩ | ⟨_, rfl⟩
  · obtain ⟨ledger, filed⟩ := AdmissionSystem.step_effect admissible.filed admissible.sound moved
    exact ⟨filed, admissible.sound.step ledger⟩
  · obtain ⟨log, _, rfl⟩ := fulfillNext_cases fulfilled
    exact ⟨admissible.filed.same rfl (UInt64.le_refl _), admissible.sound⟩
  · exact ⟨admissible.filed.same rfl (UInt64.le_refl _), admissible.sound⟩
  · let report := (before.buffer.apply before.world before.clock).1
    let ran := (before.setBuffer (internal.foldl enqueueInternal
      (before.buffer.apply before.world before.clock).2.1)).admission
    obtain ⟨ledger, pending, ingress⟩ := ran.onCommandsApplied_effect report accepts
    have sound : (ran.onCommandsApplied report accepts).ledger.Sound := by
      rw [ledger]
      exact admissible.sound
    exact ⟨admissible.filed.same pending (ingress ▸ UInt64.le_refl _), sound⟩
  · exact admissible

end GatewayLoop

end GeoWorld.Gateway
