import Mathlib
import GeoWorld.Gateway.ExactlyOnce
import GeoWorld.Gateway.MainLoop

/-!
Admission order against execution order. Commands run in the order in which they entered
the command buffer. A durable command enters it when the poll loop finds its ticket
resolved, so it can enter behind a command that was admitted later for the same tick;
as long as no turn of a poll does that, every tick runs in admission order.
-/

namespace GeoWorld.Gateway

open WorldModel Library Simulation

/-- A command that was admitted by a gateway; those of the simulation carry the number 0. -/
def External (command : Command) : Prop :=
  command.meta.ingressSequence ≠ 0

/-- External commands for one tick are in admission order. -/
def AdmissionOrdered (earlier later : Command) : Prop :=
  External earlier → External later → earlier.targetTick = later.targetTick →
    earlier.meta.ingressSequence < later.meta.ingressSequence

instance (earlier later : Command) : Decidable (AdmissionOrdered earlier later) := by
  unfold AdmissionOrdered External
  infer_instance

/-- In every tick executed so far, in the order in which `apply` went. -/
def ExecutesInAdmissionOrder (loop : GatewayLoop) : Prop :=
  ∀ batch ∈ loop.executed, batch.2.Pairwise AdmissionOrdered

/-- The poll loop hands nothing over behind a waiting external command for the same tick
that was admitted later. -/
def EntersInOrder (loop : GatewayLoop) : LoopEvent → Prop
  | .admission .pollNext =>
    ∀ (ingress : UInt64) (rest : List UInt64) (pending : PendingDurable)
      (outcome : DurableAppendOutcome),
      loop.admission.polling = some (ingress :: rest) →
      loop.admission.gateway.pendingDurable[ingress]? = some pending →
      loop.admission.log.tryOutcome pending.ticket = some outcome → outcome.ok = true →
      ∀ command ∈ loop.buffer.pending, External command →
        command.targetTick = pending.targetTick →
        command.meta.ingressSequence < pending.ingressSequence
  | _ => True

structure BufferInOrder (buffer : CommandBuffer) (ingress : UInt64) : Prop where
  numbered : buffer.Numbered
  bounded : ∀ command ∈ buffer.pending, command.meta.ingressSequence ≤ ingress
  ordered : buffer.pending.Pairwise AdmissionOrdered

theorem BufferInOrder.enqueue {buffer : CommandBuffer} {ingress later : UInt64}
    (inOrder : BufferInOrder buffer ingress) (targetTick : UInt64) (payload : CommandPayload)
    («meta» : CommandMeta) (counted : ingress ≤ later)
    (bound : «meta».ingressSequence ≤ later)
    (behind : ∀ command ∈ buffer.pending, External command → «meta».ingressSequence ≠ 0 →
      command.targetTick = targetTick →
      command.meta.ingressSequence < «meta».ingressSequence) :
    BufferInOrder (buffer.enqueue targetTick payload «meta»).2 later := by
  have bounded (command : Command) (member : command ∈ buffer.pending) :
      command.meta.ingressSequence ≤ later :=
    UInt64.le_trans (inOrder.bounded command member) counted
  refine ⟨inOrder.numbered.enqueue targetTick payload «meta», ?_, ?_⟩
  · intro command member
    rcases CommandBuffer.enqueue_cases buffer targetTick payload «meta» with
      ⟨_, same⟩ | ⟨_, more⟩
    · rw [same] at member
      exact bounded command member
    · rw [more] at member
      rcases List.mem_append.mp member with old | new
      · exact bounded command old
      · rw [List.mem_singleton.mp new]
        exact bound
  · rcases CommandBuffer.enqueue_cases buffer targetTick payload «meta» with
      ⟨_, same⟩ | ⟨_, more⟩
    · rw [same]
      exact inOrder.ordered
    · rw [more, List.pairwise_append]
      refine ⟨inOrder.ordered, List.pairwise_singleton _ _, ?_⟩
      intro command member last new
      rw [List.mem_singleton.mp new]
      exact behind command member

theorem BufferInOrder.internal {buffer : CommandBuffer} {ingress : UInt64}
    (inOrder : BufferInOrder buffer ingress) (commands : List (UInt64 × CommandPayload)) :
    BufferInOrder (commands.foldl GatewayLoop.enqueueInternal buffer) ingress := by
  induction commands generalizing buffer with
  | nil => exact inOrder
  | cons command rest ih =>
    refine ih (inOrder.enqueue command.1 command.2 {} (UInt64.le_refl _) UInt64.zero_le ?_)
    intro _ _ _ external
    exact absurd rfl external

theorem BufferInOrder.apply {buffer : CommandBuffer} {ingress : UInt64}
    (inOrder : BufferInOrder buffer ingress) (world : World) (tick : UInt64) :
    BufferInOrder (buffer.apply world tick).2.1 ingress ∧
      (buffer.due tick).Pairwise AdmissionOrdered := by
  have due : (buffer.due tick).Sublist buffer.pending := by
    rw [← inOrder.numbered.sorted_eq]
    exact List.filter_sublist
  have deferred : (buffer.deferred tick).Sublist buffer.pending := by
    rw [← inOrder.numbered.sorted_eq]
    exact List.filter_sublist
  refine ⟨⟨inOrder.numbered.apply world tick, ?_, ?_⟩, inOrder.ordered.sublist due⟩
  · rw [CommandBuffer.apply_buffer]
    exact fun command member => inOrder.bounded command (deferred.subset member)
  · rw [CommandBuffer.apply_buffer]
    exact inOrder.ordered.sublist deferred

/-- What the condition keeps. -/
structure LoopInOrder (loop : GatewayLoop) : Prop where
  admissible : loop.admission.Admissible
  submitter : loop.admission.submitter = some CommandBuffer.enqueue
  buffer : BufferInOrder loop.buffer loop.admission.gateway.ingressSequence
  executed : ExecutesInAdmissionOrder loop

theorem LoopInOrder.step {before after : GatewayLoop} {event : LoopEvent}
    (inOrder : LoopInOrder before) (enters : EntersInOrder before event)
    (stepped : before.step event = some after) : LoopInOrder after := by
  have admissible := GatewayLoop.step_admissible inOrder.admissible stepped
  rcases GatewayLoop.step_cases stepped with ⟨inner, admission, rfl, moved, rfl⟩ |
    ⟨outcome, wal, _, fulfilled⟩ | ⟨targetTick, payload, _, rfl⟩ |
    ⟨world, internal, accepts, _, rfl⟩ | ⟨_, rfl⟩
  · obtain ⟨kept, calls⟩ := AdmissionSystem.step_calls moved
    have counted := AdmissionSystem.step_ingress moved
    refine ⟨admissible, kept.trans inOrder.submitter, ?_, inOrder.executed⟩
    rcases calls with quiet | ⟨call, calls, now⟩ |
      ⟨ingress, pending, outcome, rfl, polled, calls⟩
    · change BufferInOrder admission.target _
      rw [quiet.target]
      exact ⟨inOrder.buffer.numbered, fun command member =>
        UInt64.le_trans (inOrder.buffer.bounded command member) counted,
        inOrder.buffer.ordered⟩
    · obtain ⟨submit, given, target⟩ := calls.called
      obtain rfl := Option.some.inj (given.symm.trans inOrder.submitter)
      change BufferInOrder admission.target _
      rw [target]
      refine inOrder.buffer.enqueue _ _ _ counted ?_ ?_
      · rw [now.number, now.counted]
        exact UInt64.le_refl _
      · intro command member _ _ _
        rw [now.number]
        exact UInt64.lt_of_le_of_lt (inOrder.buffer.bounded command member) now.room
    · obtain ⟨submit, given, target⟩ := calls.called
      obtain rfl := Option.some.inj (given.symm.trans inOrder.submitter)
      change BufferInOrder admission.target _
      rw [target]
      obtain ⟨own, below⟩ := inOrder.admissible.filed.filed _ _ polled.found
      refine inOrder.buffer.enqueue _ _ _ counted ?_ ?_
      · change pending.ingressSequence ≤ _
        rw [own]
        exact UInt64.le_trans below counted
      · intro command member external _ same
        obtain ⟨rest, visiting⟩ := polled.visiting
        exact enters ingress rest pending outcome visiting polled.found polled.resolved
          polled.ok command member external same
  · obtain ⟨log, _, rfl⟩ := GatewayLoop.fulfillNext_cases fulfilled
    exact ⟨admissible, inOrder.submitter, inOrder.buffer, inOrder.executed⟩
  · refine ⟨admissible, inOrder.submitter, ?_, inOrder.executed⟩
    exact inOrder.buffer.internal [(targetTick, payload)]
  · let report := (before.buffer.apply before.world before.clock).1
    let ran := (before.setBuffer (internal.foldl GatewayLoop.enqueueInternal
      (before.buffer.apply before.world before.clock).2.1)).admission
    obtain ⟨quiet, kept⟩ := ran.onCommandsApplied_quiet report accepts
    obtain ⟨_, _, ingress⟩ := ran.onCommandsApplied_effect report accepts
    obtain ⟨applied, due⟩ := inOrder.buffer.apply before.world before.clock
    refine ⟨admissible, kept.trans inOrder.submitter, ?_, ?_⟩
    · change BufferInOrder (ran.onCommandsApplied report accepts).target
        (ran.onCommandsApplied report accepts).gateway.ingressSequence
      rw [quiet.target, ingress]
      exact applied.internal internal
    · intro batch member
      rcases List.mem_append.mp member with old | new
      · exact inOrder.executed batch old
      · rw [List.mem_singleton.mp new]
        exact due
  · exact ⟨admissible, inOrder.submitter, inOrder.buffer, inOrder.executed⟩

theorem start_in_order (config : GatewayConfig) (authorization : AuthorizationPolicy)
    (index : DurableIdempotencyIndex) (durableLog : Bool) (world : World) (clock : UInt64) :
    LoopInOrder (GatewayLoop.start config authorization index durableLog world clock) := by
  refine ⟨AdmissionSystem.start_admissible _ _ _ _ _ _, rfl,
    ⟨CommandBuffer.numbered_empty _ _, ?_, List.Pairwise.nil⟩, ?_⟩
  · intro command member
    cases member
  · intro batch member
    cases member

/-- In every run in which no poll enqueues a durable command behind a later one for the same
tick, every tick executes its external commands in admission order. -/
theorem executes_in_admission_order (config : GatewayConfig)
    (authorization : AuthorizationPolicy) (index : DurableIdempotencyIndex) (durableLog : Bool)
    (world : World) (clock : UInt64) {events : List LoopEvent} {loop : GatewayLoop}
    (run : GuardedRun GatewayLoop.Step EntersInOrder
      (GatewayLoop.start config authorization index durableLog world clock) events loop) :
    ExecutesInAdmissionOrder loop :=
  (run.invariant (start_in_order config authorization index durableLog world clock)
    fun _ _ _ enters stepped inOrder => inOrder.step enters stepped).executed

def startedLoop : GatewayLoop :=
  GatewayLoop.start {} openPolicy {} true {} 0

/-- An empty tick of an empty world. -/
def emptyTick : LoopEvent := .tick {} [] fun _ => true

/-- Two durable commands for tick 2, both made durable before the next poll. -/
def twoDurableEvents : List LoopEvent :=
  [.admission (.openSession ⟨[97], true⟩), emptyTick,
    .admission (.submitDurableCommand 1 (destroyCommand 1 5 (some firstRequest)) 1 true true),
    .admission (.submitDurableCommand 1 (destroyCommand 2 6 (some secondRequest)) 1 true true),
    .commit 1, .commit 2]

/-- A poll that visits the pending submissions in this order. -/
def pollEvents (order : List UInt64) : List LoopEvent :=
  .admission (.pollBegin order) ::
    List.replicate (order.length + 1) (.admission .pollNext)

def executedIngress (loop : GatewayLoop) : List (List UInt64) :=
  loop.executed.map fun batch => batch.2.map fun command => command.meta.ingressSequence

def entersInOrderCheck (loop : GatewayLoop) : LoopEvent → Bool
  | .admission .pollNext =>
    match loop.admission.polling with
    | some (ingress :: _) =>
      (loop.admission.gateway.pendingDurable[ingress]?).all fun pending =>
        (loop.admission.log.tryOutcome pending.ticket).all fun outcome =>
          !outcome.ok || loop.buffer.pending.all fun command =>
            command.meta.ingressSequence == 0 || command.targetTick != pending.targetTick ||
              decide (command.meta.ingressSequence < pending.ingressSequence)
    | _ => true
  | _ => true

theorem entersInOrderCheck_sound (loop : GatewayLoop) (event : LoopEvent)
    (passed : entersInOrderCheck loop event = true) : EntersInOrder loop event := by
  unfold EntersInOrder
  split
  · intro ingress rest pending outcome polling found resolved ok command member external same
    simp only [entersInOrderCheck, polling, found, resolved, Option.all_some, ok, Bool.not_true,
      Bool.false_or, List.all_eq_true] at passed
    have checked := passed command member
    simp only [Bool.or_eq_true, beq_iff_eq, bne_iff_ne, decide_eq_true_eq] at checked
    rcases checked with (simulated | other) | before
    · exact absurd simulated external
    · exact absurd same other
    · exact before
  · trivial

theorem executes_in_admission_order_polled :
    ∃ loop, runLabels GatewayLoop.step startedLoop
        (twoDurableEvents ++ pollEvents [1, 2] ++ [emptyTick, emptyTick]) = some loop ∧
      executedIngress loop = [[], [], [1, 2]] ∧ ExecutesInAdmissionOrder loop := by
  have computed : (runLabels (fun loop event =>
      if entersInOrderCheck loop event then loop.step event else none) startedLoop
        (twoDurableEvents ++ pollEvents [1, 2] ++ [emptyTick, emptyTick])).map executedIngress =
          some [[], [], [1, 2]] := by
    decide +kernel
  obtain ⟨loop, reached, shape⟩ := Option.map_eq_some_iff.mp computed
  have run := GuardedRun.of_checked entersInOrderCheck_sound reached
  exact ⟨loop, run.computed, shape, executes_in_admission_order {} openPolicy {} true {} 0 run⟩

/-- The poll may visit the second submission first: both run in tick 2, out of order. -/
theorem executes_in_admission_order_fails :
    ¬ ∀ (config : GatewayConfig) (authorization : AuthorizationPolicy)
      (index : DurableIdempotencyIndex) (durableLog : Bool) (world : World) (clock : UInt64)
      (events : List LoopEvent) (loop : GatewayLoop),
      AnyRun GatewayLoop.Step
        (GatewayLoop.start config authorization index durableLog world clock) events loop →
      ExecutesInAdmissionOrder loop := by
  intro claim
  have computed : (runLabels GatewayLoop.step startedLoop
      (twoDurableEvents ++ pollEvents [2, 1] ++ [emptyTick, emptyTick])).map
        (fun loop => loop.executed.all fun batch =>
          decide (batch.2.Pairwise AdmissionOrdered)) = some false := by
    decide +kernel
  obtain ⟨loop, reached, disordered⟩ := Option.map_eq_some_iff.mp computed
  have run : AnyRun GatewayLoop.Step startedLoop _ loop :=
    GuardedRun.of_runLabels reached fun _ _ => trivial
  have ordered := claim {} openPolicy {} true {} 0 _ loop run
  rw [List.all_eq_false] at disordered
  obtain ⟨batch, member, unordered⟩ := disordered
  exact unordered (decide_eq_true (ordered batch member))

end GeoWorld.Gateway
