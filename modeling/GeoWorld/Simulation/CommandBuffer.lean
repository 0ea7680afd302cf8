import Mathlib
import GeoWorld.Library.NumberedQueue
import GeoWorld.WorldModel.World

/-!
The command buffer between admission and the world. Commands are numbered when
they are enqueued and executed in that order in the first tick that has reached
their target tick. The number 0 is the answer of a failed `enqueue`.
-/

namespace GeoWorld.Simulation

open WorldModel

inductive CommandPayload where
  | createObject (object : WorldObject)
  | destroyObject (id : WorldId)
  | setProperty (id : WorldId) (key : ByteString) (value : Value)
  deriving DecidableEq

structure CommandMeta where
  ingressSequence : UInt64 := 0
  expectedObjectVersion : UInt64 := 0
  durableLsn : UInt64 := 0
  deriving DecidableEq

inductive CommandRejectReason where
  | none
  | missingObject
  | versionConflict
  | applyFailed
  deriving DecidableEq

structure CommandOutcome where
  sequence : UInt64
  ingressSequence : UInt64
  applied : Bool
  reason : CommandRejectReason := .none
  durableLsn : UInt64
  deriving DecidableEq

structure Command where
  sequence : UInt64
  targetTick : UInt64
  payload : CommandPayload
  «meta» : CommandMeta := {}
  deriving DecidableEq

structure ApplyReport where
  applied : Nat := 0
  rejected : Nat := 0
  deferred : Nat := 0
  outcomes : List CommandOutcome := []
  deriving DecidableEq

def firstCommandSequence : UInt64 := 1

structure CommandBufferSnapshot where
  nextSequence : UInt64 := firstCommandSequence
  includedDurableLsn : UInt64 := 0
  pending : List Command := []
  deriving DecidableEq

/-- What a `CommandBuffer` stores, and what its snapshot copies. -/
abbrev CommandBuffer := CommandBufferSnapshot

/-- The test made before a command runs: only a property write looks at the expected
version, and 0 asks for no check. -/
def versionCheck (world : World) (command : Command) : CommandRejectReason :=
  match command.payload with
  | .setProperty id _ _ =>
    if command.meta.expectedObjectVersion = 0 then
      .none
    else
      match world.find id with
      | none => .missingObject
      | some object =>
        if object.version ≠ command.meta.expectedObjectVersion then .versionConflict else .none
  | _ => .none

def CommandPayload.run (world : World) : CommandPayload → Bool × World
  | .createObject object => world.insert object
  | .destroyObject id => world.erase id
  | .setProperty id key value => world.setProperty id key value

/-- One command whose tick has come. -/
def runCommand (world : World) (command : Command) : CommandOutcome × World :=
  let outcome (applied : Bool) (reason : CommandRejectReason) : CommandOutcome :=
    ⟨command.sequence, command.meta.ingressSequence, applied, reason, command.meta.durableLsn⟩
  match versionCheck world command with
  | .none =>
    match command.payload.run world with
    | (true, next) => (outcome true .none, next)
    | (false, next) => (outcome false .applyFailed, next)
  | reason => (outcome false reason, world)

namespace CommandBuffer

def enqueue (buffer : CommandBuffer) (targetTick : UInt64) (payload : CommandPayload)
    («meta» : CommandMeta) : UInt64 × CommandBuffer :=
  if buffer.nextSequence = 0 then
    (0, buffer)
  else
    (buffer.nextSequence, {
      nextSequence := buffer.nextSequence + 1
      includedDurableLsn := max buffer.includedDurableLsn «meta».durableLsn
      pending := buffer.pending ++ [⟨buffer.nextSequence, targetTick, payload, «meta»⟩] })

/-- The order `apply` goes through the pending commands in. -/
def sorted (buffer : CommandBuffer) : List Command :=
  buffer.pending.insertionSort fun left right => left.sequence ≤ right.sequence

/-- The commands a tick executes, in order. -/
def due (buffer : CommandBuffer) (tick : UInt64) : List Command :=
  buffer.sorted.filter fun command => !decide (tick < command.targetTick)

def deferred (buffer : CommandBuffer) (tick : UInt64) : List Command :=
  buffer.sorted.filter fun command => decide (tick < command.targetTick)

/-- The report, the deferred commands and the world after a prefix of the loop. -/
structure ApplyState where
  report : ApplyReport := {}
  deferred : List Command := []
  world : World

def applyOne (tick : UInt64) (state : ApplyState) (command : Command) : ApplyState :=
  if tick < command.targetTick then
    { state with deferred := state.deferred ++ [command] }
  else
    let (outcome, world) := runCommand state.world command
    { state with
      world := world
      report := { state.report with
        applied := state.report.applied + if outcome.applied then 1 else 0
        rejected := state.report.rejected + if outcome.applied then 0 else 1
        outcomes := state.report.outcomes ++ [outcome] } }

def apply (buffer : CommandBuffer) (world : World) (tick : UInt64) :
    ApplyReport × CommandBuffer × World :=
  let final := buffer.sorted.foldl (applyOne tick) { world := world }
  ({ final.report with deferred := final.deferred.length },
    { buffer with pending := final.deferred }, final.world)

/-- The test of `restore` on sorted commands: numbered below `nextSequence`, each once. -/
def numbered (nextSequence : UInt64) : UInt64 → List Command → Bool
  | _, [] => true
  | previous, command :: rest =>
    !(command.sequence == 0 || decide (nextSequence ≤ command.sequence) ||
      command.sequence == previous) && numbered nextSequence command.sequence rest

/-- `none` is the answer false, which leaves the buffer as it was. -/
def restore (snapshot : CommandBufferSnapshot) : Option CommandBuffer :=
  if snapshot.nextSequence = 0 then
    none
  else
    let sorted := CommandBuffer.sorted snapshot
    if numbered snapshot.nextSequence 0 sorted then
      some { snapshot with pending := sorted }
    else
      none

end CommandBuffer

end GeoWorld.Simulation

/-!
The order in which a command buffer executes: as long as numbers last, the pending
commands stay in the order of their numbers, so sorting them changes nothing and a
tick runs them in the order in which they were enqueued.
-/

namespace GeoWorld.Simulation

open WorldModel Library

/-- Commands in ascending order of numbers below the next one. -/
structure CommandBuffer.Numbered (buffer : CommandBuffer) : Prop where
  ascending : buffer.pending.Pairwise fun left right => left.sequence < right.sequence
  below : buffer.nextSequence ≠ 0 →
    ∀ command ∈ buffer.pending, command.sequence < buffer.nextSequence

/-- The numbers that name a command and its outcome. -/
def Command.identity (command : Command) : UInt64 × UInt64 × UInt64 :=
  (command.sequence, command.meta.ingressSequence, command.meta.durableLsn)

def CommandOutcome.identity (outcome : CommandOutcome) : UInt64 × UInt64 × UInt64 :=
  (outcome.sequence, outcome.ingressSequence, outcome.durableLsn)

namespace CommandBuffer

theorem numbered_empty (nextSequence includedDurableLsn : UInt64) :
    Numbered { nextSequence := nextSequence, includedDurableLsn := includedDurableLsn } :=
  ⟨List.Pairwise.nil, fun _ command member => by cases member⟩

/-- A failed `enqueue` changes nothing; otherwise the command is the last one. -/
theorem enqueue_cases (buffer : CommandBuffer) (targetTick : UInt64) (payload : CommandPayload)
    («meta» : CommandMeta) :
    (buffer.nextSequence = 0 ∧ buffer.enqueue targetTick payload «meta» = (0, buffer)) ∨
    (buffer.nextSequence ≠ 0 ∧ buffer.enqueue targetTick payload «meta» = (buffer.nextSequence, {
      nextSequence := buffer.nextSequence + 1
      includedDurableLsn := max buffer.includedDurableLsn «meta».durableLsn
      pending := buffer.pending ++ [⟨buffer.nextSequence, targetTick, payload, «meta»⟩] })) := by
  unfold enqueue
  by_cases exhausted : buffer.nextSequence = 0
  · exact .inl ⟨exhausted, if_pos exhausted⟩
  · exact .inr ⟨exhausted, if_neg exhausted⟩

theorem Numbered.enqueue {buffer : CommandBuffer} (numbered : buffer.Numbered)
    (targetTick : UInt64) (payload : CommandPayload) («meta» : CommandMeta) :
    (buffer.enqueue targetTick payload «meta»).2.Numbered := by
  rcases enqueue_cases buffer targetTick payload «meta» with ⟨_, same⟩ | ⟨room, more⟩
  · rw [same]
    exact numbered
  · rw [more]
    refine ⟨?_, fun next command member => ?_⟩
    · rw [List.pairwise_append]
      refine ⟨numbered.ascending, List.pairwise_singleton _ _, ?_⟩
      intro command member last same
      rw [List.mem_singleton.mp same]
      exact numbered.below room command member
    · have later := lt_next next
      rcases List.mem_append.mp member with old | same
      · exact UInt64.lt_trans (numbered.below room command old) later
      · rw [List.mem_singleton.mp same]
        exact later

theorem Numbered.sorted_eq {buffer : CommandBuffer} (numbered : buffer.Numbered) :
    buffer.sorted = buffer.pending :=
  List.Pairwise.insertionSort_eq
    (numbered.ascending.imp fun earlier => UInt64.le_of_lt earlier)

theorem runCommand_identity (world : World) (command : Command) :
    (runCommand world command).1.identity = command.identity := by
  unfold runCommand
  dsimp only
  split
  · split <;> rfl
  · rfl

section Apply

variable (tick : UInt64)

theorem applyOne_loop (commands : List Command) (state : ApplyState) :
    (commands.foldl (applyOne tick) state).deferred =
      state.deferred ++ commands.filter (fun command => decide (tick < command.targetTick)) ∧
    (commands.foldl (applyOne tick) state).report.outcomes.map CommandOutcome.identity =
      state.report.outcomes.map CommandOutcome.identity ++
        (commands.filter fun command => !decide (tick < command.targetTick)).map
          Command.identity := by
  induction commands generalizing state with
  | nil => simp
  | cons command rest ih =>
    obtain ⟨deferred, outcomes⟩ := ih (applyOne tick state command)
    rw [List.foldl_cons, deferred, outcomes]
    by_cases later : tick < command.targetTick
    · simp [applyOne, later]
    · simp [applyOne, later, runCommand_identity]

variable (buffer : CommandBuffer) (world : World)

/-- What a tick leaves in the buffer. -/
theorem apply_buffer : (buffer.apply world tick).2.1 =
    { buffer with pending := buffer.deferred tick } := by
  have loop := (applyOne_loop tick buffer.sorted { world := world }).1
  simp only [apply, loop, List.nil_append]
  rfl

/-- The outcomes a tick reports are those of the due commands, in order. -/
theorem apply_outcomes :
    (buffer.apply world tick).1.outcomes.map CommandOutcome.identity =
      (buffer.due tick).map Command.identity := by
  have loop := (applyOne_loop tick buffer.sorted { world := world }).2
  simpa [apply, due] using loop

end Apply

theorem Numbered.apply {buffer : CommandBuffer} (numbered : buffer.Numbered) (world : World)
    (tick : UInt64) : (buffer.apply world tick).2.1.Numbered := by
  rw [apply_buffer]
  have kept : (buffer.deferred tick).Sublist buffer.pending := by
    rw [← numbered.sorted_eq]
    exact List.filter_sublist
  exact ⟨numbered.ascending.sublist kept, fun room command member =>
    numbered.below room command (kept.subset member)⟩

end CommandBuffer

end GeoWorld.Simulation
