import Mathlib
import GeoWorld.Simulation.CommandBuffer

/-!
Every queued command gets one outcome: in the first `apply` that has reached its target
tick, among the due commands in the order of their numbers, on the world that the ones
before it left.
-/

namespace GeoWorld.Simulation

open WorldModel

/-- The calls on a buffer; a tick brings the world it runs on. -/
inductive BufferEvent where
  | enqueue (targetTick : UInt64) (payload : CommandPayload) («meta» : CommandMeta)
  | apply (world : World) (tick : UInt64)

/-- One call of `apply`. -/
structure BufferTick where
  buffer : CommandBuffer
  world : World
  tick : UInt64

namespace BufferTick

def report (applied : BufferTick) : ApplyReport :=
  (applied.buffer.apply applied.world applied.tick).1

def left (applied : BufferTick) : CommandBuffer :=
  (applied.buffer.apply applied.world applied.tick).2.1

def after (applied : BufferTick) : World :=
  (applied.buffer.apply applied.world applied.tick).2.2

/-- The outcomes that carry this number. -/
def outcomesOf (applied : BufferTick) (sequence : UInt64) : List (UInt64 × UInt64 × UInt64) :=
  (applied.report.outcomes.map CommandOutcome.identity).filter fun named => named.1 = sequence

end BufferTick

/-- A buffer with the ticks it has run so far. -/
structure BufferRun where
  buffer : CommandBuffer
  ticks : List BufferTick := []

namespace BufferRun

def step (run : BufferRun) : BufferEvent → BufferRun
  | .enqueue targetTick payload «meta» =>
    { run with buffer := (run.buffer.enqueue targetTick payload «meta»).2 }
  | .apply world tick =>
    let applied : BufferTick := ⟨run.buffer, world, tick⟩
    ⟨applied.left, run.ticks ++ [applied]⟩

def steps (run : BufferRun) (events : List BufferEvent) : BufferRun :=
  events.foldl step run

/-- The constructor of `CommandBuffer`. -/
def start (firstSequence : UInt64) : BufferRun :=
  ⟨{ nextSequence := firstSequence }, []⟩

end BufferRun

/-- Commands one after the other, each on the world that the one before it left. -/
def runCommands : World → List Command → List CommandOutcome × World
  | world, [] => ([], world)
  | world, command :: rest =>
    let (outcome, next) := runCommand world command
    let (outcomes, last) := runCommands next rest
    (outcome :: outcomes, last)

/-- An expected version that the object does not have. -/
def VersionMismatch (world : World) (command : Command) : Prop :=
  ∃ id key value, command.payload = .setProperty id key value ∧
    command.meta.expectedObjectVersion ≠ 0 ∧
      ∀ object, world.find id = some object → object.version ≠ command.meta.expectedObjectVersion

/-- What one tick does. -/
structure BufferTick.Orderly (applied : BufferTick) : Prop where
  ascending : applied.report.outcomes.Pairwise fun left right => left.sequence < right.sequence
  sequential : runCommands applied.world
      (applied.buffer.pending.filter fun command => command.targetTick ≤ applied.tick) =
    (applied.report.outcomes, applied.after)
  waiting : applied.left.pending =
    applied.buffer.pending.filter fun command => applied.tick < command.targetTick
  counted : applied.report.applied + applied.report.rejected = applied.report.outcomes.length
  deferred : applied.report.deferred = applied.left.pending.length

/-- The ticks answer with these outcomes when they first reach the target tick, else with none. -/
def onceDue {α : Type} (targetTick : UInt64) (outcomes : List α) : List UInt64 → List (List α)
  | [] => []
  | tick :: rest =>
    if targetTick ≤ tick then outcomes :: rest.map fun _ => []
    else [] :: onceDue targetTick outcomes rest

section Loop

theorem foldl_applyOne (tick : UInt64) (commands : List Command) (state : CommandBuffer.ApplyState) :
    let due := commands.filter fun command => !decide (tick < command.targetTick)
    let final := commands.foldl (CommandBuffer.applyOne tick) state
    final.report.outcomes = state.report.outcomes ++ (runCommands state.world due).1 ∧
      final.world = (runCommands state.world due).2 ∧
        final.report.applied + final.report.rejected =
          state.report.applied + state.report.rejected + due.length := by
  induction commands generalizing state with
  | nil => simp [runCommands]
  | cons command rest ih =>
    obtain ⟨outcomes, world, counted⟩ := ih (CommandBuffer.applyOne tick state command)
    simp only [List.foldl_cons, outcomes, world, counted]
    by_cases later : tick < command.targetTick
    · simp [CommandBuffer.applyOne, later]
    · cases applied : (runCommand state.world command).1.applied with
      | true => simp [CommandBuffer.applyOne, later, runCommands, applied]; omega
      | false => simp [CommandBuffer.applyOne, later, runCommands, applied]; omega

theorem runCommands_length (world : World) (commands : List Command) :
    (runCommands world commands).1.length = commands.length := by
  induction commands generalizing world with
  | nil => rfl
  | cons command rest ih => simp [runCommands, ih]

theorem runCommand_mismatch {world : World} {command : Command}
    (mismatch : VersionMismatch world command) :
    (runCommand world command).2 = world ∧ (runCommand world command).1.applied = false := by
  obtain ⟨id, key, value, payload, expected, differs⟩ := mismatch
  have refused : versionCheck world command = .missingObject ∨
      versionCheck world command = .versionConflict := by
    simp only [versionCheck, payload, expected, if_false]
    cases found : world.find id with
    | none => exact .inl rfl
    | some object => exact .inr (if_pos (differs object found))
  unfold runCommand
  rcases refused with missing | conflict
  · simp [missing]
  · simp [conflict]

end Loop

namespace BufferTick

variable {applied : BufferTick}

theorem not_lt_eq (tick target : UInt64) : (!decide (tick < target)) = decide (target ≤ tick) := by
  by_cases later : tick < target
  · simp [later, UInt64.not_le.mpr later]
  · simp [later, UInt64.not_lt.mp later]

theorem outcomesOf_eq (numbered : applied.buffer.Numbered) (sequence : UInt64) :
    applied.outcomesOf sequence =
      ((applied.buffer.pending.filter fun command => command.targetTick ≤ applied.tick).filter
        fun command => command.sequence = sequence).map Command.identity := by
  unfold outcomesOf report
  rw [CommandBuffer.apply_outcomes, CommandBuffer.due, numbered.sorted_eq, List.filter_map]
  simp only [not_lt_eq]
  rfl

theorem orderly (numbered : applied.buffer.Numbered) : applied.Orderly := by
  have loop := foldl_applyOne applied.tick applied.buffer.pending { world := applied.world }
  have left : applied.left.pending =
      applied.buffer.pending.filter fun command => applied.tick < command.targetTick := by
    unfold BufferTick.left
    rw [CommandBuffer.apply_buffer, CommandBuffer.deferred, numbered.sorted_eq]
  simp only [not_lt_eq, List.nil_append] at loop
  obtain ⟨outcomes, world, counted⟩ := loop
  have outcomes : applied.report.outcomes = (runCommands applied.world
      (applied.buffer.pending.filter fun command => command.targetTick ≤ applied.tick)).1 := by
    simp only [report, CommandBuffer.apply, numbered.sorted_eq, outcomes]
  have named := CommandBuffer.apply_outcomes applied.tick applied.buffer applied.world
  refine ⟨?_, ?_, left, ?_, ?_⟩
  · have ascending : ((applied.buffer.due applied.tick).map Command.identity).Pairwise
        fun left right => left.1 < right.1 := by
      rw [List.pairwise_map, CommandBuffer.due, numbered.sorted_eq]
      exact numbered.ascending.sublist List.filter_sublist
    rw [← named, List.pairwise_map] at ascending
    exact ascending
  · rw [outcomes]
    refine Prod.ext rfl ?_
    simp only [after, CommandBuffer.apply, numbered.sorted_eq, world]
  · rw [outcomes, runCommands_length]
    simpa [report, CommandBuffer.apply, numbered.sorted_eq] using counted
  · rfl

end BufferTick

namespace BufferRun

/-- Numbers are given out in ascending order, and outcomes carry numbers given out before. -/
structure Sound (run : BufferRun) : Prop where
  numbered : run.buffer.Numbered
  ticks : ∀ applied ∈ run.ticks, applied.buffer.Numbered
  below : run.buffer.nextSequence ≠ 0 → ∀ applied ∈ run.ticks,
    ∀ command ∈ applied.buffer.pending, command.sequence < run.buffer.nextSequence

theorem start_sound (firstSequence : UInt64) : (start firstSequence).Sound :=
  by
  refine ⟨CommandBuffer.numbered_empty _ _, fun applied member => ?_, fun _ applied member => ?_⟩
  · exact absurd member List.not_mem_nil
  · exact absurd member List.not_mem_nil

theorem Sound.step {run : BufferRun} (sound : run.Sound) (event : BufferEvent) :
    (run.step event).Sound := by
  cases event with
  | enqueue targetTick payload «meta» =>
    refine ⟨sound.numbered.enqueue targetTick payload «meta», sound.ticks, ?_⟩
    intro next applied member command pending
    rcases CommandBuffer.enqueue_cases run.buffer targetTick payload «meta» with
      ⟨none, same⟩ | ⟨room, more⟩
    · simp only [BufferRun.step, same] at next
      exact absurd none next
    · simp only [BufferRun.step, more] at next ⊢
      exact UInt64.lt_trans (sound.below room applied member command pending)
        (Library.lt_next next)
  | apply world tick =>
    have same : (run.step (.apply world tick)).buffer.nextSequence = run.buffer.nextSequence := by
      simp only [BufferRun.step, BufferTick.left, CommandBuffer.apply_buffer]
    refine ⟨sound.numbered.apply world tick, fun applied member => ?_, ?_⟩
    · rcases List.mem_append.mp member with old | new
      · exact sound.ticks applied old
      · rw [List.mem_singleton.mp new]
        exact sound.numbered
    · rw [same]
      intro next applied member command pending
      rcases List.mem_append.mp member with old | new
      · exact sound.below next applied old command pending
      · rw [List.mem_singleton.mp new] at pending
        exact sound.numbered.below next command pending

theorem Sound.steps {run : BufferRun} (sound : run.Sound) (events : List BufferEvent) :
    (run.steps events).Sound := by
  induction events generalizing run with
  | nil => exact sound
  | cons event rest ih => exact ih (sound.step event)

theorem steps_append (run : BufferRun) (front back : List BufferEvent) :
    run.steps (front ++ back) = (run.steps front).steps back :=
  List.foldl_append

/-- The ticks of a run, behind those before it. -/
theorem steps_ticks (run : BufferRun) (events : List BufferEvent) :
    ∃ later, (run.steps events).ticks = run.ticks ++ later := by
  induction events generalizing run with
  | nil => exact ⟨[], by simp [steps]⟩
  | cons event rest ih =>
    obtain ⟨later, more⟩ := ih (run.step event)
    cases event with
    | enqueue => exact ⟨later, more⟩
    | apply world tick => exact ⟨⟨run.buffer, world, tick⟩ :: later, more.trans (by simp [step])⟩

/-- The number was given out, and its command is not pending any more. -/
def Done (sequence : UInt64) (run : BufferRun) : Prop :=
  (run.buffer.nextSequence ≠ 0 → sequence < run.buffer.nextSequence) ∧
    ∀ command ∈ run.buffer.pending, command.sequence ≠ sequence

/-- The command with this number waits, for the first time and the last. -/
def Waits (command : Command) (run : BufferRun) : Prop :=
  (run.buffer.nextSequence ≠ 0 → command.sequence < run.buffer.nextSequence) ∧
    command ∈ run.buffer.pending

theorem Done.outcomes {sequence : UInt64} {run : BufferRun} (done : Done sequence run)
    (sound : run.Sound) (world : World) (tick : UInt64) :
    BufferTick.outcomesOf ⟨run.buffer, world, tick⟩ sequence = [] := by
  rw [BufferTick.outcomesOf_eq sound.numbered, List.map_eq_nil_iff, List.filter_eq_nil_iff]
  intro command member same
  exact done.2 command (List.mem_filter.mp member).1 (of_decide_eq_true same)

theorem Done.step {sequence : UInt64} {run : BufferRun} (done : Done sequence run)
    (event : BufferEvent) : Done sequence (run.step event) := by
  cases event with
  | enqueue targetTick payload «meta» =>
    rcases CommandBuffer.enqueue_cases run.buffer targetTick payload «meta» with
      ⟨none, same⟩ | ⟨room, more⟩
    · simpa only [BufferRun.step, same] using done
    · simp only [BufferRun.step, more, Done]
      refine ⟨fun next => ?_, fun command member => ?_⟩
      · exact UInt64.lt_trans (done.1 room) (Library.lt_next next)
      · rcases List.mem_append.mp member with old | new
        · exact done.2 command old
        · rw [List.mem_singleton.mp new]
          exact (UInt64.ne_of_lt (done.1 room)).symm
  | apply world tick =>
    simp only [BufferRun.step, BufferTick.left, CommandBuffer.apply_buffer, Done]
    refine ⟨done.1, fun command member => done.2 command ?_⟩
    have pending := (List.mem_filter.mp member).1
    rwa [CommandBuffer.sorted, List.mem_insertionSort] at pending

theorem filter_number {command : Command} {commands : List Command}
    (ascending : commands.Pairwise fun left right => left.sequence < right.sequence)
    (member : command ∈ commands) :
    (commands.filter fun other => other.sequence = command.sequence) = [command] := by
  induction commands with
  | nil => cases member
  | cons first rest ih =>
    obtain ⟨above, ascending⟩ := List.pairwise_cons.mp ascending
    rcases List.mem_cons.mp member with rfl | later
    · have others : (rest.filter fun other => other.sequence = command.sequence) = [] := by
        rw [List.filter_eq_nil_iff]
        intro other found same
        exact UInt64.ne_of_lt (above other found) (of_decide_eq_true same).symm
      simp [others]
    · have apart : first.sequence ≠ command.sequence := UInt64.ne_of_lt (above command later)
      simp [apart, ih ascending later]

theorem Waits.outcomes {command : Command} {run : BufferRun} (waits : Waits command run)
    (sound : run.Sound) (world : World) (tick : UInt64) :
    BufferTick.outcomesOf ⟨run.buffer, world, tick⟩ command.sequence =
      if command.targetTick ≤ tick then [command.identity] else [] := by
  rw [BufferTick.outcomesOf_eq sound.numbered, List.filter_comm,
    filter_number sound.numbered.ascending waits.2]
  by_cases due : command.targetTick ≤ tick
  · simp [due]
  · simp [due]

theorem Waits.enqueue {command : Command} {run : BufferRun} (waits : Waits command run)
    (targetTick : UInt64) (payload : CommandPayload) («meta» : CommandMeta) :
    Waits command (run.step (.enqueue targetTick payload «meta»)) := by
  rcases CommandBuffer.enqueue_cases run.buffer targetTick payload «meta» with
    ⟨none, same⟩ | ⟨room, more⟩
  · simpa only [BufferRun.step, same] using waits
  · simp only [BufferRun.step, more, Waits]
    exact ⟨fun next => UInt64.lt_trans (waits.1 room) (Library.lt_next next),
      List.mem_append_left _ waits.2⟩

theorem Waits.defer {command : Command} {run : BufferRun} (waits : Waits command run)
    {world : World} {tick : UInt64} (early : tick < command.targetTick) :
    Waits command (run.step (.apply world tick)) := by
  simp only [step, BufferTick.left, CommandBuffer.apply_buffer, Waits]
  refine ⟨waits.1, List.mem_filter.mpr ⟨?_, decide_eq_true early⟩⟩
  rw [CommandBuffer.sorted, List.mem_insertionSort]
  exact waits.2

theorem Waits.run {command : Command} {run : BufferRun} (waits : Waits command run)
    (sound : run.Sound) {world : World} {tick : UInt64} (due : command.targetTick ≤ tick) :
    Done command.sequence (run.step (.apply world tick)) := by
  simp only [step, BufferTick.left, CommandBuffer.apply_buffer, Done]
  refine ⟨waits.1, fun other member same => ?_⟩
  obtain ⟨pending, early⟩ := List.mem_filter.mp member
  rw [sound.numbered.sorted_eq] at pending
  have one : other ∈ run.buffer.pending.filter
      fun found => found.sequence = command.sequence :=
    List.mem_filter.mpr ⟨pending, decide_eq_true same⟩
  rw [filter_number sound.numbered.ascending waits.2, List.mem_singleton] at one
  subst one
  exact absurd due (UInt64.not_le.mpr (of_decide_eq_true early))

/-- The ticks from here on, when the first of them is this one. -/
theorem later_cons {run : BufferRun} {world : World} {tick : UInt64} {rest : List BufferEvent}
    {later : List BufferTick}
    (reached : (run.steps (.apply world tick :: rest)).ticks = run.ticks ++ later) :
    ∃ more, later = ⟨run.buffer, world, tick⟩ :: more ∧
      ((run.step (.apply world tick)).steps rest).ticks =
        (run.step (.apply world tick)).ticks ++ more := by
  obtain ⟨more, further⟩ := (run.step (.apply world tick)).steps_ticks rest
  refine ⟨more, ?_, further⟩
  have both : run.ticks ++ later = run.ticks ++ ⟨run.buffer, world, tick⟩ :: more := by
    rw [← reached]
    exact further.trans (by simp [step])
  exact List.append_cancel_left both

theorem Done.ticks {sequence : UInt64} {run : BufferRun} (done : Done sequence run)
    (sound : run.Sound) (events : List BufferEvent) {later : List BufferTick}
    (reached : (run.steps events).ticks = run.ticks ++ later) :
    later.map (·.outcomesOf sequence) = later.map fun _ => [] := by
  induction events generalizing run later with
  | nil =>
    obtain rfl : later = [] := by simpa [steps] using reached
    rfl
  | cons event rest ih =>
    cases event with
    | enqueue targetTick payload «meta» =>
      exact ih (done.step (.enqueue targetTick payload «meta»))
        (sound.step (.enqueue targetTick payload «meta»)) reached
    | apply world tick =>
      obtain ⟨more, rfl, further⟩ := later_cons reached
      rw [List.map_cons, List.map_cons, done.outcomes sound,
        ih (done.step (.apply world tick)) (sound.step (.apply world tick)) further]

theorem Waits.ticks {command : Command} {run : BufferRun} (waits : Waits command run)
    (sound : run.Sound) (events : List BufferEvent) {later : List BufferTick}
    (reached : (run.steps events).ticks = run.ticks ++ later) :
    later.map (·.outcomesOf command.sequence) =
      onceDue command.targetTick [command.identity] (later.map BufferTick.tick) := by
  induction events generalizing run later with
  | nil =>
    obtain rfl : later = [] := by simpa [steps] using reached
    rfl
  | cons event rest ih =>
    cases event with
    | enqueue targetTick payload «meta» =>
      exact ih (waits.enqueue targetTick payload «meta»)
        (sound.step (.enqueue targetTick payload «meta»)) reached
    | apply world tick =>
      obtain ⟨more, rfl, further⟩ := later_cons reached
      have sound' := sound.step (.apply world tick)
      rw [List.map_cons, List.map_cons, waits.outcomes sound, onceDue]
      by_cases due : command.targetTick ≤ tick
      · rw [if_pos due, if_pos due, (waits.run sound due).ticks sound' rest further,
          List.map_map]
        rfl
      · rw [if_neg due, if_neg due, ih (waits.defer (UInt64.not_le.mp due)) sound' further]

/-- In every run of a buffer, a command that got a number is answered once: in the first tick
behind it that has reached its target tick, and in no other. Every tick runs its due commands
in the order of their numbers, each on the world that the one before it left, and a property
write that expects another version changes nothing. -/
theorem queued_command_one_outcome (firstSequence : UInt64) (events : List BufferEvent) :
    (∀ applied ∈ ((start firstSequence).steps events).ticks, applied.Orderly) ∧
    (∀ front targetTick payload «meta» back,
      events = front ++ .enqueue targetTick payload «meta» :: back →
        let queued := ((start firstSequence).steps front).buffer.enqueue targetTick payload «meta»
        queued.1 ≠ 0 →
          (∀ applied ∈ ((start firstSequence).steps front).ticks,
            applied.outcomesOf queued.1 = []) ∧
          ∃ later, ((start firstSequence).steps events).ticks =
              ((start firstSequence).steps front).ticks ++ later ∧
            later.map (·.outcomesOf queued.1) =
              onceDue targetTick [(queued.1, «meta».ingressSequence, «meta».durableLsn)]
                (later.map BufferTick.tick)) ∧
    ∀ world command, VersionMismatch world command →
      (runCommand world command).2 = world ∧ (runCommand world command).1.applied = false := by
  refine ⟨fun applied member => ?_, ?_, fun world command => runCommand_mismatch⟩
  · exact BufferTick.orderly (((start_sound firstSequence).steps events).ticks applied member)
  intro front targetTick payload «meta» back split
  have sound := (start_sound firstSequence).steps front
  subst split
  rw [steps_append]
  generalize (start firstSequence).steps front = run at sound
  intro queued given
  rcases CommandBuffer.enqueue_cases run.buffer targetTick payload «meta» with
    ⟨none, same⟩ | ⟨room, more⟩
  · exact absurd (congrArg Prod.fst same) given
  have number : queued.1 = run.buffer.nextSequence := congrArg Prod.fst more
  rw [number]
  refine ⟨fun applied member => ?_, ?_⟩
  · rw [BufferTick.outcomesOf_eq (sound.ticks applied member), List.map_eq_nil_iff,
      List.filter_eq_nil_iff]
    intro command found same
    exact UInt64.ne_of_lt (sound.below room applied member command (List.mem_filter.mp found).1)
      (of_decide_eq_true same)
  · have waits : Waits ⟨run.buffer.nextSequence, targetTick, payload, «meta»⟩
        (run.step (.enqueue targetTick payload «meta»)) := by
      simp only [BufferRun.step, more, Waits]
      exact ⟨Library.lt_next, by simp⟩
    obtain ⟨later, reached⟩ := (run.step (.enqueue targetTick payload «meta»)).steps_ticks back
    exact ⟨later, reached, waits.ticks (sound.step (.enqueue targetTick payload «meta»)) back
      reached⟩

end BufferRun

end GeoWorld.Simulation
