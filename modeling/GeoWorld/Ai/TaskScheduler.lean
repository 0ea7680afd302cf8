import Mathlib
import GeoWorld.Library.SortedSelection
import GeoWorld.WorldModel.Object

/-!
The scheduler of AI tasks. Tasks wait by falling priority, by owner and by number, and a run
executes the first of them; what an executed task submits waits for a later run. A task that runs
the scheduler again from within is left out.
-/

namespace GeoWorld.Ai

open WorldModel Library

/-- `κ` names what the tasks call; `none` is the empty function. -/
structure AiTask (κ : Type) where
  owner : WorldId
  priority : Int32 := 0
  execute : Option κ

structure TaskRunReport where
  executed : Nat
  remaining : Nat
  deriving DecidableEq

structure QueuedTask (κ : Type) where
  sequence : UInt64
  task : AiTask κ

structure AiTaskScheduler (κ : Type) where
  nextSequence : UInt64 := 1
  pending : List (QueuedTask κ) := []

variable {κ σ : Type}

/-- The comparison `run_budget` sorts by. -/
def QueuedTask.before (left right : QueuedTask κ) : Bool :=
  if left.task.priority ≠ right.task.priority then
    right.task.priority < left.task.priority
  else if left.task.owner ≠ right.task.owner then
    left.task.owner < right.task.owner
  else
    left.sequence < right.sequence

namespace AiTaskScheduler

/-- A task that calls nothing is refused and gets the number 0. -/
def submit (scheduler : AiTaskScheduler κ) (task : AiTask κ) : UInt64 × AiTaskScheduler κ :=
  if task.execute.isNone then
    (0, scheduler)
  else
    (scheduler.nextSequence, {
      nextSequence := scheduler.nextSequence + 1
      pending := scheduler.pending ++ [⟨scheduler.nextSequence, task⟩] })

def submitAll (scheduler : AiTaskScheduler κ) (tasks : List (AiTask κ)) : AiTaskScheduler κ :=
  tasks.foldl (fun scheduler task => (scheduler.submit task).2) scheduler

/-- `call` is what the functions of the tasks do: to the state around the scheduler, and the tasks
they submit. -/
def execute (call : κ → σ → σ × List (AiTask κ)) (around : σ × AiTaskScheduler κ)
    (queued : QueuedTask κ) : σ × AiTaskScheduler κ :=
  match queued.task.execute with
  | none => around
  | some callee => ((call callee around.1).1, around.2.submitAll (call callee around.1).2)

/-- A stable sort leaves a task in front of those that are not before it. -/
def sorted (scheduler : AiTaskScheduler κ) : List (QueuedTask κ) :=
  scheduler.pending.insertionSort fun left right => !right.before left

def ready (scheduler : AiTaskScheduler κ) (maxTasks : Nat) : List (QueuedTask κ) :=
  scheduler.sorted.take (min maxTasks scheduler.pending.length)

def runBudget (call : κ → σ → σ × List (AiTask κ)) (around : σ × AiTaskScheduler κ)
    (maxTasks : Nat) : TaskRunReport × σ × AiTaskScheduler κ :=
  let count := min maxTasks around.2.pending.length
  let erased := { around.2 with pending := around.2.sorted.drop count }
  let ran := (around.2.ready maxTasks).foldl (execute call) (around.1, erased)
  (⟨count, ran.2.pending.length⟩, ran)

end AiTaskScheduler

inductive SchedulerOp (κ : Type) where
  | submit (task : AiTask κ)
  | runBudget (maxTasks : Nat)

/-- The scheduler with every task it ever queued and every task it executed. -/
structure TaskLedger (κ σ : Type) where
  state : σ
  scheduler : AiTaskScheduler κ := {}
  accepted : List (QueuedTask κ) := []
  executed : List (QueuedTask κ) := []

namespace TaskLedger

/-- Tasks are queued behind those that wait already. -/
def perform (call : κ → σ → σ × List (AiTask κ)) (ledger : TaskLedger κ σ) :
    SchedulerOp κ → TaskLedger κ σ
  | .submit task =>
    let scheduler := (ledger.scheduler.submit task).2
    { ledger with
      scheduler := scheduler
      accepted := ledger.accepted ++ scheduler.pending.drop ledger.scheduler.pending.length }
  | .runBudget maxTasks =>
    let ran := (AiTaskScheduler.runBudget call (ledger.state, ledger.scheduler) maxTasks).2
    { state := ran.1
      scheduler := ran.2
      accepted := ledger.accepted ++ ran.2.pending.drop (ledger.scheduler.pending.length - maxTasks)
      executed := ledger.executed ++ ledger.scheduler.ready maxTasks }

def run (call : κ → σ → σ × List (AiTask κ)) (ledger : TaskLedger κ σ)
    (ops : List (SchedulerOp κ)) : TaskLedger κ σ :=
  ops.foldl (perform call) ledger

def budget : List (SchedulerOp κ) → Nat
  | [] => 0
  | .submit _ :: rest => budget rest
  | .runBudget maxTasks :: rest => maxTasks + budget rest

end TaskLedger

section Order

/-- The place of a task in the order of `run_budget`. -/
def QueuedTask.place (queued : QueuedTask κ) : ℤ ×ₗ ℕ ×ₗ ℕ :=
  toLex (-queued.task.priority.toInt, toLex (queued.task.owner.toNat, queued.sequence.toNat))

theorem QueuedTask.before_iff (left right : QueuedTask κ) :
    left.before right ↔ left.place < right.place := by
  have priority : left.task.priority = right.task.priority ↔
      left.task.priority.toInt = right.task.priority.toInt := Int32.toInt_inj.symm
  have owner : left.task.owner = right.task.owner ↔
      left.task.owner.toNat = right.task.owner.toNat := UInt64.toNat_inj.symm
  unfold QueuedTask.before QueuedTask.place
  simp only [Prod.Lex.toLex_lt_toLex, neg_lt_neg_iff, neg_inj, ne_eq, owner, priority]
  split_ifs with priorities owners <;>
    simp [*, UInt64.lt_iff_toNat_lt, Int32.lt_iff_toInt_lt]

end Order

section Queue

variable {call : κ → σ → σ × List (AiTask κ)} {before after : AiTaskScheduler κ}

/-- Tasks are queued behind the others, with consecutive numbers. -/
structure Queues (before after : AiTaskScheduler κ) (fresh : List (QueuedTask κ)) : Prop where
  pending : after.pending = before.pending ++ fresh
  numbers : fresh.map QueuedTask.sequence =
    (List.range fresh.length).map fun index => before.nextSequence + UInt64.ofNat index
  next : after.nextSequence = before.nextSequence + UInt64.ofNat fresh.length

theorem Queues.refl (scheduler : AiTaskScheduler κ) : Queues scheduler scheduler [] where
  pending := (List.append_nil _).symm
  numbers := rfl
  next := (UInt64.add_zero _).symm

theorem Queues.trans {middle : AiTaskScheduler κ} {first second : List (QueuedTask κ)}
    (left : Queues before middle first) (right : Queues middle after second) :
    Queues before after (first ++ second) where
  pending := by rw [right.pending, left.pending, List.append_assoc]
  numbers := by
    rw [List.map_append, left.numbers, right.numbers, List.length_append, List.range_add,
      List.map_append, List.map_map, left.next]
    simp only [Function.comp_def, UInt64.ofNat_add, UInt64.add_assoc]
  next := by
    rw [right.next, left.next, List.length_append, UInt64.ofNat_add, UInt64.add_assoc]

theorem submit_queues (scheduler : AiTaskScheduler κ) (task : AiTask κ) :
    ∃ fresh, Queues scheduler (scheduler.submit task).2 fresh := by
  unfold AiTaskScheduler.submit
  split
  · exact ⟨[], .refl scheduler⟩
  · exact ⟨[⟨scheduler.nextSequence, task⟩], rfl, by simp, by simp⟩

theorem submitAll_queues (scheduler : AiTaskScheduler κ) (tasks : List (AiTask κ)) :
    ∃ fresh, Queues scheduler (scheduler.submitAll tasks) fresh := by
  induction tasks generalizing scheduler with
  | nil => exact ⟨[], .refl scheduler⟩
  | cons task rest ih =>
    obtain ⟨first, one⟩ := submit_queues scheduler task
    obtain ⟨others, more⟩ := ih (scheduler.submit task).2
    exact ⟨first ++ others, one.trans more⟩

theorem execute_queues (around : σ × AiTaskScheduler κ) (queued : QueuedTask κ) :
    ∃ fresh, Queues around.2 (AiTaskScheduler.execute call around queued).2 fresh := by
  unfold AiTaskScheduler.execute
  cases queued.task.execute with
  | none => exact ⟨[], .refl around.2⟩
  | some callee => exact submitAll_queues around.2 _

theorem foldl_execute_queues (ready : List (QueuedTask κ)) (around : σ × AiTaskScheduler κ) :
    ∃ fresh, Queues around.2 (ready.foldl (AiTaskScheduler.execute call) around).2 fresh := by
  induction ready generalizing around with
  | nil => exact ⟨[], .refl around.2⟩
  | cons queued rest ih =>
    obtain ⟨first, one⟩ := @execute_queues κ σ call around queued
    obtain ⟨others, more⟩ := ih (AiTaskScheduler.execute call around queued)
    exact ⟨first ++ others, one.trans more⟩

theorem AiTaskScheduler.sorted_perm (scheduler : AiTaskScheduler κ) : scheduler.sorted.Perm scheduler.pending :=
  List.perm_insertionSort _ _

theorem ready_eq (scheduler : AiTaskScheduler κ) (maxTasks : Nat) :
    scheduler.ready maxTasks = scheduler.sorted.take maxTasks := by
  rw [AiTaskScheduler.ready, ← scheduler.sorted_perm.length_eq, ← List.take_eq_take_min]

end Queue

namespace TaskLedger

variable {call : κ → σ → σ × List (AiTask κ)} {ledger : TaskLedger κ σ}

/-- Every task waits or was executed, and the tasks are numbered from 1. -/
structure Sound (ledger : TaskLedger κ σ) : Prop where
  conserved : (ledger.executed ++ ledger.scheduler.pending).Perm ledger.accepted
  numbered : Queues {} { ledger.scheduler with pending := ledger.accepted } ledger.accepted

theorem sound_start (state : σ) : Sound ({ state := state } : TaskLedger κ σ) where
  conserved := .refl []
  numbered := .refl {}

theorem perform_submit (ledger : TaskLedger κ σ) (task : AiTask κ) :
    ∃ fresh, Queues ledger.scheduler (ledger.perform call (.submit task)).scheduler fresh ∧
      (ledger.perform call (.submit task)).accepted = ledger.accepted ++ fresh ∧
      (ledger.perform call (.submit task)).executed = ledger.executed := by
  obtain ⟨fresh, queues⟩ := submit_queues ledger.scheduler task
  refine ⟨fresh, queues, ?_, rfl⟩
  change ledger.accepted ++ (ledger.scheduler.submit task).2.pending.drop _ = _
  rw [queues.pending, List.drop_left]

theorem perform_runBudget (ledger : TaskLedger κ σ) (maxTasks : Nat) :
    ∃ fresh, Queues { ledger.scheduler with pending := ledger.scheduler.sorted.drop maxTasks }
        (ledger.perform call (.runBudget maxTasks)).scheduler fresh ∧
      (ledger.perform call (.runBudget maxTasks)).accepted = ledger.accepted ++ fresh ∧
      (ledger.perform call (.runBudget maxTasks)).executed =
        ledger.executed ++ ledger.scheduler.sorted.take maxTasks := by
  have length := ledger.scheduler.sorted_perm.length_eq
  have left : ledger.scheduler.sorted.drop (min maxTasks ledger.scheduler.pending.length) =
      ledger.scheduler.sorted.drop maxTasks := by
    rw [← length]
    exact List.drop_eq_drop_min.symm
  obtain ⟨fresh, queues⟩ := @foldl_execute_queues κ σ call (ledger.scheduler.ready maxTasks)
    (ledger.state, { ledger.scheduler with pending := ledger.scheduler.sorted.drop maxTasks })
  have ran : (ledger.perform call (.runBudget maxTasks)).scheduler =
      ((ledger.scheduler.ready maxTasks).foldl (AiTaskScheduler.execute call) (ledger.state,
        { ledger.scheduler with pending := ledger.scheduler.sorted.drop maxTasks })).2 := by
    rw [← left]
    rfl
  refine ⟨fresh, ran ▸ queues, ?_, congrArg (ledger.executed ++ ·) (ready_eq _ _)⟩
  change ledger.accepted ++ (ledger.perform call (.runBudget maxTasks)).scheduler.pending.drop _ = _
  rw [ran, queues.pending]
  congr 1
  exact List.drop_left' (by simp [length])

/-- What one step does to the tasks: some that waited are executed, and new ones wait behind. -/
theorem Sound.perform (sound : ledger.Sound) (op : SchedulerOp κ) :
    (ledger.perform call op).Sound := by
  have numbered : ∀ {scheduler : AiTaskScheduler κ} {fresh : List (QueuedTask κ)} {waiting},
      Queues { ledger.scheduler with pending := waiting } scheduler fresh →
      Queues {} { scheduler with pending := ledger.accepted ++ fresh } (ledger.accepted ++ fresh) :=
    fun queues => sound.numbered.trans ⟨rfl, queues.numbers, queues.next⟩
  cases op with
  | submit task =>
    obtain ⟨fresh, queues, accepted, executed⟩ := @perform_submit κ σ call ledger task
    refine ⟨?_, accepted ▸ numbered queues⟩
    rw [executed, queues.pending, accepted, ← List.append_assoc]
    exact sound.conserved.append_right fresh
  | runBudget maxTasks =>
    obtain ⟨fresh, queues, accepted, executed⟩ := @perform_runBudget κ σ call ledger maxTasks
    refine ⟨?_, accepted ▸ numbered queues⟩
    rw [executed, queues.pending, accepted, ← List.append_assoc, List.append_assoc ledger.executed,
      List.take_append_drop]
    have whole := ledger.scheduler.sorted_perm.append_left ledger.executed
    exact (whole.trans sound.conserved).append_right fresh

theorem Sound.run (sound : ledger.Sound) (ops : List (SchedulerOp κ)) :
    (ledger.run call ops).Sound := by
  induction ops generalizing ledger with
  | nil => exact sound
  | cons op rest ih => exact ih (sound.perform op)

theorem Sound.distinct (sound : ledger.Sound) (few : ledger.accepted.length < 2 ^ 64) :
    (ledger.accepted.map QueuedTask.sequence).Nodup := by
  rw [sound.numbered.numbers]
  refine List.Nodup.map_on (fun first inside second other same => ?_) List.nodup_range
  have small : first < 2 ^ 64 ∧ second < 2 ^ 64 :=
    ⟨(List.mem_range.mp inside).trans few, (List.mem_range.mp other).trans few⟩
  have numbers := congrArg UInt64.toNat ((UInt64.add_right_inj _).mp same)
  rwa [UInt64.toNat_ofNat_of_lt' small.1, UInt64.toNat_ofNat_of_lt' small.2] at numbers

/-- What a scheduler keeps between two moments of a run, the second after runs of `budget` tasks. -/
structure InTurn (before after : TaskLedger κ σ) (budget : ℕ) : Prop where
  conserved : (after.executed ++ after.scheduler.pending).Perm after.accepted
  once : after.accepted.length < 2 ^ 64 → (after.accepted.map QueuedTask.sequence).Nodup
  turn : after.accepted.length < 2 ^ 64 → ∀ queued ∈ before.scheduler.pending,
    (∀ later ∈ after.accepted.drop before.accepted.length, ¬ later.before queued) →
      (queued ∈ after.executed ↔
        (before.scheduler.pending.countP fun other => other.before queued) < budget)

-- what the first task submits goes before the task of lower priority
example : (run (fun (callee : ℕ) log => (log ++ [callee],
      if callee = 1 then [⟨7, 0, some 3⟩] else [])) { state := [] }
    [.submit ⟨7, 5, some 1⟩, .submit ⟨7, 0, none⟩, .submit ⟨4, -2, some 2⟩, .runBudget 1,
      .runBudget 1]).state = [1, 3] := by decide

end TaskLedger

end GeoWorld.Ai
