import Mathlib
import GeoWorld.Library.Runs

/-!
The control service: handler threads that post a job and wait for it, the queue that the main
thread runs, and durable submissions whose completion comes with a later poll. A request and its
response belong to the handler until it returns.
-/

namespace GeoWorld.Gateway

open Library

/-- What the handlers do with the core. A submission either completes at once or leaves its
completion with the core. -/
structure ControlHandlers (Core Request : Type) where
  /-- `SubmitCommand` with a request id. -/
  durable : Request → Bool
  handle : Core → Request → Core
  submit : Core → Request → Core × Bool
  complete : Core → Request → Core

structure ControlRpc (Request : Type) where
  request : Request
  /-- `done->set_value()` was called. -/
  finished : Bool := false
  returned : Bool := false
  /-- Answered with the dispatch timeout before its job started. -/
  abandoned : Bool := false

/-- One access to the request or the response of an RPC. -/
structure RpcAccess where
  rpc : Nat
  returned : Bool
  abandoned : Bool

/-- The service and its core, with what was accessed and finished so far. -/
structure ControlService (Core Request : Type) where
  core : Core
  rpcs : List (ControlRpc Request) := []
  /-- `jobs_`. -/
  jobs : List Nat := []
  /-- The jobs that `run_jobs` swapped out. -/
  taken : List Nat := []
  /-- The job that has started. -/
  current : Option Nat := none
  /-- Submissions whose completion the core holds. -/
  parked : List Nat := []
  accesses : List RpcAccess := []
  finishes : List Nat := []

inductive ControlEvent (Request : Type) where
  /-- A handler posts its job. -/
  | post (request : Request)
  | swapJobs
  | startJob
  | endJob
  /-- `poll_durable_tickets` completes a submission. -/
  | completeDurable (rpc : Nat)
  | returnOk (rpc : Nat)
  | timeOut (rpc : Nat)

namespace ControlService

variable {Core Request : Type}

def access (service : ControlService Core Request) (rpc : Nat) : ControlService Core Request :=
  match service.rpcs[rpc]? with
  | none => service
  | some held =>
    { service with accesses := service.accesses ++ [⟨rpc, held.returned, held.abandoned⟩] }

def setValue (service : ControlService Core Request) (rpc : Nat) : ControlService Core Request :=
  { service with rpcs := service.rpcs.modify rpc fun held => { held with finished := true } }

def finish (service : ControlService Core Request) (rpc : Nat) : ControlService Core Request :=
  ({ service with finishes := service.finishes ++ [rpc] } : ControlService Core Request).setValue rpc

variable (handlers : ControlHandlers Core Request)

/-- The end of the job of an RPC. -/
def runJob (service : ControlService Core Request) (rpc : Nat) (request : Request) :
    ControlService Core Request :=
  if handlers.durable request then
    let submitted := handlers.submit service.core request
    if submitted.2 then
      (({ service with core := submitted.1 } : ControlService Core Request).access rpc).finish rpc
    else
      { service with core := submitted.1, parked := service.parked ++ [rpc] }
  else
    (({ service with core := handlers.handle service.core request } :
      ControlService Core Request).access rpc).setValue rpc

/-- `none` where the event cannot happen. -/
def apply (service : ControlService Core Request) : ControlEvent Request →
    Option (ControlService Core Request)
  | .post request => some { service with
      rpcs := service.rpcs ++ [{ request }], jobs := service.jobs ++ [service.rpcs.length] }
  | .swapJobs =>
    if service.taken.isEmpty && service.current.isNone then
      some { service with taken := service.jobs, jobs := [] }
    else none
  | .startJob =>
    match service.current, service.taken with
    | none, rpc :: rest =>
      some (({ service with taken := rest, current := some rpc } :
        ControlService Core Request).access rpc)
    | _, _ => none
  | .endJob => do
    let rpc ← service.current
    let held ← service.rpcs[rpc]?
    return ({ service with current := none } : ControlService Core Request).runJob handlers rpc held.request
  | .completeDurable rpc =>
    if service.taken.isEmpty && service.current.isNone && service.parked.contains rpc then do
      let held ← service.rpcs[rpc]?
      return (({ service with
        core := handlers.complete service.core held.request
        parked := service.parked.erase rpc } : ControlService Core Request).access rpc).finish rpc
    else none
  | .returnOk rpc =>
    match service.rpcs[rpc]? with
    | some held =>
      if held.finished && !held.returned then
        some { service with rpcs := service.rpcs.set rpc { held with returned := true } }
      else none
    | none => none
  | .timeOut rpc =>
    match service.rpcs[rpc]? with
    | some held =>
      if !held.finished && !held.returned then
        some { service with rpcs := service.rpcs.set rpc { held with
          returned := true
          abandoned := service.jobs.contains rpc || service.taken.contains rpc } }
      else none
    | none => none

/-- In how many places the RPC waits for its turn or its completion. -/
def waits (service : ControlService Core Request) (rpc : Nat) : Nat :=
  service.jobs.count rpc + service.taken.count rpc +
    (if service.current = some rpc then 1 else 0) + service.parked.count rpc

def Step (before : ControlService Core Request) (event : ControlEvent Request)
    (after : ControlService Core Request) : Prop := before.apply handlers event = some after

/-- No wait reaches the dispatch timeout. -/
def Patient (_ : ControlService Core Request) : ControlEvent Request → Prop
  | .timeOut _ => False
  | _ => True

/-- Every RPC waits in one place at most or is finished, once. -/
structure Owned (service : ControlService Core Request) : Prop where
  once : ∀ rpc, service.waits rpc + service.finishes.count rpc ≤ 1
  known : ∀ rpc, 0 < service.waits rpc + service.finishes.count rpc → rpc < service.rpcs.length
  unfinished : ∀ (rpc : Nat) (held : ControlRpc Request), 0 < service.waits rpc →
    service.rpcs[rpc]? = some held → held.finished = false
  pending : ∀ (rpc : Nat) (held : ControlRpc Request), service.rpcs[rpc]? = some held →
    held.finished = false → 0 < service.waits rpc

/-- What holds while every handler waits for its result. -/
structure Attended (service : ControlService Core Request) : Prop where
  answered : ∀ (rpc : Nat) (held : ControlRpc Request), service.rpcs[rpc]? = some held →
    held.abandoned = false ∧ (held.returned = true → held.finished = true)
  within : ∀ access ∈ service.accesses, access.returned = false ∧ access.abandoned = false

section Steps

variable {handlers} {before after service : ControlService Core Request}
variable {event : ControlEvent Request} {rpc other : Nat} {held : ControlRpc Request}

/-- A value set for an RPC finishes it and leaves the others. -/
theorem setValue_rpcs_cases (found : (service.setValue rpc).rpcs[other]? = some held) :
    ∃ earlier, service.rpcs[other]? = some earlier ∧ held.returned = earlier.returned ∧
      held.abandoned = earlier.abandoned ∧ (other ≠ rpc → held = earlier) ∧
      (earlier.finished = true → held.finished = true) ∧ (other = rpc → held.finished = true) := by
  rw [setValue, List.getElem?_modify] at found
  obtain ⟨earlier, listed, changed⟩ := Option.map_eq_some_iff.mp found
  refine ⟨earlier, listed, ?_⟩
  by_cases same : rpc = other
  · rw [if_pos same] at changed
    subst changed
    exact ⟨rfl, rfl, fun differ => absurd same.symm differ, fun _ => rfl, fun _ => rfl⟩
  · rw [if_neg same] at changed
    subst changed
    exact ⟨rfl, rfl, fun _ => rfl, fun done => done, fun equal => absurd equal.symm same⟩

/-- What an event does to the RPCs and to where they wait. -/
inductive Effect (before after : ControlService Core Request) : ControlEvent Request → Prop where
  | posts (request : Request) (rpcs : after.rpcs = before.rpcs ++ [⟨request, false, false, false⟩])
      (waits : ∀ other, after.waits other =
        before.waits other + if other = before.rpcs.length then 1 else 0)
      (finishes : after.finishes = before.finishes) (accesses : after.accesses = before.accesses) :
      Effect before after (.post request)
  | moves {event : ControlEvent Request} (seen : List RpcAccess) (rpcs : after.rpcs = before.rpcs)
      (waits : ∀ other, after.waits other = before.waits other)
      (finishes : after.finishes = before.finishes)
      (accesses : after.accesses = before.accesses ++ seen)
      (held : ∀ access ∈ seen, 0 < before.waits access.rpc ∧ ∃ held,
        before.rpcs[access.rpc]? = some held ∧ access = ⟨access.rpc, held.returned, held.abandoned⟩) :
      Effect before after event
  | answers {event : ControlEvent Request} (rpc : Nat) (held : ControlRpc Request) (done : List Nat)
      (found : before.rpcs[rpc]? = some held) (rpcs : after.rpcs = (before.setValue rpc).rpcs)
      (waits : ∀ other, after.waits other + (if other = rpc then 1 else 0) = before.waits other)
      (finishes : after.finishes = before.finishes ++ done) (at_most : done = [] ∨ done = [rpc])
      (accesses : after.accesses = before.accesses ++ [⟨rpc, held.returned, held.abandoned⟩]) :
      Effect before after event
  | returns {event : ControlEvent Request} (rpc : Nat) (held left : ControlRpc Request)
      (found : before.rpcs[rpc]? = some held) (rpcs : after.rpcs = before.rpcs.set rpc left)
      (result : left.finished = held.finished)
      (kept : Patient before event → left.abandoned = held.abandoned ∧ held.finished = true)
      (waits : ∀ other, after.waits other = before.waits other)
      (finishes : after.finishes = before.finishes) (accesses : after.accesses = before.accesses) :
      Effect before after event

/-- The end of a job answers its RPC or leaves it with the core. -/
theorem effect_runJob (handlers : ControlHandlers Core Request) (running : before.current = some rpc)
    (found : before.rpcs[rpc]? = some held) :
    Effect before (({ before with current := none } : ControlService Core Request).runJob handlers
      rpc held.request) .endJob := by
  have left : ∀ other, (before.jobs.count other + before.taken.count other + 0 +
      before.parked.count other) + (if other = rpc then 1 else 0) = before.waits other := by
    intro other
    rw [waits, running]
    by_cases same : other = rpc
    · simp only [same, if_true]
      omega
    · simp only [same, Ne.symm same, Option.some.injEq, if_false]
      omega
  unfold runJob
  by_cases durable : handlers.durable held.request = true
  · rw [if_pos durable]
    by_cases done : (handlers.submit before.core held.request).2 = true
    · simp only [done, if_true, access, found]
      exact .answers rpc held [rpc] found rfl left rfl (.inr rfl) rfl
    · simp only [done]
      refine .moves [] rfl (fun other => ?_) rfl (List.append_nil _).symm (fun _ none => by cases none)
      rw [← left other]
      simp only [waits, List.count_append, List.count_singleton, reduceCtorEq, if_false, beq_iff_eq,
        @eq_comm _ rpc other]
      omega
  · rw [if_neg durable]
    simp only [access, found]
    exact .answers rpc held [] found rfl left (List.append_nil _).symm (.inl rfl) rfl

/-- The effects of the steps, one for each event. -/
theorem step_effect (step : Step handlers before event after) : Effect before after event := by
  unfold Step at step
  cases event with
  | post request =>
    obtain rfl := Option.some.inj step
    refine .posts request rfl (fun other => ?_) rfl rfl
    simp only [waits, List.count_append, List.count_singleton, beq_iff_eq,
      @eq_comm _ before.rpcs.length other]
    omega
  | swapJobs =>
    simp only [apply, Option.ite_none_right_eq_some, Bool.and_eq_true, List.isEmpty_iff,
      Option.isNone_iff_eq_none] at step
    obtain ⟨⟨taken, current⟩, same⟩ := step
    obtain rfl := Option.some.inj same
    refine .moves [] rfl (fun other => ?_) rfl (List.append_nil _).symm (fun _ none => by cases none)
    simp [waits, taken, current]
  | startJob =>
    simp only [apply] at step
    split at step
    · rename_i rpc rest idle queued
      obtain rfl := Option.some.inj step
      have moved : ∀ other, (before.jobs.count other + rest.count other +
          (if some rpc = some other then 1 else 0) + before.parked.count other) =
            before.waits other := by
        intro other
        simp only [waits, idle, queued, List.count_cons, beq_iff_eq, Option.some.injEq, reduceCtorEq,
          if_false]
        omega
      unfold access
      simp only
      split
      · exact .moves [] rfl moved rfl (List.append_nil _).symm fun _ none => by cases none
      · rename_i held found
        refine .moves [⟨rpc, held.returned, held.abandoned⟩] rfl moved rfl rfl fun seen member => ?_
        obtain rfl := List.mem_singleton.mp member
        refine ⟨?_, held, found, rfl⟩
        rw [waits, queued, List.count_cons_self]
        omega
    · cases step
  | endJob =>
    simp only [apply, Option.bind_eq_bind, Option.bind_eq_some_iff] at step
    obtain ⟨rpc, running, held, found, same⟩ := step
    obtain rfl := Option.some.inj same
    exact effect_runJob handlers running found
  | completeDurable rpc =>
    simp only [apply, Option.ite_none_right_eq_some, Bool.and_eq_true, List.contains_iff_mem,
      Option.bind_eq_bind, Option.bind_eq_some_iff] at step
    obtain ⟨⟨-, parked⟩, held, found, same⟩ := step
    obtain rfl := Option.some.inj same
    simp only [access, found]
    refine .answers rpc held [rpc] found rfl (fun other => ?_) rfl (.inr rfl) rfl
    have listed := List.count_pos_iff.mpr parked
    change before.jobs.count other + before.taken.count other + (if before.current = some other then 1
      else 0) + (before.parked.erase rpc).count other + (if other = rpc then 1 else 0) = _
    rw [waits, List.count_erase]
    by_cases same : other = rpc
    · subst same
      simp only [beq_self_eq_true, if_true]
      omega
    · simp only [beq_iff_eq, same, if_false, Ne.symm same]
      omega
  | returnOk rpc =>
    simp only [apply] at step
    split at step
    · rename_i held found
      simp only [Option.ite_none_right_eq_some, Bool.and_eq_true] at step
      obtain ⟨⟨finished, -⟩, same⟩ := step
      obtain rfl := Option.some.inj same
      exact .returns rpc held _ found rfl rfl (fun _ => ⟨rfl, finished⟩) (fun _ => rfl) rfl rfl
    · cases step
  | timeOut rpc =>
    simp only [apply] at step
    split at step
    · rename_i held found
      simp only [Option.ite_none_right_eq_some] at step
      obtain ⟨-, same⟩ := step
      obtain rfl := Option.some.inj same
      exact .returns rpc held _ found rfl rfl (fun patient => patient.elim) (fun _ => rfl) rfl rfl
    · cases step

/-- One step keeps every RPC in one place. -/
theorem Owned.step (owned : before.Owned) (effect : Effect before after event) : after.Owned := by
  cases effect with
  | posts request rpcs waits finishes accesses =>
    have fresh : before.waits before.rpcs.length + before.finishes.count before.rpcs.length = 0 := by
      by_contra some
      exact lt_irrefl _ (owned.known _ (Nat.pos_of_ne_zero some))
    refine ⟨fun other => ?_, fun other held => ?_, fun other held waiting found => ?_,
      fun other held found unfinished => ?_⟩
    · rw [waits, finishes]
      have once := owned.once other
      split
      · rename_i same
        rw [same]
        omega
      · omega
    · rw [waits, finishes] at held
      rw [rpcs, List.length_append, List.length_singleton]
      split at held
      · omega
      · exact Nat.lt_succ_of_lt (owned.known other held)
    · rw [rpcs, List.getElem?_append] at found
      split at found
      · rename_i inside
        rw [waits, if_neg inside.ne] at waiting
        exact owned.unfinished other held waiting found
      · obtain rfl := List.mem_singleton.mp (List.mem_of_getElem? found)
        rfl
    · rw [waits]
      have inside := (List.getElem?_eq_some_iff.mp found).1
      rw [rpcs, List.length_append, List.length_singleton] at inside
      split
      · omega
      · rw [rpcs, List.getElem?_append_left (by omega)] at found
        exact owned.pending other held found unfinished
  | moves seen rpcs waits finishes accesses held =>
    refine ⟨fun other => ?_, fun other => ?_, fun other => ?_, fun other => ?_⟩
    · rw [waits, finishes]
      exact owned.once other
    · rw [waits, finishes, rpcs]
      exact owned.known other
    · rw [waits, rpcs]
      exact owned.unfinished other
    · rw [waits, rpcs]
      exact owned.pending other
  | answers rpc held done found rpcs waits finishes at_most accesses =>
    have added : ∀ other, done.count other ≤ if other = rpc then 1 else 0 := by
      intro other
      rcases at_most with rfl | rfl
      · exact Nat.zero_le _
      · rw [List.count_singleton]
        simp only [beq_iff_eq, @eq_comm _ rpc other, le_refl]
    have length : after.rpcs.length = before.rpcs.length := by
      rw [rpcs, setValue, List.length_modify]
    refine ⟨fun other => ?_, fun other some => ?_, fun other later waiting listed => ?_,
      fun other later listed unfinished => ?_⟩
    · rw [finishes, List.count_append]
      have once := owned.once other
      have moved := waits other
      have more := added other
      omega
    · rw [finishes, List.count_append] at some
      rw [length]
      have moved := waits other
      have more := added other
      exact owned.known other (by omega)
    · rw [rpcs] at listed
      obtain ⟨earlier, known, -, -, same, -, -⟩ := setValue_rpcs_cases listed
      have moved := waits other
      have once := owned.once other
      have different : other ≠ rpc := by
        rintro rfl
        rw [if_pos rfl] at moved
        omega
      rw [same different]
      exact owned.unfinished other earlier (by omega) known
    · rw [rpcs] at listed
      obtain ⟨earlier, known, -, -, same, -, set⟩ := setValue_rpcs_cases listed
      have different : other ≠ rpc := by
        rintro equal
        rw [set equal] at unfinished
        cases unfinished
      have moved := waits other
      rw [if_neg different] at moved
      rw [same different] at unfinished
      have waiting := owned.pending other earlier known unfinished
      omega
  | returns rpc held left found rpcs result kept waits finishes accesses =>
    have length : after.rpcs.length = before.rpcs.length := by rw [rpcs, List.length_set]
    have earlier : ∀ (other : Nat) (later : ControlRpc Request), after.rpcs[other]? = some later →
        ∃ former, before.rpcs[other]? = some former ∧ later.finished = former.finished := by
      intro other later listed
      rw [rpcs, List.getElem?_set] at listed
      split at listed
      · rename_i same
        subst same
        split at listed
        · obtain rfl := Option.some.inj listed
          exact ⟨held, found, result⟩
        · cases listed
      · exact ⟨later, listed, rfl⟩
    refine ⟨fun other => ?_, fun other => ?_, fun other later waiting listed => ?_,
      fun other later listed unfinished => ?_⟩
    · rw [waits, finishes]
      exact owned.once other
    · rw [waits, finishes, length]
      exact owned.known other
    · obtain ⟨former, known, same⟩ := earlier other later listed
      rw [waits] at waiting
      rw [same]
      exact owned.unfinished other former waiting known
    · obtain ⟨former, known, same⟩ := earlier other later listed
      rw [waits]
      exact owned.pending other former known (same ▸ unfinished)

/-- One step without a timeout keeps every access within its RPC. -/
theorem Attended.step (attended : before.Attended) (owned : before.Owned)
    (patient : Patient before event) (effect : Effect before after event) : after.Attended := by
  have alive : ∀ (rpc : Nat) (held : ControlRpc Request), before.rpcs[rpc]? = some held →
      0 < before.waits rpc → held.returned = false ∧ held.abandoned = false := by
    intro rpc held found waiting
    obtain ⟨kept, answered⟩ := attended.answered rpc held found
    have unfinished := owned.unfinished rpc held waiting found
    refine ⟨Bool.eq_false_iff.mpr fun returned => ?_, kept⟩
    rw [answered returned] at unfinished
    cases unfinished
  cases effect with
  | posts request rpcs waits finishes accesses =>
    refine ⟨fun other held found => ?_, accesses ▸ attended.within⟩
    rw [rpcs, List.getElem?_append] at found
    split at found
    · exact attended.answered other held found
    · obtain rfl := List.mem_singleton.mp (List.mem_of_getElem? found)
      exact ⟨rfl, fun returned => returned⟩
  | moves seen rpcs waits finishes accesses held =>
    refine ⟨rpcs ▸ attended.answered, fun access member => ?_⟩
    rw [accesses] at member
    rcases List.mem_append.mp member with earlier | fresh
    · exact attended.within access earlier
    · obtain ⟨waiting, own, found, same⟩ := held access fresh
      rw [same]
      exact alive _ own found waiting
  | answers rpc held done found rpcs waits finishes at_most accesses =>
    refine ⟨fun other later listed => ?_, fun access member => ?_⟩
    · rw [rpcs] at listed
      obtain ⟨earlier, known, returned, abandoned, -, finished, -⟩ := setValue_rpcs_cases listed
      obtain ⟨kept, answered⟩ := attended.answered other earlier known
      exact ⟨abandoned.trans kept, fun gone => finished (answered (returned ▸ gone))⟩
    · rw [accesses] at member
      rcases List.mem_append.mp member with earlier | fresh
      · exact attended.within access earlier
      · obtain rfl := List.mem_singleton.mp fresh
        have moved := waits rpc
        rw [if_pos rfl] at moved
        exact alive rpc held found (by omega)
  | returns rpc held left found rpcs result kept waits finishes accesses =>
    obtain ⟨same, finished⟩ := kept patient
    refine ⟨fun other later listed => ?_, accesses ▸ attended.within⟩
    rw [rpcs, List.getElem?_set] at listed
    split at listed
    · rename_i equal
      subst equal
      split at listed
      · obtain rfl := Option.some.inj listed
        exact ⟨same.trans (attended.answered _ held found).1, fun _ => result.trans finished⟩
      · cases listed
    · exact attended.answered other later listed

theorem timeOut_unfinished (step : Step handlers before (.timeOut rpc) after) :
    ∃ held, after.rpcs[rpc]? = some held ∧ held.finished = false := by
  simp only [Step, apply] at step
  split at step
  · rename_i held found
    simp only [Option.ite_none_right_eq_some, Bool.and_eq_true, Bool.not_eq_true'] at step
    obtain ⟨⟨unfinished, -⟩, same⟩ := step
    obtain rfl := Option.some.inj same
    exact ⟨_, List.getElem?_set_self (List.getElem?_eq_some_iff.mp found).1, unfinished⟩
  · cases step

theorem Owned.initial (core : Core) : ({ core } : ControlService Core Request).Owned :=
  ⟨fun _ => by simp [waits], fun rpc some => by simp [waits] at some, fun rpc held waiting _ => by
    simp [waits] at waiting, fun _ _ found => (List.not_mem_nil (List.mem_of_getElem? found)).elim⟩

theorem Attended.initial (core : Core) : ({ core } : ControlService Core Request).Attended :=
  ⟨fun _ _ found => (List.not_mem_nil (List.mem_of_getElem? found)).elim,
    fun _ member => (List.not_mem_nil member).elim⟩

end Steps

/-- In runs of any steps every durable submission is finished once at most, and a handler that times
out leaves its job behind; in runs without a timeout, requests and responses are read and written
before their handlers return. -/
theorem jobs_within_rpcs (handlers : ControlHandlers Core Request) (core : Core)
    (events : List (ControlEvent Request)) (after : ControlService Core Request) :
    (AnyRun (Step handlers) { core } events after → after.finishes.Nodup ∧
      ∀ (rpc : Nat) (next : ControlService Core Request), Step handlers after (.timeOut rpc) next →
        0 < next.waits rpc) ∧
      (GuardedRun (Step handlers) Patient { core } events after →
        ∀ access ∈ after.accesses, access.returned = false ∧ access.abandoned = false) := by
  constructor
  · intro run
    have owned := run.invariant (Owned.initial core) fun _ _ _ _ step kept => kept.step (step_effect step)
    refine ⟨List.nodup_iff_count_le_one.mpr fun rpc => ?_, fun rpc next step => ?_⟩
    · have once := owned.once rpc
      omega
    · have kept := owned.step (step_effect step)
      obtain ⟨held, found, unfinished⟩ := timeOut_unfinished step
      exact kept.pending rpc held found unfinished
  · intro run
    have kept : after.Owned ∧ after.Attended :=
      @GuardedRun.invariant _ _ _ _ (fun service => service.Owned ∧ service.Attended) _ _ _ run
        ⟨Owned.initial core, Attended.initial core⟩ fun _ _ _ patient step held =>
          ⟨held.1.step (step_effect step), held.2.step held.1 patient (step_effect step)⟩
    exact kept.2.within

/-- A core that counts what it was asked to do. -/
def counting : ControlHandlers Nat Bool where
  durable request := request
  handle core _ := core + 1
  submit core _ := (core + 1, false)
  complete core _ := core + 1

/-- A durable submission after its handler returned. -/
def served : ControlService Nat Bool where
  core := 2
  rpcs := [⟨true, true, true, false⟩]
  accesses := [⟨0, false, false⟩, ⟨0, false, false⟩]
  finishes := [0]

theorem jobs_within_rpcs_served : served.finishes.Nodup ∧
    (served.accesses.all fun access => !access.returned && !access.abandoned) = true := by
  have run {guard : ControlService Nat Bool → ControlEvent Bool → Prop}
      (allowed : ∀ state event, Patient state event → guard state event) :
      GuardedRun (Step counting) guard { core := 0 } [.post true, .swapJobs, .startJob, .endJob,
        .completeDurable 0, .returnOk 0] served :=
    .cons (allowed _ _ trivial) rfl (.cons (allowed _ _ trivial) rfl (.cons (allowed _ _ trivial) rfl
      (.cons (allowed _ _ trivial) rfl (.cons (allowed _ _ trivial) rfl
        (.cons (allowed _ _ trivial) rfl (.nil _))))))
  obtain ⟨once, within⟩ := jobs_within_rpcs counting 0 _ served
  refine ⟨(once (run fun _ _ _ => trivial)).1, List.all_eq_true.mpr fun access member => ?_⟩
  obtain ⟨returned, abandoned⟩ := within (run fun _ _ patient => patient) access member
  rw [returned, abandoned]
  rfl

/-- A job runs after the answer with the timeout. -/
theorem abandoned_job_runs : ¬ ∀ (Core Request : Type) (handlers : ControlHandlers Core Request)
    (core : Core) (events : List (ControlEvent Request)) (after : ControlService Core Request),
    AnyRun (Step handlers) { core } events after →
      ∀ access ∈ after.accesses, access.returned = false ∧ access.abandoned = false := by
  intro claimed
  have run : AnyRun (Step counting) ({ core := 0 } : ControlService Nat Bool)
      [.post false, .timeOut 0, .swapJobs, .startJob] {
        core := 0, rpcs := [⟨false, false, true, true⟩], current := some 0
        accesses := [⟨0, true, true⟩] } :=
    .cons trivial rfl (.cons trivial rfl (.cons trivial rfl (.cons trivial rfl (.nil _))))
  have within := claimed Nat Bool counting 0 _ _ run ⟨0, true, true⟩ List.mem_cons_self
  cases within.1

end ControlService

end GeoWorld.Gateway
