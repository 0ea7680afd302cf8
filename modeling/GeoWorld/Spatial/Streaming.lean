import Mathlib
import GeoWorld.Library.TreeMap
import GeoWorld.Projection.SpatialIndex
import GeoWorld.Spatial.CellGrid

/-!
The lifecycle of cells: a cell that has no record is unloaded, and every operation answers
whether the state of the cell allowed it.
-/

namespace GeoWorld.Spatial

open Library
open Projection (CellKey)

inductive CellState where
  | unloaded
  | loading
  | loaded
  | active
  | sleeping
  deriving DecidableEq

structure CellRecord where
  state : CellState := .unloaded
  stateSinceMs : UInt64 := 0
  unloadAfterMs : UInt64 := 0
  deriving DecidableEq

structure CellLifecycle where
  cells : Std.ExtTreeMap CellKey CellRecord CellKey.cmp := ∅

/-- An operation with its arguments. -/
inductive CellCall where
  | requestLoad (cell : CellKey) (nowMs : UInt64)
  | markLoaded (cell : CellKey) (nowMs : UInt64)
  | activate (cell : CellKey) (nowMs : UInt64)
  | sleep (cell : CellKey) (nowMs unloadDelayMs : UInt64)
  | unloadIfDue (cell : CellKey) (nowMs : UInt64)
  deriving DecidableEq

def CellCall.cell : CellCall → CellKey
  | requestLoad cell _ => cell
  | markLoaded cell _ => cell
  | activate cell _ => cell
  | sleep cell _ _ => cell
  | unloadIfDue cell _ => cell

namespace CellLifecycle

def state (lifecycle : CellLifecycle) (cell : CellKey) : CellState :=
  match lifecycle.cells[cell]? with
  | none => .unloaded
  | some record => record.state

/-- A cell without a record gets a fresh one, which is unloaded. -/
def requestLoad (lifecycle : CellLifecycle) (cell : CellKey) (nowMs : UInt64) :
    Bool × CellLifecycle :=
  if (lifecycle.cells[cell]?.getD {}).state ≠ .unloaded then
    (false, lifecycle)
  else
    (true, ⟨lifecycle.cells.insert cell ⟨.loading, nowMs, 0⟩⟩)

/-- An operation that wants a record: it replaces the record, or erases it, if it may. -/
def transition (lifecycle : CellLifecycle) (cell : CellKey) (allowed : CellRecord → Bool)
    (next : Option CellRecord) : Bool × CellLifecycle :=
  match lifecycle.cells[cell]? with
  | none => (false, lifecycle)
  | some record =>
    if allowed record then
      (true, ⟨lifecycle.cells.alter cell fun _ => next⟩)
    else
      (false, lifecycle)

def markLoaded (lifecycle : CellLifecycle) (cell : CellKey) (nowMs : UInt64) :
    Bool × CellLifecycle :=
  lifecycle.transition cell (fun record => record.state = .loading) (some ⟨.loaded, nowMs, 0⟩)

def activate (lifecycle : CellLifecycle) (cell : CellKey) (nowMs : UInt64) :
    Bool × CellLifecycle :=
  lifecycle.transition cell (fun record => record.state = .loaded ∨ record.state = .sleeping)
    (some ⟨.active, nowMs, 0⟩)

def sleep (lifecycle : CellLifecycle) (cell : CellKey) (nowMs unloadDelayMs : UInt64) :
    Bool × CellLifecycle :=
  lifecycle.transition cell (fun record => record.state = .active)
    (some ⟨.sleeping, nowMs, nowMs + unloadDelayMs⟩)

def unloadIfDue (lifecycle : CellLifecycle) (cell : CellKey) (nowMs : UInt64) :
    Bool × CellLifecycle :=
  lifecycle.transition cell
    (fun record => record.state = .sleeping ∧ record.unloadAfterMs ≤ nowMs) none

/-- `known_cells`, in ascending order. -/
def knownCells (lifecycle : CellLifecycle) : List CellKey :=
  lifecycle.cells.keys

def perform (lifecycle : CellLifecycle) : CellCall → Bool × CellLifecycle
  | .requestLoad cell nowMs => lifecycle.requestLoad cell nowMs
  | .markLoaded cell nowMs => lifecycle.markLoaded cell nowMs
  | .activate cell nowMs => lifecycle.activate cell nowMs
  | .sleep cell nowMs unloadDelayMs => lifecycle.sleep cell nowMs unloadDelayMs
  | .unloadIfDue cell nowMs => lifecycle.unloadIfDue cell nowMs

/-- A list of calls, and whether all of them succeeded. -/
def performAll : CellLifecycle → List CellCall → Bool × CellLifecycle
  | lifecycle, [] => (true, lifecycle)
  | lifecycle, call :: calls =>
    let rest := (lifecycle.perform call).2.performAll calls
    ((lifecycle.perform call).1 && rest.1, rest.2)

section Operations

variable {lifecycle before after : CellLifecycle} {cell other : CellKey}
variable {allowed : CellRecord → Bool} {next : Option CellRecord} {nowMs unloadDelayMs : UInt64}

theorem record_of_state {stage : CellState} (reached : lifecycle.state cell = stage)
    (known : stage ≠ .unloaded) :
    ∃ record, lifecycle.cells[cell]? = some record ∧ record.state = stage := by
  unfold state at reached
  cases found : lifecycle.cells[cell]? with
  | none =>
    rw [found] at reached
    exact absurd reached.symm known
  | some record =>
    rw [found] at reached
    exact ⟨record, rfl, reached⟩

theorem transition_done {record : CellRecord} (found : lifecycle.cells[cell]? = some record)
    (may : allowed record = true) :
    lifecycle.transition cell allowed next = (true, ⟨lifecycle.cells.alter cell fun _ => next⟩) := by
  simp [transition, found, may]

theorem state_alter (stage : CellState) (nowMs unloadAfterMs : UInt64) :
    (CellLifecycle.mk (lifecycle.cells.alter cell fun _ =>
      some ⟨stage, nowMs, unloadAfterMs⟩)).state cell = stage := by
  simp [state]

theorem requestLoad_succeeds :
    (lifecycle.requestLoad cell nowMs).1 = true ↔ lifecycle.state cell = .unloaded := by
  unfold requestLoad state
  cases lifecycle.cells[cell]? with
  | none => simp
  | some record => by_cases unloaded : record.state = .unloaded <;> simp [unloaded]

theorem sleep_succeeds :
    (lifecycle.sleep cell nowMs unloadDelayMs).1 = true ↔ lifecycle.state cell = .active := by
  unfold sleep transition state
  cases lifecycle.cells[cell]? with
  | none => simp
  | some record => by_cases active : record.state = .active <;> simp [active]

theorem state_requestLoad (unloaded : lifecycle.state cell = .unloaded) (nowMs : UInt64) :
    (lifecycle.requestLoad cell nowMs).2.state cell = .loading := by
  unfold state at unloaded
  unfold requestLoad
  rw [if_neg]
  · simp [state]
  · cases found : lifecycle.cells[cell]? with
    | none => simp
    | some record => simpa [found] using unloaded

theorem state_markLoaded (loading : lifecycle.state cell = .loading) (nowMs : UInt64) :
    (lifecycle.markLoaded cell nowMs).2.state cell = .loaded := by
  obtain ⟨record, found, stage⟩ := record_of_state loading (by decide)
  rw [markLoaded, transition_done found (by simp [stage])]
  exact state_alter _ _ _

theorem state_activate (ready : lifecycle.state cell = .loaded ∨ lifecycle.state cell = .sleeping)
    (nowMs : UInt64) : (lifecycle.activate cell nowMs).2.state cell = .active := by
  obtain ⟨record, found, stage⟩ : ∃ record, lifecycle.cells[cell]? = some record ∧
      (record.state = .loaded ∨ record.state = .sleeping) := by
    rcases ready with loaded | sleeping
    · obtain ⟨record, found, stage⟩ := record_of_state loaded (by decide)
      exact ⟨record, found, .inl stage⟩
    · obtain ⟨record, found, stage⟩ := record_of_state sleeping (by decide)
      exact ⟨record, found, .inr stage⟩
  rw [activate, transition_done found (by simpa using stage)]
  exact state_alter _ _ _

theorem state_sleep (active : lifecycle.state cell = .active) (nowMs unloadDelayMs : UInt64) :
    (lifecycle.sleep cell nowMs unloadDelayMs).2.state cell = .sleeping := by
  obtain ⟨record, found, stage⟩ := record_of_state active (by decide)
  rw [sleep, transition_done found (by simp [stage])]
  exact state_alter _ _ _

/-- At some time a sleeping cell is due. -/
theorem state_unloadIfDue (sleeping : lifecycle.state cell = .sleeping) :
    ∃ nowMs, (lifecycle.unloadIfDue cell nowMs).2.state cell = .unloaded := by
  obtain ⟨record, found, stage⟩ := record_of_state sleeping (by decide)
  refine ⟨record.unloadAfterMs, ?_⟩
  rw [unloadIfDue, transition_done found (by simp [stage])]
  simp [state]

theorem transition_other (differ : other ≠ cell) :
    (lifecycle.transition cell allowed next).2.cells[other]? = lifecycle.cells[other]? := by
  unfold transition
  split
  · rfl
  · split
    · rw [Std.ExtTreeMap.getElem?_alter, if_neg]
      rw [Std.LawfulEqCmp.compare_eq_iff_eq]
      exact differ.symm
    · rfl

theorem transition_congr (same : after.cells[cell]? = before.cells[cell]?) :
    (after.transition cell allowed next).1 = (before.transition cell allowed next).1 ∧
      (after.transition cell allowed next).2.cells[cell]? =
        (before.transition cell allowed next).2.cells[cell]? := by
  unfold transition
  rw [same]
  split
  · exact ⟨rfl, same⟩
  · split
    · simp
    · exact ⟨rfl, same⟩

/-- A call leaves the other cells alone. -/
theorem perform_other {call : CellCall} (differ : other ≠ call.cell) :
    (lifecycle.perform call).2.cells[other]? = lifecycle.cells[other]? := by
  cases call with
  | requestLoad cell nowMs =>
    simp only [perform, requestLoad]
    split
    · rfl
    · exact lookup_insert_ne _ differ _
  | _ => exact transition_other differ

/-- What a call does depends on its own cell alone. -/
theorem perform_congr {call : CellCall} (same : after.cells[call.cell]? = before.cells[call.cell]?) :
    (after.perform call).1 = (before.perform call).1 ∧
      (after.perform call).2.cells[call.cell]? = (before.perform call).2.cells[call.cell]? := by
  cases call with
  | requestLoad cell nowMs =>
    simp only [CellCall.cell] at same
    simp only [perform, requestLoad, same, CellCall.cell]
    split
    · exact ⟨rfl, same⟩
    · simp
  | _ => exact transition_congr same

end Operations

section Lists

variable {lifecycle : CellLifecycle} {calls : List CellCall}

theorem performAll_other {cell : CellKey} (apart : ∀ call ∈ calls, call.cell ≠ cell) :
    (lifecycle.performAll calls).2.cells[cell]? = lifecycle.cells[cell]? := by
  induction calls generalizing lifecycle with
  | nil => rfl
  | cons call calls ih =>
    rw [performAll, ih fun other member => apart other (List.mem_cons_of_mem _ member)]
    exact perform_other (apart call List.mem_cons_self).symm

/-- Calls for different cells go as each of them alone. -/
theorem performAll_distinct (lifecycle : CellLifecycle)
    (distinct : (calls.map CellCall.cell).Nodup) :
    ((lifecycle.performAll calls).1 = true ↔
        ∀ call ∈ calls, (lifecycle.perform call).1 = true) ∧
      ∀ call ∈ calls, (lifecycle.performAll calls).2.cells[call.cell]? =
        (lifecycle.perform call).2.cells[call.cell]? := by
  induction calls generalizing lifecycle with
  | nil => simp [performAll]
  | cons call calls ih =>
    rw [List.map_cons, List.nodup_cons] at distinct
    obtain ⟨fresh, distinct⟩ := distinct
    obtain ⟨all, cells⟩ := ih (lifecycle.perform call).2 distinct
    have apart : ∀ other ∈ calls, other.cell ≠ call.cell := fun other member same =>
      fresh (same ▸ List.mem_map_of_mem member)
    have congr : ∀ other ∈ calls, _ := fun other member =>
      perform_congr (@perform_other lifecycle _ _ (apart other member))
    constructor
    · simp only [performAll, Bool.and_eq_true, all, List.forall_mem_cons]
      refine and_congr_right fun _ => forall₂_congr fun other member => ?_
      rw [(congr other member).1]
    · intro other member
      rw [performAll]
      rcases List.mem_cons.mp member with rfl | member
      · exact performAll_other apart
      · exact (cells other member).trans (congr other member).2

end Lists

end CellLifecycle

end GeoWorld.Spatial

/-!
The streaming planner: which cells the sources want, which of them are to be loaded and
which others put to sleep. A plan names loaded cells for sleep, and only active cells go to
sleep.
-/

namespace GeoWorld.Spatial

open Library
open Projection (CellKey cellRange)

structure StreamingSource where
  center : CellKey
  radiusCells : Int32
  prefetchRadius : Int32

structure StreamingPlan where
  desired : List CellKey
  toLoad : List CellKey
  toSleep : List CellKey
  deriving DecidableEq

namespace StreamingSource

/-- Sources with a negative radius are passed over. -/
def counts (source : StreamingSource) : Bool :=
  decide (0 ≤ source.radiusCells.toInt) && decide (0 ≤ source.prefetchRadius.toInt)

def radius (source : StreamingSource) : Int :=
  min (source.radiusCells.toInt + source.prefetchRadius.toInt) int32Max

/-- The loops count an `int` up to the radius and add it to coordinates of 64 bits. -/
def fits (source : StreamingSource) : Bool :=
  decide (source.radius < int32Max) &&
    decide (-int64Max - 1 ≤ source.center.x - source.radius) &&
    decide (source.center.x + source.radius ≤ int64Max) &&
    decide (-int64Max - 1 ≤ source.center.y - source.radius) &&
    decide (source.center.y + source.radius ≤ int64Max)

def square (source : StreamingSource) : List CellKey :=
  (cellRange (-source.radius) source.radius).flatMap fun y =>
    (cellRange (-source.radius) source.radius).map fun x =>
      ⟨source.center.x + x, source.center.y + y, source.center.level, source.center.z⟩

/-- The cells within the radius of the source, prefetched ones included. -/
def Covers (source : StreamingSource) (cell : CellKey) : Prop :=
  source.counts = true ∧ cell.level = source.center.level ∧ cell.z = source.center.z ∧
    |cell.x - source.center.x| ≤ source.radiusCells.toInt + source.prefetchRadius.toInt ∧
    |cell.y - source.center.y| ≤ source.radiusCells.toInt + source.prefetchRadius.toInt

end StreamingSource

abbrev CellSet := Std.ExtTreeSet CellKey CellKey.cmp

def desiredSet (sources : List StreamingSource) : CellSet :=
  (sources.filter StreamingSource.counts).foldl
    (fun cells source => source.square.foldl (fun cells cell => cells.insert cell) cells) ∅

/-- `StreamingPlanner::plan`. There is no plan where an integer of the loops overflows, which
is undefined. -/
def planStreaming (sources : List StreamingSource) (lifecycle : CellLifecycle) :
    Option StreamingPlan :=
  if (sources.filter StreamingSource.counts).all StreamingSource.fits then
    let desired := (desiredSet sources).toList
    let known := lifecycle.knownCells
    some {
      desired := desired
      toLoad := desired.filter fun cell =>
        !known.contains cell || lifecycle.state cell == .unloaded
      toSleep := known.filter fun cell =>
        !(desiredSet sources).contains cell &&
          (lifecycle.state cell == .loaded || lifecycle.state cell == .active) }
  else
    none

/-- The calls that carry a plan out. -/
def StreamingPlan.calls (plan : StreamingPlan) (nowMs unloadDelayMs : UInt64) : List CellCall :=
  plan.toLoad.map (fun cell => .requestLoad cell nowMs) ++
    plan.toSleep.map fun cell => .sleep cell nowMs unloadDelayMs

/-- What is done with the lifecycle while the sources stay. -/
inductive Driven (sources : List StreamingSource) : CellLifecycle → CellLifecycle → Prop where
  | carriedOut {lifecycle : CellLifecycle} {plan : StreamingPlan}
      (planned : planStreaming sources lifecycle = some plan) (nowMs unloadDelayMs : UInt64) :
      Driven sources lifecycle (lifecycle.performAll (plan.calls nowMs unloadDelayMs)).2
  | markedLoaded {lifecycle : CellLifecycle} (cell : CellKey) (nowMs : UInt64) :
      Driven sources lifecycle (lifecycle.markLoaded cell nowMs).2
  | activated {lifecycle : CellLifecycle} (cell : CellKey) (nowMs : UInt64) :
      Driven sources lifecycle (lifecycle.activate cell nowMs).2
  | unloaded {lifecycle : CellLifecycle} (cell : CellKey) (nowMs : UInt64) :
      Driven sources lifecycle (lifecycle.unloadIfDue cell nowMs).2

def CanReach (sources : List StreamingSource) (lifecycle : CellLifecycle) (cell : CellKey)
    (stages : List CellState) : Prop :=
  ∃ later, Relation.ReflTransGen (Driven sources) lifecycle later ∧ later.state cell ∈ stages

/-- There is a plan of the cells the sources cover, its calls succeed in any order, and every
cell comes to where the sources want it. -/
def Executable (sources : List StreamingSource) (lifecycle : CellLifecycle) : Prop :=
  ∃ plan, planStreaming sources lifecycle = some plan ∧
    plan.desired.Pairwise (fun left right => CellKey.cmp left right = .lt) ∧
    (∀ cell, cell ∈ plan.desired ↔ ∃ source ∈ sources, source.Covers cell) ∧
    (∀ nowMs unloadDelayMs calls, calls.Perm (plan.calls nowMs unloadDelayMs) →
      (lifecycle.performAll calls).1 = true) ∧
    ∀ cell, (cell ∉ plan.desired → CanReach sources lifecycle cell [.unloaded]) ∧
      (cell ∈ plan.desired → CanReach sources lifecycle cell [.loaded, .active])

section Desired

variable {sources : List StreamingSource} {source : StreamingSource} {cell : CellKey}

theorem StreamingSource.mem_square (counts : source.counts = true) (fits : source.fits = true) :
    cell ∈ source.square ↔ source.Covers cell := by
  have radius : source.radius = source.radiusCells.toInt + source.prefetchRadius.toInt := by
    simp only [StreamingSource.fits, Bool.and_eq_true, decide_eq_true_eq] at fits
    have small := fits.1.1.1.1
    unfold StreamingSource.radius at small ⊢
    omega
  obtain ⟨x, y, level, z⟩ := cell
  simp only [square, List.mem_flatMap, List.mem_map, mem_cellRange, Covers, counts, true_and,
    radius, CellKey.mk.injEq, abs_le]
  constructor
  · rintro ⟨row, row_in, column, column_in, rfl, rfl, rfl, rfl⟩
    refine ⟨rfl, rfl, ?_, ?_⟩ <;> omega
  · rintro ⟨rfl, rfl, across, along⟩
    exact ⟨y - source.center.y, by omega, x - source.center.x, by omega, by omega, by omega,
      rfl, rfl⟩

theorem mem_insertAll (cells : List CellKey) (set : CellSet) :
    cell ∈ cells.foldl (fun set cell => set.insert cell) set ↔ cell ∈ set ∨ cell ∈ cells := by
  induction cells generalizing set with
  | nil => simp
  | cons first rest ih =>
    rw [List.foldl_cons, ih, Std.ExtTreeSet.mem_insert, Std.LawfulEqCmp.compare_eq_iff_eq,
      List.mem_cons]
    tauto

theorem mem_desiredFold (sources : List StreamingSource) (set : CellSet) :
    cell ∈ sources.foldl (fun cells source =>
        source.square.foldl (fun cells cell => cells.insert cell) cells) set ↔
      cell ∈ set ∨ ∃ source ∈ sources, cell ∈ source.square := by
  induction sources generalizing set with
  | nil => simp
  | cons first rest ih =>
    rw [List.foldl_cons, ih, mem_insertAll]
    simp only [List.exists_mem_cons_iff, or_assoc]

theorem mem_desiredSet (fit : (sources.filter StreamingSource.counts).all StreamingSource.fits = true) :
    cell ∈ desiredSet sources ↔ ∃ source ∈ sources, source.Covers cell := by
  rw [desiredSet, mem_desiredFold]
  simp only [Std.ExtTreeSet.not_mem_empty, false_or]
  constructor
  · rintro ⟨source, member, inside⟩
    obtain ⟨listed, counts⟩ := List.mem_filter.mp member
    exact ⟨source, listed,
      (StreamingSource.mem_square counts (List.all_eq_true.mp fit source member)).mp inside⟩
  · rintro ⟨source, listed, covers⟩
    have member := List.mem_filter.mpr ⟨listed, covers.1⟩
    exact ⟨source, member,
      (StreamingSource.mem_square covers.1 (List.all_eq_true.mp fit source member)).mpr covers⟩

end Desired

section Plans

variable {sources : List StreamingSource} {lifecycle : CellLifecycle} {plan : StreamingPlan}
variable {cell : CellKey}

/-- What a plan names. -/
structure PlanSound (sources : List StreamingSource) (lifecycle : CellLifecycle)
    (plan : StreamingPlan) : Prop where
  sorted : plan.desired.Pairwise fun left right => CellKey.cmp left right = .lt
  mem_desired : ∀ cell, cell ∈ plan.desired ↔ ∃ source ∈ sources, source.Covers cell
  mem_toLoad : ∀ cell, cell ∈ plan.toLoad ↔
    cell ∈ plan.desired ∧ lifecycle.state cell = .unloaded
  mem_toSleep : ∀ cell, cell ∈ plan.toSleep ↔
    cell ∉ plan.desired ∧ (lifecycle.state cell = .loaded ∨ lifecycle.state cell = .active)
  toLoad_nodup : plan.toLoad.Nodup
  toSleep_nodup : plan.toSleep.Nodup

theorem state_unknown (unknown : cell ∉ lifecycle.knownCells) :
    lifecycle.state cell = .unloaded := by
  have absent : cell ∉ lifecycle.cells := fun member =>
    unknown (Std.ExtTreeMap.mem_keys.mpr member)
  simp [CellLifecycle.state, Std.ExtTreeMap.getElem?_eq_none absent]

theorem planStreaming_fits (planned : planStreaming sources lifecycle = some plan) :
    (sources.filter StreamingSource.counts).all StreamingSource.fits = true := by
  unfold planStreaming at planned
  exact (Option.ite_none_right_eq_some.mp planned).1

theorem exists_plan (fit : (sources.filter StreamingSource.counts).all StreamingSource.fits = true)
    (lifecycle : CellLifecycle) : ∃ plan, planStreaming sources lifecycle = some plan :=
  ⟨_, if_pos fit⟩

theorem planStreaming_sound (planned : planStreaming sources lifecycle = some plan) :
    PlanSound sources lifecycle plan := by
  have fit := planStreaming_fits planned
  unfold planStreaming at planned
  rw [if_pos fit] at planned
  obtain rfl := Option.some.inj planned
  have sorted : (desiredSet sources).toList.Pairwise fun left right =>
      CellKey.cmp left right = .lt := Std.ExtTreeSet.ordered_toList
  have desired_nodup : (desiredSet sources).toList.Nodup :=
    Std.ExtTreeSet.distinct_toList.imp Std.ReflCmp.ne_of_cmp_ne_eq
  have known_nodup : lifecycle.knownCells.Nodup := Std.ExtTreeMap.nodup_keys
  refine ⟨sorted, fun cell => ?_, fun cell => ?_, fun cell => ?_, desired_nodup.filter _,
    known_nodup.filter _⟩
  · rw [Std.ExtTreeSet.mem_toList, mem_desiredSet fit]
  · simp only [List.mem_filter, Bool.or_eq_true, Bool.not_eq_true', List.contains_eq_mem,
      decide_eq_false_iff_not, beq_iff_eq]
    refine and_congr_right fun _ => ⟨?_, .inr⟩
    rintro (unknown | unloaded)
    · exact state_unknown unknown
    · exact unloaded
  · simp only [List.mem_filter, Bool.and_eq_true, Bool.or_eq_true, Bool.not_eq_true', beq_iff_eq,
      Std.ExtTreeSet.mem_toList, Std.ExtTreeSet.mem_iff_contains, Bool.not_eq_true]
    refine ⟨fun named => named.2, fun named => ⟨?_, named⟩⟩
    by_contra unknown
    rcases named.2 with loaded | active
    · rw [state_unknown unknown] at loaded
      cases loaded
    · rw [state_unknown unknown] at active
      cases active

namespace PlanSound

variable {calls : List CellCall} {nowMs unloadDelayMs : UInt64}

theorem calls_nodup (sound : PlanSound sources lifecycle plan) (nowMs unloadDelayMs : UInt64) :
    ((plan.calls nowMs unloadDelayMs).map CellCall.cell).Nodup := by
  have cells : (plan.calls nowMs unloadDelayMs).map CellCall.cell = plan.toLoad ++ plan.toSleep := by
    simp [StreamingPlan.calls, Function.comp_def, CellCall.cell]
  rw [cells, List.nodup_append]
  refine ⟨sound.toLoad_nodup, sound.toSleep_nodup, ?_⟩
  rintro cell load _ asleep rfl
  exact ((sound.mem_toSleep cell).mp asleep).1 ((sound.mem_toLoad cell).mp load).1

/-- The loads always succeed, the sleeps of active cells alone. -/
theorem calls_succeed (sound : PlanSound sources lifecycle plan) (nowMs unloadDelayMs : UInt64) :
    (∀ call ∈ plan.calls nowMs unloadDelayMs, (lifecycle.perform call).1 = true) ↔
      ∀ cell, lifecycle.state cell = .loaded → cell ∈ plan.desired := by
  constructor
  · intro all cell loaded
    by_contra outside
    have named := (sound.mem_toSleep cell).mpr ⟨outside, .inl loaded⟩
    have slept := all (.sleep cell nowMs unloadDelayMs)
      (List.mem_append_right _ (List.mem_map_of_mem named))
    have active := CellLifecycle.sleep_succeeds.mp slept
    rw [loaded] at active
    cases active
  · intro covered call member
    rcases List.mem_append.mp member with load | asleep
    · obtain ⟨cell, named, rfl⟩ := List.mem_map.mp load
      exact CellLifecycle.requestLoad_succeeds.mpr ((sound.mem_toLoad cell).mp named).2
    · obtain ⟨cell, named, rfl⟩ := List.mem_map.mp asleep
      obtain ⟨outside, loaded | active⟩ := (sound.mem_toSleep cell).mp named
      · exact absurd (covered cell loaded) outside
      · exact CellLifecycle.sleep_succeeds.mpr active

theorem all_succeed (sound : PlanSound sources lifecycle plan)
    (order : calls.Perm (plan.calls nowMs unloadDelayMs)) :
    (lifecycle.performAll calls).1 = true ↔
      ∀ cell, lifecycle.state cell = .loaded → cell ∈ plan.desired := by
  have distinct := (order.map CellCall.cell).nodup_iff.mpr (sound.calls_nodup nowMs unloadDelayMs)
  rw [(CellLifecycle.performAll_distinct lifecycle distinct).1, ← sound.calls_succeed nowMs unloadDelayMs]
  exact forall_congr' fun call => by rw [order.mem_iff]

/-- A call of the plan has the effect it has alone. -/
theorem state_carriedOut (sound : PlanSound sources lifecycle plan) {call : CellCall}
    (named : call ∈ plan.calls nowMs unloadDelayMs) :
    (lifecycle.performAll (plan.calls nowMs unloadDelayMs)).2.state call.cell =
      (lifecycle.perform call).2.state call.cell := by
  have same := (CellLifecycle.performAll_distinct lifecycle
    (sound.calls_nodup nowMs unloadDelayMs)).2 call named
  rw [CellLifecycle.state, CellLifecycle.state, same]

end PlanSound

end Plans

section Reaching

variable {sources : List StreamingSource} {lifecycle middle : CellLifecycle} {cell : CellKey}
variable {stages : List CellState}

theorem CanReach.here (there : lifecycle.state cell ∈ stages) :
    CanReach sources lifecycle cell stages :=
  ⟨lifecycle, .refl, there⟩

theorem CanReach.first (step : Driven sources lifecycle middle)
    (rest : CanReach sources middle cell stages) : CanReach sources lifecycle cell stages := by
  obtain ⟨later, driven, there⟩ := rest
  exact ⟨later, .head step driven, there⟩

variable (fit : (sources.filter StreamingSource.counts).all StreamingSource.fits = true)
include fit

theorem reach_sleeping (outside : ¬ ∃ source ∈ sources, source.Covers cell)
    (active : lifecycle.state cell = .active) :
    ∃ middle, Driven sources lifecycle middle ∧ middle.state cell = .sleeping := by
  obtain ⟨plan, planned⟩ := exists_plan fit lifecycle
  have sound := planStreaming_sound planned
  have undesired := mt (sound.mem_desired cell).mp outside
  have named := (sound.mem_toSleep cell).mpr ⟨undesired, .inr active⟩
  have call : CellCall.sleep cell 0 0 ∈ plan.calls 0 0 :=
    List.mem_append_right _ (List.mem_map_of_mem named)
  exact ⟨_, .carriedOut planned 0 0,
    (sound.state_carriedOut call).trans (CellLifecycle.state_sleep active 0 0)⟩

/-- Cells that no source covers go through all the stages to the end. -/
theorem reach_unloaded (outside : ¬ ∃ source ∈ sources, source.Covers cell) :
    CanReach sources lifecycle cell [.unloaded] := by
  have from_sleeping : ∀ {state : CellLifecycle}, state.state cell = .sleeping →
      CanReach sources state cell [.unloaded] := by
    intro state sleeping
    obtain ⟨nowMs, unloaded⟩ := CellLifecycle.state_unloadIfDue sleeping
    exact .first (.unloaded cell nowMs) (.here (by simp [unloaded]))
  have from_active : ∀ {state : CellLifecycle}, state.state cell = .active →
      CanReach sources state cell [.unloaded] := by
    intro state active
    obtain ⟨middle, step, sleeping⟩ := reach_sleeping fit outside active
    exact .first step (from_sleeping sleeping)
  have from_loaded : ∀ {state : CellLifecycle}, state.state cell = .loaded →
      CanReach sources state cell [.unloaded] := fun loaded =>
    .first (.activated cell 0) (from_active (CellLifecycle.state_activate (.inl loaded) 0))
  cases stage : lifecycle.state cell with
  | unloaded => exact .here (by simp [stage])
  | loading => exact .first (.markedLoaded cell 0) (from_loaded (CellLifecycle.state_markLoaded stage 0))
  | loaded => exact from_loaded stage
  | active => exact from_active stage
  | sleeping => exact from_sleeping stage

theorem reach_loaded (covered : ∃ source ∈ sources, source.Covers cell) :
    CanReach sources lifecycle cell [.loaded, .active] := by
  have from_loading : ∀ {state : CellLifecycle}, state.state cell = .loading →
      CanReach sources state cell [.loaded, .active] := fun loading =>
    .first (.markedLoaded cell 0) (.here (by simp [CellLifecycle.state_markLoaded loading 0]))
  cases stage : lifecycle.state cell with
  | unloaded =>
    obtain ⟨plan, planned⟩ := exists_plan fit lifecycle
    have sound := planStreaming_sound planned
    have named := (sound.mem_toLoad cell).mpr ⟨(sound.mem_desired cell).mpr covered, stage⟩
    have call : CellCall.requestLoad cell 0 ∈ plan.calls 0 0 :=
      List.mem_append_left _ (List.mem_map_of_mem named)
    exact .first (.carriedOut planned 0 0) (from_loading
      ((sound.state_carriedOut call).trans (CellLifecycle.state_requestLoad stage 0)))
  | loading => exact from_loading stage
  | loaded => exact .here (by simp [stage])
  | active => exact .here (by simp [stage])
  | sleeping =>
    exact .first (.activated cell 0)
      (.here (by simp [CellLifecycle.state_activate (.inr stage) 0]))

end Reaching

/-- A plan is executable if and only if its squares stay within the integers and every loaded
cell is covered by a source. -/
theorem streaming_executable_iff (sources : List StreamingSource) (lifecycle : CellLifecycle) :
    Executable sources lifecycle ↔
      (sources.filter StreamingSource.counts).all StreamingSource.fits = true ∧
        ∀ cell, lifecycle.state cell = .loaded → ∃ source ∈ sources, source.Covers cell := by
  constructor
  · rintro ⟨plan, planned, -, mem_desired, all, -⟩
    refine ⟨planStreaming_fits planned, fun cell loaded => (mem_desired cell).mp ?_⟩
    exact ((planStreaming_sound planned).all_succeed (.refl _)).mp (all 0 0 _ (.refl _)) cell loaded
  · rintro ⟨fit, covered⟩
    obtain ⟨plan, planned⟩ := exists_plan fit lifecycle
    have sound := planStreaming_sound planned
    refine ⟨plan, planned, sound.sorted, sound.mem_desired, fun nowMs delay calls order => ?_,
      fun cell => ⟨fun outside => ?_, fun inside => ?_⟩⟩
    · exact (sound.all_succeed order).mpr fun cell loaded =>
        (sound.mem_desired cell).mpr (covered cell loaded)
    · exact reach_unloaded fit (mt (sound.mem_desired cell).mpr outside)
    · exact reach_loaded fit ((sound.mem_desired cell).mp inside)

/-- A cell that was loaded and not activated, with no source left. -/
theorem loaded_cell_not_slept :
    ¬ ∀ (calls : List CellCall) (sources : List StreamingSource),
      Executable sources (CellLifecycle.performAll {} calls).2 := by
  intro claim
  obtain ⟨plan, planned, -, mem_desired, all, -⟩ :=
    claim [.requestLoad ⟨1, 0, 0, 2⟩ 0, .markLoaded ⟨1, 0, 0, 2⟩ 1] []
  have covered := ((planStreaming_sound planned).all_succeed (.refl _)).mp (all 0 0 _ (.refl _))
  obtain ⟨source, listed, -⟩ := (mem_desired _).mp (covered ⟨1, 0, 0, 2⟩ (by decide +kernel))
  cases listed

end GeoWorld.Spatial
