import Mathlib

/-!
Finite runs of a labelled transition system in which every step meets a guard.
The guard may look at the state before the step and at the label, never at the
state after it. Unrestricted runs are the runs of the trivial guard.
-/

namespace GeoWorld.Library

variable {σ ε : Type*}

inductive GuardedRun (step : σ → ε → σ → Prop) (guard : σ → ε → Prop) :
    σ → List ε → σ → Prop where
  | nil (state : σ) : GuardedRun step guard state [] state
  | cons {start middle finish : σ} {label : ε} {labels : List ε} (allowed : guard start label)
      (first : step start label middle) (rest : GuardedRun step guard middle labels finish) :
      GuardedRun step guard start (label :: labels) finish

abbrev AnyRun (step : σ → ε → σ → Prop) : σ → List ε → σ → Prop :=
  GuardedRun step fun _ _ => True

namespace GuardedRun

variable {step : σ → ε → σ → Prop} {guard : σ → ε → Prop}

/-- The induction rule of runs: what every guarded step keeps holds at the end. -/
theorem invariant {inv : σ → Prop} {start finish : σ} {labels : List ε}
    (run : GuardedRun step guard start labels finish) (initially : inv start)
    (keeps : ∀ before label after, guard before label → step before label after →
      inv before → inv after) : inv finish := by
  induction run with
  | nil state => exact initially
  | cons allowed first _ ih => exact ih (keeps _ _ _ allowed first initially)

theorem weaken {weaker : σ → ε → Prop} {start finish : σ} {labels : List ε}
    (run : GuardedRun step guard start labels finish)
    (implies : ∀ state label, guard state label → weaker state label) :
    GuardedRun step weaker start labels finish := by
  induction run with
  | nil state => exact .nil state
  | cons allowed first _ ih => exact .cons (implies _ _ allowed) first ih

/-- The runs of a system are runs of one that can do more. -/
theorem extend {larger : σ → ε → σ → Prop} {start finish : σ} {labels : List ε}
    (run : GuardedRun step guard start labels finish)
    (includes : ∀ before label after, step before label after → larger before label after) :
    GuardedRun larger guard start labels finish := by
  induction run with
  | nil state => exact .nil state
  | cons allowed first _ ih => exact .cons allowed (includes _ _ _ first) ih

theorem append {start middle finish : σ} {first second : List ε}
    (left : GuardedRun step guard start first middle)
    (right : GuardedRun step guard middle second finish) :
    GuardedRun step guard start (first ++ second) finish := by
  induction left with
  | nil state => exact right
  | cons allowed head _ ih => exact .cons allowed head (ih right)

end GuardedRun

/-- The state after a list of labels, when every step is defined. -/
def runLabels (step : σ → ε → Option σ) : σ → List ε → Option σ
  | state, [] => some state
  | state, label :: labels => (step state label).bind fun next => runLabels step next labels

/-- A computed run is a run, guarded by any property its labels have. -/
theorem GuardedRun.of_runLabels {step : σ → ε → Option σ} {allowed : ε → Prop}
    {start finish : σ} {labels : List ε} (computed : runLabels step start labels = some finish)
    (labels_allowed : ∀ label ∈ labels, allowed label) :
    GuardedRun (fun before label after => step before label = some after)
      (fun _ label => allowed label) start labels finish := by
  induction labels generalizing start with
  | nil =>
    obtain rfl := Option.some.inj computed
    exact .nil start
  | cons label rest ih =>
    obtain ⟨next, first, remaining⟩ := Option.bind_eq_some_iff.mp computed
    exact .cons (labels_allowed label (by simp)) first
      (ih remaining fun other member => labels_allowed other (by simp [member]))

/-- A computed run in which a check of every step passed is a run guarded by what the
check implies. -/
theorem GuardedRun.of_checked {step : σ → ε → Option σ} {guard : σ → ε → Prop}
    {check : σ → ε → Bool} (sound : ∀ state label, check state label = true → guard state label)
    {start finish : σ} {labels : List ε}
    (computed : runLabels (fun state label => if check state label then step state label else none)
      start labels = some finish) :
    GuardedRun (fun before label after => step before label = some after) guard
      start labels finish := by
  induction labels generalizing start with
  | nil =>
    obtain rfl := Option.some.inj computed
    exact .nil start
  | cons label rest ih =>
    obtain ⟨next, first, remaining⟩ := Option.bind_eq_some_iff.mp computed
    by_cases passed : check start label = true
    · exact .cons (sound start label passed) (by simpa [passed] using first) (ih remaining)
    · simp [passed] at first

/-- A run of a functional step is computed by its labels. -/
theorem GuardedRun.computed {step : σ → ε → Option σ} {guard : σ → ε → Prop}
    {start finish : σ} {labels : List ε}
    (run : GuardedRun (fun before label after => step before label = some after) guard
      start labels finish) : runLabels step start labels = some finish := by
  induction run with
  | nil state => rfl
  | cons _ first _ ih => exact Option.bind_eq_some_iff.mpr ⟨_, first, ih⟩

end GeoWorld.Library
