import Mathlib

/-!
A timer that fires at least once in a period. A firing can be forced ahead of its due time; the
next one is then due within a period, and exactly one period later otherwise.
-/

namespace GeoWorld.Library

variable {α : Type*}

/-- Firings are at most a period apart, and exactly a period when neither was forced. -/
structure FiredOnTime (period : Nat) (time : α → Nat) (forced : α → Bool) (fired : List α) :
    Prop where
  spaced : fired.IsChain fun first second => time second ≤ time first + period
  periodic : fired.IsChain fun first second => forced first = false → forced second = false →
    time second = time first + period

/-- After the last firing and up to `now` the timer has been due at `due`. -/
def TimerArmed (period : Nat) (time : α → Nat) (forced : α → Bool) (fired : List α)
    (now : Option Nat) (due : Nat) : Prop :=
  ∀ last ∈ fired.getLast?, ∃ current, now = some current ∧ current < due ∧
    due ≤ time last + period ∧ (forced last = false → due = time last + period)

namespace TimerArmed

variable {period : Nat} {time : α → Nat} {forced : α → Bool} {fired : List α}
  {now : Option Nat} {due : Nat}

theorem waited (armed : TimerArmed period time forced fired now due) {last : α}
    (isLast : last ∈ fired.getLast?) {current : Nat} (isNow : current ∈ now) :
    current < time last + period := by
  obtain ⟨before, at_before, early, within, -⟩ := armed last isLast
  obtain rfl := Option.some.inj (isNow.symm.trans at_before)
  exact early.trans_le within

/-- Nothing fires before the timer is due. -/
theorem wait (armed : TimerArmed period time forced fired now due) {current : Nat}
    (early : fired ≠ [] → current < due) :
    TimerArmed period time forced fired (some current) due := by
  intro last isLast
  obtain ⟨before, -, -, within, exact_due⟩ := armed last isLast
  have nonempty : fired ≠ [] := by
    rintro rfl
    cases isLast
  exact ⟨current, rfl, early nonempty, within, exact_due⟩

/-- A firing right after `now` is on time, unless it is neither forced nor due. -/
theorem fires (armed : TimerArmed period time forced fired now due)
    (onTime : FiredOnTime period time forced fired) {firing : α}
    (follows : ∀ current ∈ now, time firing = current + 1)
    (reached : forced firing = false → fired ≠ [] → due ≤ time firing) :
    FiredOnTime period time forced (fired ++ [firing]) := by
  refine ⟨List.isChain_append.mpr ⟨onTime.spaced, .singleton _, ?_⟩,
    List.isChain_append.mpr ⟨onTime.periodic, .singleton _, ?_⟩⟩
  all_goals
    intro last isLast head isHead
    obtain rfl := Option.some.inj isHead
    obtain ⟨current, at_current, early, within, exact_due⟩ := armed last isLast
    have next := follows current at_current
  · omega
  · intro unforced unforced'
    have nonempty : fired ≠ [] := by
      rintro rfl
      cases isLast
    have late := reached unforced' nonempty
    have scheduled := exact_due unforced
    omega

theorem rearm {firing : α} (later : time firing < due) (within : due ≤ time firing + period)
    (exact_due : forced firing = false → due = time firing + period) :
    TimerArmed period time forced (fired ++ [firing]) (some (time firing)) due := by
  intro last isLast
  rw [List.getLast?_concat] at isLast
  obtain rfl := Option.some.inj isLast
  exact ⟨_, rfl, later, within, exact_due⟩

end TimerArmed

end GeoWorld.Library
