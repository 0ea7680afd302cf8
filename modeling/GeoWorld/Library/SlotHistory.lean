import Mathlib

/-!
Slots that are used again and again, each use under a number of its own: what a later list of
slots keeps of an earlier one, and that a slot and a number together never name a second use.
-/

namespace GeoWorld.Library.SlotHistory

variable {σ : Type*} {number : σ → Nat} {used : σ → Prop}

/-- A slot afterwards: the number only grows, and a use stays as it is while it is the same. -/
structure Since (number : σ → Nat) (used : σ → Prop) (before now : σ) : Prop where
  le : number before ≤ number now
  same : number now = number before → used before → now = before

theorem Since.refl (slot : σ) : Since number used slot slot := ⟨le_rfl, fun _ _ => rfl⟩

theorem Since.trans {first second third : σ} (left : Since number used first second)
    (right : Since number used second third) : Since number used first third where
  le := left.le.trans right.le
  same equal held := by
    have middle : number second = number first :=
      le_antisymm (right.le.trans equal.le) left.le
    have kept := left.same middle held
    rw [right.same (equal.trans middle.symm) (kept ▸ held), kept]

/-- Every slot is there afterwards. -/
def Later (number : σ → Nat) (used : σ → Prop) (before now : List σ) : Prop :=
  ∀ (index : Nat) (slot : σ), before[index]? = some slot →
    ∃ current, now[index]? = some current ∧ Since number used slot current

variable {before middle now slots : List σ} {index uses : Nat} {slot fresh : σ}

theorem Later.refl (slots : List σ) : Later number used slots slots :=
  fun _ slot here => ⟨slot, here, .refl slot⟩

theorem Later.trans (left : Later number used before middle) (right : Later number used middle now) :
    Later number used before now := by
  intro index slot here
  obtain ⟨between, there, since⟩ := left index slot here
  obtain ⟨current, last, after⟩ := right index between there
  exact ⟨current, last, since.trans after⟩

theorem Later.append (slots more : List σ) : Later number used slots (slots ++ more) := by
  intro index slot here
  have inside := (List.getElem?_eq_some_iff.mp here).1
  exact ⟨slot, (List.getElem?_append_left inside).trans here, .refl slot⟩

theorem Later.set (here : slots[index]? = some slot) (since : Since number used slot fresh) :
    Later number used slots (slots.set index fresh) := by
  intro other old there
  have inside := (List.getElem?_eq_some_iff.mp here).1
  by_cases same : index = other
  · subst same
    obtain rfl := Option.some.inj (here.symm.trans there)
    exact ⟨fresh, List.getElem?_set_self inside, since⟩
  · exact ⟨old, (List.getElem?_set_ne same).trans there, .refl old⟩

/-- The index and the number name a use. -/
def Names (number : σ → Nat) (used : σ → Prop) (slots : List σ) (index uses : Nat) : Prop :=
  ∃ slot, slots[index]? = some slot ∧ used slot ∧ number slot = uses

/-- What is named twice is the same use. -/
theorem Names.same (old : Names number used before index uses)
    (later : Later number used before now) (new : Names number used now index uses) :
    now[index]? = before[index]? := by
  obtain ⟨slot, here, held, rfl⟩ := old
  obtain ⟨current, there, since⟩ := later index slot here
  obtain ⟨named, place, -, equal⟩ := new
  obtain rfl := Option.some.inj (there.symm.trans place)
  rw [there, here, since.same equal held]

/-- A use that is over is never named again. -/
theorem Names.gone (old : Names number used before index uses)
    (later : Later number used before middle) (over_now : ¬ Names number used middle index uses)
    (after : Later number used middle now) : ¬ Names number used now index uses := by
  rintro ⟨named, place, -, equal⟩
  obtain ⟨slot, here, held, rfl⟩ := old
  obtain ⟨between, there, since⟩ := later index slot here
  obtain ⟨current, last, rest⟩ := after index between there
  obtain rfl := Option.some.inj (last.symm.trans place)
  have level : number between = number slot := le_antisymm (rest.le.trans equal.le) since.le
  have kept := since.same level held
  exact over_now ⟨between, there, kept ▸ held, level⟩

end GeoWorld.Library.SlotHistory
