import Mathlib

/-!
Generators that mix a counter. A word xored with its own shift and a product with an odd number
can both be undone, so mixed counters repeat just when the counter does, after all its words.
-/

namespace GeoWorld.Library.MixedCounter

variable {w : Nat}

def xorShift (shift : Nat) (word : BitVec w) : BitVec w := word ^^^ (word >>> shift)

/-- From the highest bit down, each bit is known from the one `shift` places above it. -/
theorem xorShift_injective {shift : Nat} (positive : 0 < shift) :
    Function.Injective (xorShift shift : BitVec w → BitVec w) := by
  intro first second same
  have bits : ∀ gap index, w ≤ index + gap → first.getLsbD index = second.getLsbD index := by
    intro gap
    induction gap with
    | zero =>
      intro index outside
      rw [BitVec.getLsbD_of_ge first index outside, BitVec.getLsbD_of_ge second index outside]
    | succ gap ih =>
      intro index bound
      have above := ih (shift + index) (by omega)
      have mixed := congrArg (fun word => word.getLsbD index) same
      simp only [xorShift, BitVec.getLsbD_xor, BitVec.getLsbD_ushiftRight, above] at mixed
      exact Bool.xor_left_inj.mp mixed
  exact BitVec.eq_of_getLsbD_eq fun index _ => bits w index (by omega)

/-- A factor with an inverse can be divided out. -/
theorem mul_injective {factor : BitVec w} (inverse : BitVec w) (undo : factor * inverse = 1) :
    Function.Injective fun word : BitVec w => word * factor := by
  intro first second same
  have divided := congrArg (· * inverse) same
  simpa only [mul_assoc, undo, mul_one] using divided

/-- The counter after a number of steps. -/
def walk (step start : BitVec w) (count : Nat) : BitVec w := start + BitVec.ofNat w count * step

section Walk

variable {step inverse start : BitVec w} {first second : Nat}

theorem walk_succ (step start : BitVec w) (count : Nat) :
    walk step start (count + 1) = walk step (start + step) count := by
  have one : BitVec.ofNat w 1 = 1 := rfl
  rw [walk, walk, BitVec.ofNat_add, one, add_mul, one_mul, add_assoc, add_comm step]

/-- A whole round brings the counter back. -/
theorem walk_round (step start : BitVec w) : walk step start (2 ^ w) = start := by
  have zero : BitVec.ofNat w (2 ^ w) = 0 := BitVec.eq_of_toNat_eq (by
    rw [BitVec.toNat_ofNat, Nat.mod_self]
    rfl)
  rw [walk, zero, zero_mul, add_zero]

theorem walk_injective (undo : step * inverse = 1) (first_lt : first < 2 ^ w)
    (second_lt : second < 2 ^ w) (same : walk step start first = walk step start second) :
    first = second := by
  have products := add_left_cancel same
  have numbers := congrArg BitVec.toNat (mul_injective inverse undo products)
  rwa [BitVec.toNat_ofNat, BitVec.toNat_ofNat, Nat.mod_eq_of_lt first_lt,
    Nat.mod_eq_of_lt second_lt] at numbers

/-- Within a round a mixed counter takes every word. -/
theorem walk_surjective {mix : BitVec w → BitVec w} (undo : step * inverse = 1)
    (injective : Function.Injective mix) (start word : BitVec w) :
    ∃ count < 2 ^ w, mix (walk step start count) = word := by
  let value (index : Fin (2 ^ w)) : BitVec w := mix (walk step start index)
  have distinct : Function.Injective value := fun left right same =>
    Fin.ext (walk_injective undo left.isLt right.isLt (injective same))
  have counted : Function.Injective fun index : Fin (2 ^ w) => (value index).toFin := fun left right same =>
    distinct (BitVec.toFin_inj.mp same)
  obtain ⟨index, reached⟩ := Finite.injective_iff_surjective.mp counted word.toFin
  exact ⟨index, index.isLt, BitVec.toFin_inj.mp reached⟩

end Walk

end GeoWorld.Library.MixedCounter
