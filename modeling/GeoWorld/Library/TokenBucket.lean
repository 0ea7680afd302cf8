import Mathlib

/-!
A token bucket of a given rate: it holds at most `rate` tokens, gains `rate` of them in a
unit of time, and a call takes one of them or is refused. The tokens left over, added to
the calls granted since a point of time, never exceed what the bucket can have gained.
-/

namespace GeoWorld.Library

structure TokenBucket (K : Type*) where
  tokens : K
  lastRefill : K

namespace TokenBucket

section Counting

variable {K : Type*} [LinearOrder K]

/-- The calls granted from `first` to `last`. -/
def grantedWithin (first last : K) (answers : List (K × Bool)) : Nat :=
  answers.countP fun entry => entry.2 && decide (first ≤ entry.1) && decide (entry.1 ≤ last)

theorem grantedWithin_cons (first last : K) (entry : K × Bool) (answers : List (K × Bool)) :
    grantedWithin first last (entry :: answers) =
      grantedWithin first last [entry] + grantedWithin first last answers := by
  simp only [grantedWithin, List.countP_cons, List.countP_nil]
  omega

end Counting

variable {K : Type*} [Field K] [LinearOrder K]

def refilled (rate : K) (bucket : TokenBucket K) (now : K) : K :=
  min rate (bucket.tokens + (now - bucket.lastRefill) * rate)

/-- A refusal moves the time of the last refill as well. -/
def consume (rate : K) (bucket : TokenBucket K) (now : K) : Bool × TokenBucket K :=
  if bucket.refilled rate now < 1 then
    (false, ⟨bucket.refilled rate now, now⟩)
  else
    (true, ⟨bucket.refilled rate now - 1, now⟩)

/-- The calls at the times listed, each with its answer, and the bucket behind them. -/
def serve (rate : K) : TokenBucket K → List K → List (K × Bool) × TokenBucket K
  | bucket, [] => ([], bucket)
  | bucket, now :: times =>
    let answers := serve rate (bucket.consume rate now).2 times
    ((now, (bucket.consume rate now).1) :: answers.1, answers.2)

/-- The tokens are between none and a full bucket. -/
structure Sound (rate : K) (bucket : TokenBucket K) : Prop where
  nonneg : 0 ≤ bucket.tokens
  le_rate : bucket.tokens ≤ rate

variable {rate now first length : K} {bucket : TokenBucket K} {times : List K}

@[simp] theorem consume_lastRefill (rate : K) (bucket : TokenBucket K) (now : K) :
    (bucket.consume rate now).2.lastRefill = now := by
  unfold consume
  split <;> rfl

theorem refilled_le : bucket.refilled rate now ≤ rate :=
  min_le_left _ _

theorem refilled_gain (bucket : TokenBucket K) :
    bucket.refilled rate now ≤ bucket.tokens + (now - bucket.lastRefill) * rate :=
  min_le_right _ _

/-- What a call leaves, with the token it took. -/
theorem consume_tokens (rate : K) (bucket : TokenBucket K) (now : K) :
    (bucket.consume rate now).2.tokens + (if (bucket.consume rate now).1 then 1 else 0) =
      bucket.refilled rate now := by
  unfold consume
  split <;> simp

/-- A full bucket, or one that was left alone long enough, grants the call. -/
theorem consume_granted (enough : 1 ≤ bucket.refilled rate now) :
    (bucket.consume rate now).1 = true := by
  unfold consume
  rw [if_neg (not_lt.mpr enough)]

/-- The times of the calls do not go back. -/
def Forward (bucket : TokenBucket K) (times : List K) : Prop :=
  (bucket.lastRefill :: times).IsChain (· ≤ ·)

theorem Forward.next (forward : Forward bucket (now :: times)) :
    bucket.lastRefill ≤ now ∧ Forward (bucket.consume rate now).2 times := by
  rw [Forward, List.isChain_cons_cons] at forward
  exact ⟨forward.1, by rw [Forward, consume_lastRefill]; exact forward.2⟩

variable [IsStrictOrderedRing K]

theorem Sound.refilled_nonneg (sound : Sound rate bucket) (later : bucket.lastRefill ≤ now) :
    0 ≤ bucket.refilled rate now := by
  have rate_nonneg : 0 ≤ rate := sound.nonneg.trans sound.le_rate
  have gain : 0 ≤ (now - bucket.lastRefill) * rate :=
    mul_nonneg (sub_nonneg.mpr later) rate_nonneg
  exact le_min rate_nonneg (add_nonneg sound.nonneg gain)

theorem Sound.consume (sound : Sound rate bucket) (later : bucket.lastRefill ≤ now) :
    Sound rate (bucket.consume rate now).2 := by
  have low := sound.refilled_nonneg later
  have high : bucket.refilled rate now ≤ rate := refilled_le
  unfold TokenBucket.consume
  split
  · exact ⟨low, high⟩
  · rename_i enough
    refine ⟨sub_nonneg.mpr (not_lt.mp enough), ?_⟩
    simp only
    linarith

section Window

/-- While the window is open, the calls granted in it and the tokens left together are what a
full bucket can have gained since its beginning. -/
structure WindowInv (rate first length : K) (bucket : TokenBucket K) (granted : Nat) : Prop where
  bounded : (granted : K) ≤ rate + rate * length
  open_bounded : first ≤ bucket.lastRefill → bucket.lastRefill ≤ first + length →
    granted + bucket.tokens ≤ rate + rate * (bucket.lastRefill - first)
  before : bucket.lastRefill < first → granted = 0

theorem WindowInv.initial (sound : Sound rate bucket) (nonneg : 0 ≤ length) :
    WindowInv rate first length bucket 0 where
  bounded := by
    have rate_nonneg : 0 ≤ rate := sound.nonneg.trans sound.le_rate
    have gain := mul_nonneg rate_nonneg nonneg
    push_cast
    linarith
  open_bounded := by
    intro begun _
    have rate_nonneg : 0 ≤ rate := sound.nonneg.trans sound.le_rate
    have gain := mul_nonneg rate_nonneg (sub_nonneg.mpr begun)
    have high := sound.le_rate
    push_cast
    linarith
  before := fun _ => rfl

/-- One more call, counted if it was granted in the window. -/
theorem WindowInv.consume {granted : Nat} (inv : WindowInv rate first length bucket granted)
    (sound : Sound rate bucket) (later : bucket.lastRefill ≤ now) :
    WindowInv rate first length (bucket.consume rate now).2
      (granted + grantedWithin first (first + length) [(now, (bucket.consume rate now).1)]) := by
  have rate_nonneg : 0 ≤ rate := sound.nonneg.trans sound.le_rate
  have after := sound.consume later
  have spent := consume_tokens rate bucket now
  have gain : bucket.refilled rate now ≤ bucket.tokens + (now - bucket.lastRefill) * rate :=
    refilled_gain bucket
  have full : bucket.refilled rate now ≤ rate := refilled_le
  by_cases inside : first ≤ now ∧ now ≤ first + length
  · have counted : (grantedWithin first (first + length) [(now, (bucket.consume rate now).1)] : K) =
        if (bucket.consume rate now).1 then 1 else 0 := by
      simp [grantedWithin, inside.1, inside.2]
    have within : (granted : K) + bucket.refilled rate now ≤ rate + rate * (now - first) := by
      by_cases begun : first ≤ bucket.lastRefill
      · have held := inv.open_bounded begun (later.trans inside.2)
        linarith
      · have none := inv.before (not_le.mp begun)
        have waited := mul_nonneg rate_nonneg (sub_nonneg.mpr inside.1)
        rw [none, Nat.cast_zero]
        linarith
    have total : ((granted + grantedWithin first (first + length)
        [(now, (bucket.consume rate now).1)] : Nat) : K) + (bucket.consume rate now).2.tokens ≤
          rate + rate * (now - first) := by
      push_cast
      rw [counted]
      linarith
    refine ⟨?_, ?_, ?_⟩
    · have still := mul_le_mul_of_nonneg_left (sub_le_iff_le_add'.mpr inside.2) rate_nonneg
      have left := after.nonneg
      linarith
    · intro _ _
      rw [consume_lastRefill]
      exact total
    · intro early
      rw [consume_lastRefill] at early
      exact absurd inside.1 (not_le.mpr early)
  · have uncounted : grantedWithin first (first + length)
        [(now, (bucket.consume rate now).1)] = 0 := by
      simp only [grantedWithin, List.countP_cons, List.countP_nil]
      rw [if_neg]
      simp only [Bool.and_eq_true, decide_eq_true_eq, not_and]
      exact fun both ended => inside ⟨both.2, ended⟩
    rw [uncounted, Nat.add_zero]
    refine ⟨inv.bounded, ?_, ?_⟩
    · intro begun ended
      rw [consume_lastRefill] at begun ended
      exact absurd ⟨begun, ended⟩ inside
    · intro early
      rw [consume_lastRefill] at early
      exact inv.before (later.trans_lt early)

end Window

section Serve

theorem Sound.serve (sound : Sound rate bucket) (forward : Forward bucket times) :
    Sound rate (serve rate bucket times).2 := by
  induction times generalizing bucket with
  | nil => exact sound
  | cons now times ih =>
    obtain ⟨later, rest⟩ := forward.next
    exact ih (sound.consume later) rest

theorem WindowInv.serve {granted : Nat} (inv : WindowInv rate first length bucket granted)
    (sound : Sound rate bucket) (forward : Forward bucket times) :
    WindowInv rate first length (serve rate bucket times).2
      (granted + grantedWithin first (first + length) (serve rate bucket times).1) := by
  induction times generalizing bucket granted with
  | nil => exact inv
  | cons now times ih =>
    obtain ⟨later, rest⟩ := forward.next
    have behind := ih (inv.consume sound later) (sound.consume later) rest
    rw [Nat.add_assoc, ← grantedWithin_cons] at behind
    exact behind

/-- In a window of any length no more calls are granted than a full bucket gains in it. -/
theorem grantedWithin_le (sound : Sound rate bucket) (forward : Forward bucket times)
    (nonneg : 0 ≤ length) :
    (grantedWithin first (first + length) (serve rate bucket times).1 : K) ≤
      rate + rate * length := by
  have begin_inv : WindowInv rate first length bucket 0 := .initial sound nonneg
  have bounded := (begin_inv.serve sound forward).bounded
  rwa [Nat.zero_add] at bounded

/-- Calls that leave the bucket the time to gain a token are all granted. -/
theorem serve_granted (sound : Sound rate bucket) (one_le : 1 ≤ rate)
    (ready : ∀ now ∈ times.head?, 1 ≤ bucket.refilled rate now)
    (forward : Forward bucket times)
    (apart : times.IsChain fun before after => before + 1 / rate ≤ after) :
    ∀ entry ∈ (serve rate bucket times).1, entry.2 = true := by
  induction times generalizing bucket with
  | nil => simp [TokenBucket.serve]
  | cons now times ih =>
    obtain ⟨later, rest⟩ := forward.next
    have granted := consume_granted (ready now rfl)
    have after := sound.consume later
    intro entry member
    simp only [TokenBucket.serve, List.mem_cons] at member
    rcases member with rfl | member
    · exact granted
    · refine ih after ?_ rest apart.tail entry member
      intro next next_in
      have rate_pos : 0 < rate := zero_lt_one.trans_le one_le
      have gap : now + 1 / rate ≤ next := by
        cases times with
        | nil => cases next_in
        | cons head tail =>
          obtain rfl := Option.some.inj next_in
          exact (List.isChain_cons_cons.mp apart).1
      have gain : 1 ≤ (next - now) * rate := by
        have wait : 1 / rate ≤ next - now := by linarith
        exact (div_le_iff₀ rate_pos).mp wait
      refine le_min one_le ?_
      have left := after.nonneg
      rw [consume_lastRefill]
      linarith

end Serve

end TokenBucket

end GeoWorld.Library
