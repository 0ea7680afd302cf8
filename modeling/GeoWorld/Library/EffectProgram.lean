import Mathlib

/-!
Programs that call operations of an environment, and what they ensure when they may be
stopped at any point. The environment answers an operation in any way it allows; a
program is stopped by never being answered again. `Ensures always post` says that
every state a run passes through satisfies `always`, so also the last one before a
stop, and that a run which returns ends in a state satisfying `post`.
-/

namespace GeoWorld.Library

inductive Program (ι : Type) (ans : ι → Type) (α : Type) where
  | pure (value : α)
  | call (operation : ι) (next : ans operation → Program ι ans α)

namespace Program

variable {ι : Type} {ans : ι → Type} {α β γ σ : Type}

protected def bind : Program ι ans α → (α → Program ι ans β) → Program ι ans β
  | .pure value, rest => rest value
  | .call operation next, rest => .call operation fun answer => (next answer).bind rest

instance : Monad (Program ι ans) where
  pure := .pure
  bind := Program.bind

/-- The program that calls one operation and returns its answer. -/
def perform (operation : ι) : Program ι ans (ans operation) :=
  .call operation .pure

@[simp] theorem pure_bind (value : α) (rest : α → Program ι ans β) :
    (Pure.pure value : Program ι ans α) >>= rest = rest value :=
  rfl

@[simp] theorem perform_bind (operation : ι) (rest : ans operation → Program ι ans β) :
    (perform operation : Program ι ans (ans operation)) >>= rest = .call operation rest :=
  rfl

@[simp] theorem call_bind (operation : ι) (next : ans operation → Program ι ans α)
    (rest : α → Program ι ans β) :
    (Program.call operation next) >>= rest = .call operation fun answer => next answer >>= rest :=
  rfl

/-- The environment: from a state, an operation may be answered so and leave that state. -/
abbrev Environment (ι : Type) (ans : ι → Type) (σ : Type) :=
  σ → (operation : ι) → ans operation → σ → Prop

variable (allowed : Environment ι ans σ)

inductive Reaches : Program ι ans α → σ → Program ι ans α → σ → Prop where
  | stop (program : Program ι ans α) (state : σ) : Reaches program state program state
  | call {operation : ι} {next : ans operation → Program ι ans α} {answer : ans operation}
      {before after final : σ} {rest : Program ι ans α}
      (answered : allowed before operation answer after)
      (later : Reaches (next answer) after rest final) :
      Reaches (.call operation next) before rest final

def Ensures (always : σ → Prop) (post : α → σ → Prop) : Program ι ans α → σ → Prop
  | .pure value, state => always state ∧ post value state
  | .call operation next, state => always state ∧ ∀ answer after,
      allowed state operation answer after → Ensures always post (next answer) after

variable {allowed} {always : σ → Prop} {post : α → σ → Prop}

@[simp] theorem ensures_pure (value : α) (state : σ) :
    Ensures allowed always post (Pure.pure value : Program ι ans α) state ↔
      always state ∧ post value state :=
  Iff.rfl

theorem ensures_call {operation : ι} {next : ans operation → Program ι ans α} {state : σ} :
    Ensures allowed always post (.call operation next) state ↔ always state ∧
      ∀ answer after, allowed state operation answer after →
        Ensures allowed always post (next answer) after :=
  Iff.rfl

theorem ensures_perform_bind {operation : ι} {rest : ans operation → Program ι ans β}
    {post : β → σ → Prop} {state : σ} :
    Ensures allowed always post ((perform operation : Program ι ans (ans operation)) >>= rest)
      state ↔ always state ∧ ∀ answer after, allowed state operation answer after →
        Ensures allowed always post (rest answer) after :=
  Iff.rfl

theorem Ensures.now {program : Program ι ans α} {state : σ}
    (ensures : Ensures allowed always post program state) : always state := by
  cases program with
  | pure value => exact ensures.1
  | call operation next => exact ensures.1

/-- What is ensured holds wherever a run stops, and where it returns. -/
theorem Ensures.sound {program stopped : Program ι ans α} {state final : σ}
    (ensures : Ensures allowed always post program state)
    (run : Reaches allowed program state stopped final) :
    always final ∧ ∀ value, stopped = .pure value → post value final := by
  induction run with
  | stop program state =>
    refine ⟨ensures.now, fun value returned => ?_⟩
    subst returned
    exact ensures.2
  | call answered _ ih => exact ih (ensures.2 _ _ answered)

theorem Ensures.mono {weaker : σ → Prop} {laxer : α → σ → Prop} {program : Program ι ans α}
    {state : σ} (ensures : Ensures allowed always post program state)
    (anywhere : ∀ state, always state → weaker state)
    (returned : ∀ value state, always state → post value state → laxer value state) :
    Ensures allowed weaker laxer program state := by
  induction program generalizing state with
  | pure value => exact ⟨anywhere _ ensures.1, returned _ _ ensures.1 ensures.2⟩
  | call operation next ih =>
    exact ⟨anywhere _ ensures.1, fun answer after answered => ih _ (ensures.2 _ _ answered)⟩

theorem Ensures.and {other : α → σ → Prop} {program : Program ι ans α} {state : σ}
    (left : Ensures allowed always post program state)
    (right : Ensures allowed always other program state) :
    Ensures allowed always (fun value final => post value final ∧ other value final) program
      state := by
  induction program generalizing state with
  | pure value => exact ⟨left.1, left.2, right.2⟩
  | call operation next ih =>
    exact ⟨left.1, fun answer after answered =>
      ih _ (left.2 _ _ answered) (right.2 _ _ answered)⟩

/-- What is ensured in an environment is ensured in one that allows less. -/
theorem Ensures.restrict {stricter : Environment ι ans σ} {program : Program ι ans α} {state : σ}
    (ensures : Ensures allowed always post program state)
    (less : ∀ before operation answer after, stricter before operation answer after →
      allowed before operation answer after) :
    Ensures stricter always post program state := by
  induction program generalizing state with
  | pure value => exact ensures
  | call operation next ih =>
    exact ⟨ensures.1, fun answer after answered =>
      ih _ (ensures.2 _ _ (less _ _ _ _ answered))⟩

theorem ensures_bind {program : Program ι ans α} {rest : α → Program ι ans β}
    {post : β → σ → Prop} {state : σ} :
    Ensures allowed always post (program >>= rest) state ↔
      Ensures allowed always
        (fun value middle => Ensures allowed always post (rest value) middle) program state := by
  induction program generalizing state with
  | pure value =>
    change Ensures allowed always post (rest value) state ↔ _
    exact ⟨fun ensures => ⟨ensures.now, ensures⟩, fun ensures => ensures.2⟩
  | call operation next ih =>
    exact and_congr_right fun _ => forall_congr' fun answer => forall_congr' fun after =>
      imp_congr_right fun _ => ih answer

/-- The rule of sequence: a postcondition of the first part is a start of the second. -/
theorem Ensures.bind {program : Program ι ans α} {rest : α → Program ι ans β}
    {middle : α → σ → Prop} {post : β → σ → Prop} {state : σ}
    (first : Ensures allowed always middle program state)
    (second : ∀ value state, always state → middle value state →
      Ensures allowed always post (rest value) state) :
    Ensures allowed always post (program >>= rest) state :=
  ensures_bind.mpr (first.mono (fun _ holds => holds) second)

/-- A deterministic environment. -/
def run (handler : (operation : ι) → σ → ans operation × σ) :
    Program ι ans α → σ → α × σ
  | .pure value, state => (value, state)
  | .call operation next, state =>
    let (answer, after) := handler operation state
    run handler (next answer) after

@[simp] theorem run_pure (handler : (operation : ι) → σ → ans operation × σ) (value : α)
    (state : σ) : run handler (Pure.pure value : Program ι ans α) state = (value, state) :=
  rfl

theorem run_call (handler : (operation : ι) → σ → ans operation × σ) (operation : ι)
    (next : ans operation → Program ι ans α) (state : σ) :
    run handler (.call operation next) state =
      run handler (next (handler operation state).1) (handler operation state).2 :=
  rfl

theorem run_perform_bind (handler : (operation : ι) → σ → ans operation × σ) (operation : ι)
    (rest : ans operation → Program ι ans β) (state : σ) :
    run handler ((perform operation : Program ι ans (ans operation)) >>= rest) state =
      run handler (rest (handler operation state).1) (handler operation state).2 :=
  rfl

theorem run_bind (handler : (operation : ι) → σ → ans operation × σ)
    (program : Program ι ans α) (rest : α → Program ι ans β) (state : σ) :
    run handler (program >>= rest) state =
      run handler (rest (run handler program state).1) (run handler program state).2 := by
  induction program generalizing state with
  | pure value => rfl
  | call operation next ih => exact ih _ _

/-- A handler whose answers the environment allows runs a program as the environment may. -/
theorem run_reaches {handler : (operation : ι) → σ → ans operation × σ}
    (permitted : ∀ operation state,
      allowed state operation (handler operation state).1 (handler operation state).2)
    (program : Program ι ans α) (state : σ) :
    Reaches allowed program state (.pure (run handler program state).1)
      (run handler program state).2 := by
  induction program generalizing state with
  | pure value => exact .stop _ _
  | call operation next ih => exact .call (permitted operation state) (ih _ _)

/-- A run stopped after so many calls. -/
def runFor (handler : (operation : ι) → σ → ans operation × σ) :
    Nat → Program ι ans α → σ → Program ι ans α × σ
  | 0, program, state => (program, state)
  | _ + 1, .pure value, state => (.pure value, state)
  | calls + 1, .call operation next, state =>
    runFor handler calls (next (handler operation state).1) (handler operation state).2

theorem runFor_reaches {handler : (operation : ι) → σ → ans operation × σ}
    (permitted : ∀ operation state,
      allowed state operation (handler operation state).1 (handler operation state).2)
    (calls : Nat) (program : Program ι ans α) (state : σ) :
    Reaches allowed program state (runFor handler calls program state).1
      (runFor handler calls program state).2 := by
  induction calls generalizing program state with
  | zero => exact .stop _ _
  | succ calls ih =>
    cases program with
    | pure value => exact .stop _ _
    | call operation next => exact .call (permitted operation state) (ih _ _)

end Program

end GeoWorld.Library

/-!
Two runs of one program from related states. `Alike` says that they give the same value and
leave related states, so whatever the relation leaves out has no influence on the program.
-/

namespace GeoWorld.Library

namespace Program

variable {ι : Type} {ans : ι → Type} {α β σ : Type}

section Alike

variable {handler : (operation : ι) → σ → ans operation × σ} {related : σ → σ → Prop}

/-- From related states the program gives the same value, with what is known of it. -/
def Alike (handler : (operation : ι) → σ → ans operation × σ) (related : σ → σ → Prop)
    (known : α → Prop) (program : Program ι ans α) : Prop :=
  ∀ one other, related one other →
    (run handler program one).1 = (run handler program other).1 ∧
      related (run handler program one).2 (run handler program other).2 ∧
        known (run handler program one).1

theorem Alike.pure {known : α → Prop} {value : α} (holds : known value) :
    Alike handler related known (Pure.pure value) :=
  fun _ _ together => ⟨rfl, together, holds⟩

theorem Alike.perform {operation : ι}
    (same : ∀ one other, related one other →
      (handler operation one).1 = (handler operation other).1 ∧
        related (handler operation one).2 (handler operation other).2) :
    Alike handler related (fun _ => True) (perform operation : Program ι ans (ans operation)) :=
  fun one other together => ⟨(same one other together).1, (same one other together).2, trivial⟩

/-- The rule of sequence: the rest is alike for every value the first part may give. -/
theorem Alike.bind {known : α → Prop} {result : β → Prop} {program : Program ι ans α}
    {rest : α → Program ι ans β} (first : Alike handler related known program)
    (second : ∀ value, known value → Alike handler related result (rest value)) :
    Alike handler related result (program >>= rest) := by
  intro one other together
  obtain ⟨same, left, holds⟩ := first one other together
  rw [run_bind, run_bind, ← same]
  exact second _ holds _ _ left

theorem Alike.mono {known weaker : α → Prop} {program : Program ι ans α}
    (alike : Alike handler related known program) (weaken : ∀ value, known value → weaker value) :
    Alike handler related weaker program := by
  intro one other together
  obtain ⟨same, left, holds⟩ := alike one other together
  exact ⟨same, left, weaken _ holds⟩

theorem Alike.same {known : α → Prop} {program : Program ι ans α} {one other : σ}
    (alike : Alike handler related known program) (together : related one other) :
    (run handler program one).1 = (run handler program other).1 :=
  (alike one other together).1

end Alike

/-- A run of the first part that returns, followed by a run of the rest. -/
theorem Reaches.bind {allowed : Environment ι ans σ} {program : Program ι ans α} {value : α}
    {rest : α → Program ι ans β} {stopped : Program ι ans β} {before middle final : σ}
    (first : Reaches allowed program before (.pure value) middle)
    (second : Reaches allowed (rest value) middle stopped final) :
    Reaches allowed (program >>= rest) before stopped final := by
  generalize returned : (Program.pure value : Program ι ans α) = ended at first
  induction first with
  | stop program state =>
    subst returned
    exact second
  | call answered later ih => exact .call answered (ih second returned)

end Program

end GeoWorld.Library
