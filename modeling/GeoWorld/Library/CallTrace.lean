import Mathlib

/-!
Programs that issue calls to an external builder one after the other, or give
up. What a call returns is a handle: the position of the call in the trace
names it, and it carries the value the call built.
-/

namespace GeoWorld.Library

abbrev Issuing (κ α : Type) := StateT (List κ) Option α

structure Handle (α : Type) where
  offset : Nat
  target : α
  deriving DecidableEq

variable {κ α β : Type}

def issue (call : κ) (target : α) : Issuing κ (Handle α) :=
  fun calls => some (⟨calls.length, target⟩, calls ++ [call])

def require (condition : Prop) [Decidable condition] : Issuing κ Unit :=
  fun calls => if condition then some ((), calls) else none

theorem require_congr {condition other : Prop} [Decidable condition] [Decidable other]
    (same : condition ↔ other) :
    (require condition : Issuing κ Unit) = require other := by
  funext calls
  unfold require
  simp only [same]

/-- Whatever a run that does not give up returns satisfies `post`. -/
def Returns (program : Issuing κ α) (post : α → Prop) : Prop :=
  ∀ calls result after, program calls = some (result, after) → post result

namespace Returns

theorem pure {value : α} {post : α → Prop} (holds : post value) :
    Returns (Pure.pure value : Issuing κ α) post := by
  intro calls result after ran
  cases ran
  exact holds

theorem issue {call : κ} {target : α} :
    Returns (Library.issue call target) fun handle => handle.target = target := by
  intro calls result after ran
  cases ran
  rfl

theorem require {condition : Prop} [Decidable condition] :
    Returns (Library.require condition : Issuing κ Unit) fun _ => condition := by
  intro calls result after ran
  by_contra fails
  simp [Library.require, fails] at ran

theorem bind {program : Issuing κ α} {next : α → Issuing κ β} {middle : α → Prop}
    {post : β → Prop} (first : Returns program middle)
    (rest : ∀ value, middle value → Returns (next value) post) :
    Returns (program >>= next) post := by
  intro calls result after ran
  change (program calls >>= fun step => next step.1 step.2) = some (result, after) at ran
  cases stepped : program calls with
  | none => simp [stepped] at ran
  | some step =>
    have continued : next step.1 step.2 = some (result, after) := by
      simpa [stepped] using ran
    exact rest step.1 (first calls step.1 step.2 stepped) step.2 result after continued

theorem mono {program : Issuing κ α} {weak strong : α → Prop}
    (returns : Returns program strong) (weaker : ∀ value, strong value → weak value) :
    Returns program weak :=
  fun calls result after ran => weaker result (returns calls result after ran)

/-- A loop that pushes one result for each element. -/
theorem mapM {γ : Type} {body : γ → Issuing κ α} {post : γ → α → Prop}
    (each : ∀ item, Returns (body item) (post item)) (items : List γ) :
    Returns (items.mapM body) fun results => List.Forall₂ post items results := by
  induction items with
  | nil => exact Returns.pure .nil
  | cons item items ih =>
    rw [List.mapM_cons]
    refine Returns.bind (each item) fun first holds => ?_
    exact Returns.bind ih fun others hold => Returns.pure (.cons holds hold)

end Returns

/-- The program gives up in no state of the trace. -/
def Accepts (program : Issuing κ α) : Prop :=
  ∀ calls, (program calls).isSome

namespace Accepts

theorem pure {value : α} : Accepts (Pure.pure value : Issuing κ α) := fun _ => rfl

theorem issue {call : κ} {target : α} : Accepts (Library.issue call target) := fun _ => rfl

theorem require {condition : Prop} [Decidable condition] (holds : condition) :
    Accepts (Library.require condition : Issuing κ Unit) := by
  intro calls
  simp [Library.require, holds]

theorem bind {program : Issuing κ α} {next : α → Issuing κ β}
    (first : Accepts program) (rest : ∀ value, Accepts (next value)) :
    Accepts (program >>= next) := by
  intro calls
  change (program calls >>= fun step => next step.1 step.2).isSome
  obtain ⟨step, stepped⟩ := Option.isSome_iff_exists.mp (first calls)
  rw [stepped]
  exact rest step.1 step.2

theorem mapM {γ : Type} {body : γ → Issuing κ α} (items : List γ)
    (each : ∀ item ∈ items, Accepts (body item)) : Accepts (items.mapM body) := by
  induction items with
  | nil => exact Accepts.pure
  | cons item items ih =>
    rw [List.mapM_cons]
    refine Accepts.bind (each item List.mem_cons_self) fun first => ?_
    exact Accepts.bind (ih fun other member => each other (List.mem_cons_of_mem _ member))
      fun others => Accepts.pure

end Accepts

end GeoWorld.Library
