import Mathlib
import GeoWorld.Library.EditScript

/-!
A receiver applies scripts in order, and may start over from an empty view at
some of them; a sender replays the same scripts without ever starting over. The
span remembers where the two stood at the last restart and the script applied
since. They agree at the end exactly when that script covers the difference.
-/

namespace GeoWorld.Library

variable {K V : Type} [DecidableEq K]

structure ReplaySpan (K V : Type) where
  receiverBase : K → Option V
  senderBase : K → Option V
  since : List (Edit K V)

namespace ReplaySpan

def receiver (span : ReplaySpan K V) : K → Option V :=
  applyScript span.receiverBase span.since

def sender (span : ReplaySpan K V) : K → Option V :=
  applyScript span.senderBase span.since

/-- One more script; `restarts` says whether the receiver starts over. -/
def push (span : ReplaySpan K V) (restarts : Bool) (script : List (Edit K V)) :
    ReplaySpan K V :=
  if restarts then
    { receiverBase := fun _ => none, senderBase := span.sender, since := script }
  else
    { span with since := span.since ++ script }

/-- Every key on which the bases differ is edited since. -/
def Covered (span : ReplaySpan K V) : Prop :=
  ∀ key, span.receiverBase key ≠ span.senderBase key → key ∈ touched span.since

theorem receiver_eq_sender_iff (span : ReplaySpan K V) :
    span.receiver = span.sender ↔ span.Covered :=
  applyScript_agree_iff span.receiverBase span.senderBase span.since

theorem push_receiver (span : ReplaySpan K V) (restarts : Bool) (script : List (Edit K V)) :
    (span.push restarts script).receiver =
      applyScript (if restarts then fun _ => none else span.receiver) script := by
  cases restarts with
  | true => rfl
  | false => exact applyScript_append span.receiverBase span.since script

theorem push_sender (span : ReplaySpan K V) (restarts : Bool) (script : List (Edit K V)) :
    (span.push restarts script).sender = applyScript span.sender script := by
  cases restarts with
  | true => rfl
  | false => exact applyScript_append span.senderBase span.since script

section Runs

variable {ι : Type} (restarts : ι → Bool) (script : ι → List (Edit K V))

def pushAll (span : ReplaySpan K V) (items : List ι) : ReplaySpan K V :=
  items.foldl (fun span item => span.push (restarts item) (script item)) span

theorem pushAll_receiver (span : ReplaySpan K V) (items : List ι) :
    (span.pushAll restarts script items).receiver = items.foldl
      (fun view item => applyScript (if restarts item then fun _ => none else view)
        (script item)) span.receiver := by
  induction items generalizing span with
  | nil => rfl
  | cons item rest ih =>
    rw [List.foldl_cons, ← push_receiver]
    exact ih _

theorem pushAll_sender (span : ReplaySpan K V) (items : List ι) :
    (span.pushAll restarts script items).sender =
      applyScript span.sender (items.flatMap script) := by
  induction items generalizing span with
  | nil => rfl
  | cons item rest ih =>
    rw [List.flatMap_cons, applyScript_append, ← push_sender span (restarts item)]
    exact ih _

end Runs

end ReplaySpan

end GeoWorld.Library
