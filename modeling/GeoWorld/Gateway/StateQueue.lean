import Mathlib
import GeoWorld.Gateway.Pump

/-!
The queue of state frames of a connection, over any calls of `push`, `pop` and
`clear_resync`: its byte counter, its limit, the place of a keyframe, the baselines and the
order of the deltas, and the flag that a frame was lost.
-/

namespace GeoWorld.Gateway

open WorldModel

/-- The bytes of frames together. -/
def frameBytes (frames : List QueuedFrame) : ℕ :=
  (frames.map fun frame => frame.bytes.length).sum

inductive QueueCall where
  | push (frame : QueuedFrame)
  | pop
  | clearResync
  deriving DecidableEq

/-- The frames the calls push, in order. -/
def pushedFrames : List QueueCall → List QueuedFrame
  | [] => []
  | .push frame :: calls => frame :: pushedFrames calls
  | _ :: calls => pushedFrames calls

namespace StateQueue

def pop (queue : StateQueue) : Option QueuedFrame × StateQueue :=
  match queue.frames with
  | [] => (none, queue)
  | frame :: rest =>
    (some frame, { queue with bytes := queue.bytes - frame.bytes.length, frames := rest })

def clearResync (queue : StateQueue) : StateQueue := { queue with resyncRequired := false }

def call (queue : StateQueue) : QueueCall → StateQueue
  | .push frame => queue.push frame
  | .pop => queue.pop.2
  | .clearResync => queue.clearResync

/-- The queue after the calls. -/
def after (queue : StateQueue) (calls : List QueueCall) : StateQueue := calls.foldl call queue

/-- A push takes an older frame out on purpose: a keyframe replaces every frame, a delta an
older delta of its baseline. -/
def Replaces (frame existing : QueuedFrame) : Prop :=
  frame.isKeyframe ∨
    ¬ existing.isKeyframe ∧ existing.baselineSnapshotId = frame.baselineSnapshotId

/-- What holds between calls; `history` lists the frames pushed so far. -/
structure InOrder (queue : StateQueue) (history : List QueuedFrame) : Prop where
  counted : queue.bytes = frameBytes queue.frames
  bounded : queue.bytes ≤ queue.maxBytes ∨ queue.frames.length = 1
  keyframe_first : ∀ frame ∈ queue.frames.tail, ¬ frame.isKeyframe
  baselines : (queue.frames.filter fun frame => !frame.isKeyframe).Pairwise fun left right =>
    left.baselineSnapshotId ≠ right.baselineSnapshotId
  push_order : queue.frames.Sublist history

section Trim

theorem frameBytes_cons (frame : QueuedFrame) (frames : List QueuedFrame) :
    frameBytes (frame :: frames) = frame.bytes.length + frameBytes frames :=
  List.sum_cons

theorem frameBytes_append (first second : List QueuedFrame) :
    frameBytes (first ++ second) = frameBytes first + frameBytes second := by
  rw [frameBytes, List.map_append, List.sum_append]
  rfl

/-- The frames that stay and those that go are all of them. -/
theorem frameBytes_filter (stays : QueuedFrame → Bool) (frames : List QueuedFrame) :
    frameBytes (frames.filter stays) + frameBytes (frames.filter fun frame => !stays frame) =
      frameBytes frames := by
  rw [← frameBytes_append]
  exact ((List.filter_append_perm stays frames).map _).sum_eq

/-- What trimming leaves of frames whose bytes were counted right. -/
structure Trimmed (queue : StateQueue) (frames : List QueuedFrame) (resync : Bool)
    (result : StateQueue) : Prop where
  limit : result.maxBytes = queue.maxBytes
  counted : result.bytes = frameBytes result.frames
  bounded : result.bytes ≤ result.maxBytes ∨ result.frames.length = 1
  suffix : ∃ lost, lost ++ result.frames = frames ∧
    (resync ∨ lost ≠ [] → result.resyncRequired)

theorem trim_trimmed (queue : StateQueue) (frames : List QueuedFrame) {bytes : ℕ}
    (counted : bytes = frameBytes frames) (resync : Bool) :
    queue.Trimmed frames resync (queue.trim frames bytes resync) := by
  induction frames generalizing bytes resync with
  | nil => exact ⟨rfl, counted, .inl (counted ▸ Nat.zero_le _), [], rfl, by simp [trim]⟩
  | cons first rest ih =>
    cases rest with
    | nil => exact ⟨rfl, counted, .inr rfl, [], rfl, by simp [trim]⟩
    | cons second rest =>
      rw [trim]
      split_ifs with large
      · have fewer : bytes - first.bytes.length = frameBytes (second :: rest) := by
          rw [counted, frameBytes_cons, Nat.add_sub_cancel_left]
        obtain ⟨limit, counted, bounded, lost, split, flagged⟩ := ih fewer true
        refine ⟨limit, counted, bounded, first :: lost, ?_, fun _ => flagged (.inl rfl)⟩
        rw [List.cons_append, split]
      · exact ⟨rfl, counted, .inl (not_lt.mp large), [], rfl, by simp⟩

end Trim

section Calls

variable {queue : StateQueue} {history : List QueuedFrame}

def stays (frame existing : QueuedFrame) : Bool :=
  !frame.isKeyframe &&
    (existing.isKeyframe || existing.baselineSnapshotId ≠ frame.baselineSnapshotId)

/-- The frames a push of `frame` does not take out on purpose. -/
def kept (queue : StateQueue) (frame : QueuedFrame) : List QueuedFrame :=
  queue.frames.filter (stays frame)

theorem stays_iff {frame existing : QueuedFrame} :
    stays frame existing ↔ ¬ Replaces frame existing := by
  unfold stays Replaces
  cases frame.isKeyframe <;> cases existing.isKeyframe <;> simp

theorem mem_kept {frame existing : QueuedFrame} :
    existing ∈ queue.kept frame ↔ existing ∈ queue.frames ∧ ¬ Replaces frame existing := by
  rw [kept, List.mem_filter, stays_iff]

theorem kept_of_keyframe {frame : QueuedFrame} (keyframe : frame.isKeyframe) :
    queue.kept frame = [] :=
  List.filter_eq_nil_iff.mpr fun _ _ stay => stays_iff.mp stay (.inl keyframe)

theorem push_trimmed (counted : queue.bytes = frameBytes queue.frames) (frame : QueuedFrame) :
    queue.Trimmed (queue.kept frame ++ [frame]) queue.resyncRequired (queue.push frame) := by
  refine trim_trimmed queue _ ?_ _
  have split := frameBytes_filter (stays frame) queue.frames
  change (if frame.isKeyframe then 0 else
    queue.bytes - frameBytes (queue.frames.filter fun existing => !stays frame existing)) +
      frameBytes [frame] = _
  rw [frameBytes_append]
  split_ifs with keyframe
  · rw [kept_of_keyframe keyframe]
    rfl
  · rw [counted, ← split, Nat.add_sub_cancel]
    rfl

theorem InOrder.push (inOrder : queue.InOrder history) (frame : QueuedFrame) :
    (queue.push frame).InOrder (history ++ [frame]) := by
  obtain ⟨limit, counted, bounded, lost, split, -⟩ := push_trimmed inOrder.counted frame
  have rest : (queue.push frame).frames <:+ queue.kept frame ++ [frame] := ⟨lost, split⟩
  have part : (queue.kept frame).Sublist queue.frames := List.filter_sublist
  refine ⟨counted, bounded, fun existing member => ?_, ?_,
    rest.sublist.trans ((part.trans inOrder.push_order).append (List.Sublist.refl _))⟩
  · have inside := rest.sublist.tail.subset member
    by_cases keyframe : frame.isKeyframe
    · rw [kept_of_keyframe keyframe] at inside
      cases inside
    · cases front : queue.kept frame with
      | nil =>
        rw [front] at inside
        cases inside
      | cons first others =>
        rw [front, List.cons_append, List.tail_cons] at inside
        obtain old | new := List.mem_append.mp inside
        · have tail := part.tail
          rw [front, List.tail_cons] at tail
          exact inOrder.keyframe_first existing (tail.subset old)
        · rw [List.mem_singleton.mp new]
          exact keyframe
  · refine List.Pairwise.sublist (rest.sublist.filter _) ?_
    rw [List.filter_append, List.pairwise_append]
    refine ⟨inOrder.baselines.sublist (part.filter _),
      (List.pairwise_singleton _ _).sublist List.filter_sublist, ?_⟩
    intro existing old other new same
    obtain ⟨old, delta⟩ := List.mem_filter.mp old
    rw [List.mem_singleton.mp (List.mem_filter.mp new).1] at same
    refine (mem_kept.mp old).2 (.inr ⟨?_, same⟩)
    simpa using delta

theorem InOrder.pop (inOrder : queue.InOrder history) : queue.pop.2.InOrder history := by
  obtain ⟨counted, bounded, keyframe_first, baselines, push_order⟩ := inOrder
  obtain ⟨maxBytes, bytes, resync, frames⟩ := queue
  cases frames with
  | nil => exact ⟨counted, bounded, keyframe_first, baselines, push_order⟩
  | cons frame rest =>
    have part : rest.Sublist (frame :: rest) := List.sublist_cons_self frame rest
    change bytes = frameBytes (frame :: rest) at counted
    have fewer : bytes - frame.bytes.length = frameBytes rest := by
      rw [counted, frameBytes_cons, Nat.add_sub_cancel_left]
    refine ⟨fewer, ?_, fun other member => keyframe_first other (rest.tail_sublist.subset member),
      baselines.sublist (part.filter _), part.trans push_order⟩
    obtain small | single := bounded
    · exact .inl ((Nat.sub_le _ _).trans small)
    · have none := List.length_eq_zero_iff.mp (Nat.succ.inj single)
      refine .inl ?_
      change bytes - frame.bytes.length ≤ maxBytes
      rw [fewer, none]
      exact Nat.zero_le _

theorem InOrder.call (inOrder : queue.InOrder history) (call : QueueCall) :
    (queue.call call).InOrder (history ++ pushedFrames [call]) := by
  cases call with
  | push frame => exact inOrder.push frame
  | pop => exact (List.append_nil history).symm ▸ inOrder.pop
  | clearResync =>
    obtain ⟨counted, bounded, keyframe_first, baselines, push_order⟩ := inOrder
    exact (List.append_nil history).symm ▸
      ⟨counted, bounded, keyframe_first, baselines, push_order⟩

theorem pushedFrames_cons (call : QueueCall) (calls : List QueueCall) :
    pushedFrames (call :: calls) = pushedFrames [call] ++ pushedFrames calls := by
  cases call <;> rfl

theorem InOrder.after (inOrder : queue.InOrder history) (calls : List QueueCall) :
    (queue.after calls).InOrder (history ++ pushedFrames calls) := by
  induction calls generalizing queue history with
  | nil => exact (List.append_nil history).symm ▸ inOrder
  | cons call calls ih =>
    have later := ih (inOrder.call call)
    rw [pushedFrames_cons, ← List.append_assoc]
    exact later

theorem inOrder_empty (maxBytes : ℕ) : InOrder { maxBytes := maxBytes } [] :=
  ⟨rfl, .inl (Nat.zero_le _), by simp, List.Pairwise.nil, List.Sublist.refl _⟩

end Calls

end StateQueue

end GeoWorld.Gateway
