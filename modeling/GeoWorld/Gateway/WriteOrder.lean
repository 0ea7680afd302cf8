import Mathlib
import GeoWorld.Library.Runs
import GeoWorld.Gateway.ShardSession

/-!
What a client gets to read. Both kinds of session write the frames they are given in order
and keep what they owe before a close, unless they are disturbed: the one by a malformed
frame during a write, the other by a write that completes while what is owed still lies in
the outbox.
-/

namespace GeoWorld.Gateway

open WorldModel Library

abbrev LocalSession.Steps (before : LocalSession) (event : LocalEvent) (after : LocalSession) :
    Prop :=
  before.step event = some after

abbrev ShardSession.Steps (before : ShardSession) (event : ShardEvent) (after : ShardSession) :
    Prop :=
  before.step event = some after

instance (session : LocalSession) (event : LocalEvent) : Decidable (session.Undisturbed event) :=
  match event with
  | .malformed _ => inferInstanceAs (Decidable (_ ∧ _))
  | .close => inferInstanceAs (Decidable (_ ∨ _))
  | .enqueue _ | .accept | .acceptFail | .control | .readFail | .write | .writeFail | .closeDone =>
    isTrue trivial

instance (session : ShardSession) (event : ShardEvent) : Decidable (session.Undisturbed event) :=
  match event with
  | .enqueue (.protocolError _) => inferInstanceAs (Decidable (_ = _))
  | .write => inferInstanceAs (Decidable (_ → _))
  | .enqueue (.frame _) | .requestClose | .runPosted | .writeFail | .readFail | .closeDone =>
    isTrue trivial

section Order

variable {localEvents : List LocalEvent} {localSession : LocalSession}
  {shardEvents : List ShardEvent} {shardSession : ShardSession}

/-- Undisturbed sessions of both kinds write every message once and in order, and what they
owe before they close. -/
theorem sessions_orderly
    (localRun : GuardedRun LocalSession.Steps LocalSession.Undisturbed {} localEvents localSession)
    (shardRun : GuardedRun ShardSession.Steps ShardSession.Undisturbed {} shardEvents
      shardSession) :
    localSession.Orderly ∧ shardSession.Orderly := by
  have kept : LocalSession.Inv localSession :=
    localRun.invariant LocalSession.inv_start fun _ _ _ undisturbed step inv =>
      LocalSession.step_inv step undisturbed inv
  have other : ShardSession.Inv shardSession :=
    shardRun.invariant ShardSession.inv_start fun _ _ _ undisturbed step inv =>
      ShardSession.step_inv step undisturbed inv
  exact ⟨kept.orderly, other.orderly⟩

/-- A report is written between the frames, and the session closes. -/
def reportedLocal : List LocalEvent :=
  [.enqueue [1], .accept, .write, .malformed [9], .enqueue [2], .write, .write, .closeDone]

def reportedShard : List ShardEvent :=
  [.enqueue (.frame [1]), .runPosted, .enqueue (.protocolError [9]), .requestClose, .runPosted,
    .write, .write, .runPosted, .closeDone]

def checkedLocal : Option LocalSession :=
  runLabels (fun session event =>
    if decide (session.Undisturbed event) then session.step event else none) {} reportedLocal

def checkedShard : Option ShardSession :=
  runLabels (fun session event =>
    if decide (session.Undisturbed event) then session.step event else none) {} reportedShard

theorem checkedLocal_closed : checkedLocal.map LocalSession.closeStarted =
    some (some [.frame [1], .protocolError [9], .frame [2]]) := by
  decide +kernel

theorem checkedShard_closed : checkedShard.map ShardSession.closeStarted =
    some (some [.frame [1], .protocolError [9]]) := by
  decide +kernel

theorem sessions_orderly_reported : ∃ localSession shardSession,
    checkedLocal = some localSession ∧ checkedShard = some shardSession ∧
      localSession.Orderly ∧ shardSession.Orderly := by
  obtain ⟨localSession, localRun, -⟩ := Option.map_eq_some_iff.mp checkedLocal_closed
  obtain ⟨shardSession, shardRun, -⟩ := Option.map_eq_some_iff.mp checkedShard_closed
  exact ⟨localSession, shardSession, localRun, shardRun, sessions_orderly
    (GuardedRun.of_checked (fun _ _ => of_decide_eq_true) localRun)
    (GuardedRun.of_checked (fun _ _ => of_decide_eq_true) shardRun)⟩

theorem disturbed_local : (runLabels LocalSession.step {}
      [.accept, .enqueue [1], .malformed [9], .write, .write]).map
        (fun session => (session.written, session.enqueued)) =
    some ([.frame [1], .frame [1]], [[1]]) := by
  decide +kernel

theorem disturbed_shard : (runLabels ShardSession.step {}
      [.enqueue (.frame [1]), .runPosted, .enqueue (.protocolError [9]), .requestClose,
        .write]).map (fun session => (session.closeStarted, session.enqueued)) =
    some (some [.frame [1]], [.frame [1], .protocolError [9]]) := by
  decide +kernel

/-- A malformed frame during a write makes the one session write the frame again and drop
the report; the other closes before the report has left its outbox. -/
theorem sessions_disturbed :
    (¬ ∀ events session, AnyRun LocalSession.Steps {} events session → session.Orderly) ∧
      ¬ ∀ events session, AnyRun ShardSession.Steps {} events session → session.Orderly := by
  constructor
  · intro claimed
    obtain ⟨session, run, found⟩ := Option.map_eq_some_iff.mp disturbed_local
    obtain ⟨written, enqueued⟩ := Prod.mk.inj found
    have orderly := claimed _ session (GuardedRun.of_runLabels run fun _ _ => trivial)
    have twice := orderly.frames.length_le
    rw [written, enqueued] at twice
    exact absurd twice (by decide)
  · intro claimed
    obtain ⟨session, run, found⟩ := Option.map_eq_some_iff.mp disturbed_shard
    obtain ⟨closed, enqueued⟩ := Prod.mk.inj found
    have orderly := claimed _ session (GuardedRun.of_runLabels run fun _ _ => trivial)
    have reported := orderly.report _ closed [9] (by rw [enqueued]; simp)
    exact absurd reported (by decide)

end Order

end GeoWorld.Gateway
