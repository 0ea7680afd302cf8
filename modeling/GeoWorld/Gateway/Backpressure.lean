import Mathlib
import GeoWorld.Library.Runs
import GeoWorld.Gateway.WriteOrder

/-!
What a poll hands to the sessions. It stops at the limit of the byte counter; the counter of
a local session counts what is not yet written, the counter of a sharded one only what the
shard has not yet taken over.
-/

namespace GeoWorld.Gateway

open WorldModel Library

/-- A session and the frames the core has for it. -/
structure Flow (σ : Type) where
  session : σ
  available : List ByteString := []

inductive FlowEvent (ε : Type) where
  | offer (frames : List ByteString)
  | handOver
  | disconnect
  | own (event : ε)

/-- What the session does besides what the poll asks of it. -/
def LocalEvent.own : LocalEvent → Bool
  | .enqueue _ | .malformed _ | .close => false
  | _ => true

def ShardEvent.own : ShardEvent → Bool
  | .enqueue _ | .requestClose => false
  | _ => true

/-- The loop of `flush_local`, one round at a time. -/
def flushLocal (limit : Nat) (flow : Flow LocalSession) :
    FlowEvent LocalEvent → Option (Flow LocalSession)
  | .offer frames => some { flow with available := frames }
  | .handOver =>
    match flow.available with
    | [] => none
    | frame :: rest =>
      if flow.session.closed = false ∧ flow.session.queuedBytes < limit then
        some ⟨flow.session.enqueue frame, rest⟩
      else none
  | .disconnect =>
    if flow.session.closed = false then some { flow with session := flow.session.close } else none
  | .own event =>
    if event.own then (flow.session.step event).map fun session => { flow with session := session }
    else none

/-- The loop of `flush_remote`, one round at a time; the shard works between the rounds. -/
def flushRemote (limit : Nat) (flow : Flow ShardSession) :
    FlowEvent ShardEvent → Option (Flow ShardSession)
  | .offer frames => some { flow with available := frames }
  | .handOver =>
    match flow.available with
    | [] => none
    | frame :: rest =>
      if flow.session.outboxBytes < limit then some ⟨flow.session.enqueue (.frame frame), rest⟩
      else none
  | .disconnect => some { flow with session := flow.session.requestClose }
  | .own event =>
    if event.own then (flow.session.step event).map fun session => { flow with session := session }
    else none

/-- The bytes that were handed over and are not completely written. -/
def LocalSession.unwrittenBytes (session : LocalSession) : Nat :=
  messageBytes session.outbound

def ShardSession.unwrittenBytes (session : ShardSession) : Nat :=
  messageBytes (session.currentWrite.toList ++ session.writeQueue ++ session.outbox)

/-- At most the limit and one frame. -/
def WithinOneFrame (limit bytes : Nat) (frames : List ByteString) : Prop :=
  ∀ largest, (∀ frame ∈ frames, frame.length ≤ largest) → bytes ≤ limit + largest

theorem WithinOneFrame.less {limit bytes fewer : Nat} {frames : List ByteString}
    (within : WithinOneFrame limit bytes frames) (less : fewer ≤ bytes) :
    WithinOneFrame limit fewer frames :=
  fun largest all => less.trans (within largest all)

theorem WithinOneFrame.handOver {limit bytes : Nat} {frames : List ByteString}
    (room : bytes ≤ limit) (frame : ByteString) :
    WithinOneFrame limit (bytes + frame.length) (frames ++ [frame]) := by
  intro largest all
  have here := all frame (by simp)
  omega

namespace LocalSession

variable {session after : LocalSession}

theorem writeNext_keeps (session : LocalSession) :
    session.writeNext.outbound = session.outbound ∧
      session.writeNext.queuedBytes = session.queuedBytes ∧
      session.writeNext.enqueued = session.enqueued := by
  cases queue : session.outbound with
  | nil =>
    rw [writeNext_nil queue]
    split
    · exact ⟨queue, rfl, rfl⟩
    · exact ⟨queue, rfl, rfl⟩
  | cons first rest =>
    rw [writeNext_cons queue]
    exact ⟨queue, rfl, rfl⟩

theorem enqueue_keeps (session : LocalSession) (bytes : ByteString) :
    (session.enqueue bytes).outbound = session.outbound ++ [.frame bytes] ∧
      (session.enqueue bytes).queuedBytes = session.queuedBytes + bytes.length ∧
      (session.enqueue bytes).enqueued = session.enqueued ++ [bytes] := by
  unfold enqueue
  simp only
  split
  · exact writeNext_keeps _
  · exact ⟨rfl, rfl, rfl⟩

theorem close_keeps (session : LocalSession) :
    session.close.outbound = session.outbound ∧
      session.close.queuedBytes = session.queuedBytes ∧
      session.close.enqueued = session.enqueued := by
  unfold close
  split
  · exact ⟨rfl, rfl, rfl⟩
  · simp only
    split
    · exact ⟨rfl, rfl, rfl⟩
    · exact ⟨rfl, rfl, rfl⟩

/-- The counter counts the queue, and what waits is within the limit and one frame. -/
structure Counted (limit : Nat) (session : LocalSession) : Prop where
  counter : session.queuedBytes = messageBytes session.outbound
  within : WithinOneFrame limit session.unwrittenBytes session.enqueued

theorem Counted.keep {limit : Nat} (counted : Counted limit session)
    (kept : after.outbound = session.outbound ∧ after.queuedBytes = session.queuedBytes ∧
      after.enqueued = session.enqueued) : Counted limit after := by
  obtain ⟨outbound, queuedBytes, enqueued⟩ := kept
  refine ⟨by rw [queuedBytes, outbound, counted.counter], ?_⟩
  unfold unwrittenBytes
  rw [outbound, enqueued]
  exact counted.within

theorem Counted.onWrite {limit : Nat} (counted : Counted limit session) :
    Counted limit session.onWrite := by
  have counter := counted.counter
  have within := counted.within
  unfold unwrittenBytes at within
  unfold LocalSession.onWrite
  simp only
  split
  · exact ⟨counter, within⟩
  · rename_i first rest queue
    rw [queue, messageBytes_cons] at counter within
    refine Counted.keep ⟨?_, ?_⟩ (writeNext_keeps _)
    · simp only
      omega
    · exact within.less (Nat.le_add_left _ _)

theorem Counted.own {limit : Nat} {event : LocalEvent} (counted : Counted limit session)
    (own : event.own = true) (step : session.step event = some after) : Counted limit after := by
  cases event with
  | enqueue => cases own
  | malformed => cases own
  | close => cases own
  | accept =>
    simp only [LocalSession.step, Option.ite_none_right_eq_some] at step
    obtain ⟨-, same⟩ := step
    obtain rfl := Option.some.inj same
    refine counted.keep ?_
    unfold onAccept
    simp only
    split
    · exact writeNext_keeps _
    · exact ⟨rfl, rfl, rfl⟩
  | acceptFail =>
    simp only [LocalSession.step, Option.ite_none_right_eq_some] at step
    obtain ⟨-, same⟩ := step
    obtain rfl := Option.some.inj same
    exact counted.keep ⟨rfl, rfl, rfl⟩
  | control =>
    simp only [LocalSession.step, Option.ite_none_right_eq_some] at step
    obtain ⟨-, same⟩ := step
    obtain rfl := Option.some.inj same
    exact counted
  | readFail =>
    simp only [LocalSession.step, Option.ite_none_right_eq_some] at step
    obtain ⟨-, same⟩ := step
    obtain rfl := Option.some.inj same
    exact counted.keep ⟨rfl, rfl, rfl⟩
  | write =>
    simp only [LocalSession.step, Option.ite_none_right_eq_some] at step
    obtain ⟨-, same⟩ := step
    obtain rfl := Option.some.inj same
    exact counted.onWrite
  | writeFail =>
    simp only [LocalSession.step, Option.ite_none_right_eq_some] at step
    obtain ⟨-, same⟩ := step
    obtain rfl := Option.some.inj same
    exact counted.keep ⟨rfl, rfl, rfl⟩
  | closeDone =>
    simp only [LocalSession.step, Option.ite_none_right_eq_some] at step
    obtain ⟨-, same⟩ := step
    obtain rfl := Option.some.inj same
    exact counted.keep ⟨rfl, rfl, rfl⟩

theorem flushLocal_counted {limit : Nat} {flow next : Flow LocalSession}
    {event : FlowEvent LocalEvent} (counted : Counted limit flow.session)
    (step : flushLocal limit flow event = some next) : Counted limit next.session := by
  cases event with
  | offer frames =>
    obtain rfl := Option.some.inj step
    exact counted
  | handOver =>
    simp only [flushLocal] at step
    split at step
    · cases step
    rename_i frame rest _
    split at step
    · rename_i room
      obtain rfl := Option.some.inj step
      obtain ⟨outbound, queuedBytes, enqueued⟩ := enqueue_keeps flow.session frame
      have counter := counted.counter
      have bytes : messageBytes (flow.session.outbound ++ [.frame frame]) =
          messageBytes flow.session.outbound + frame.length := by
        simp [Message.size, Message.bytes]
      constructor
      · rw [queuedBytes, outbound, bytes, counter]
        simp
      · unfold unwrittenBytes
        rw [outbound, enqueued, bytes]
        exact WithinOneFrame.handOver (by omega) frame
    · cases step
  | disconnect =>
    simp only [flushLocal, Option.ite_none_right_eq_some] at step
    obtain ⟨-, same⟩ := step
    obtain rfl := Option.some.inj same
    exact counted.keep (close_keeps flow.session)
  | own event =>
    simp only [flushLocal, Option.ite_none_right_eq_some] at step
    obtain ⟨own, mapped⟩ := step
    obtain ⟨session, stepped, rfl⟩ := Option.map_eq_some_iff.mp mapped
    exact counted.own own stepped

end LocalSession

namespace ShardSession

variable {session after : ShardSession}

theorem writeNext_unwritten (session : ShardSession) :
    session.writeNext.unwrittenBytes ≤ session.unwrittenBytes ∧
      session.writeNext.enqueued = session.enqueued := by
  cases queue : session.writeQueue with
  | nil =>
    rw [writeNext_nil queue]
    unfold doClose
    split
    · split
      · exact ⟨le_rfl, rfl⟩
      · exact ⟨le_rfl, rfl⟩
    · exact ⟨le_rfl, rfl⟩
  | cons first rest =>
    rw [writeNext_cons queue]
    refine ⟨?_, rfl⟩
    simp only [unwrittenBytes, queue, messageBytes_append, messageBytes_cons, Option.toList_some,
      messageBytes_nil]
    omega

theorem drainOutbox_unwritten (session : ShardSession) :
    session.drainOutbox.unwrittenBytes ≤ session.unwrittenBytes ∧
      session.drainOutbox.enqueued = session.enqueued := by
  have moved : ({ session with
      kickPending := false
      writeQueue := session.writeQueue ++ session.outbox
      outbox := []
      outboxBytes := 0 } : ShardSession).unwrittenBytes = session.unwrittenBytes := by
    simp [unwrittenBytes]
  unfold drainOutbox
  simp only
  split
  · exact ⟨moved.le, rfl⟩
  · have next := writeNext_unwritten { session with
      kickPending := false
      writeQueue := session.writeQueue ++ session.outbox
      outbox := []
      outboxBytes := 0 }
    rw [moved] at next
    exact next

theorem own_unwritten {event : ShardEvent} (own : event.own = true)
    (step : session.step event = some after) :
    after.unwrittenBytes ≤ session.unwrittenBytes ∧ after.enqueued = session.enqueued := by
  cases event with
  | enqueue => cases own
  | requestClose => cases own
  | runPosted =>
    simp only [ShardSession.step] at step
    split at step
    · cases step
    · obtain rfl := Option.some.inj step
      exact drainOutbox_unwritten _
    · obtain rfl := Option.some.inj step
      unfold handleCloseRequest doClose
      simp only
      split
      · exact ⟨le_rfl, rfl⟩
      · split
        · exact ⟨le_rfl, rfl⟩
        · exact ⟨le_rfl, rfl⟩
  | write =>
    simp only [ShardSession.step, Option.ite_none_right_eq_some] at step
    obtain ⟨-, same⟩ := step
    obtain rfl := Option.some.inj same
    have next := writeNext_unwritten { session with
      written := session.written ++ session.currentWrite.toList
      currentWrite := none }
    refine ⟨next.1.trans ?_, next.2⟩
    simp only [unwrittenBytes, messageBytes_append, Option.toList_none, messageBytes_nil]
    omega
  | writeFail =>
    simp only [ShardSession.step, Option.ite_none_right_eq_some] at step
    obtain ⟨-, same⟩ := step
    obtain rfl := Option.some.inj same
    refine ⟨?_, rfl⟩
    simp only [unwrittenBytes, reportClosed, messageBytes_append, Option.toList_none,
      messageBytes_nil]
    omega
  | readFail =>
    obtain rfl := Option.some.inj step
    exact ⟨le_rfl, rfl⟩
  | closeDone =>
    simp only [ShardSession.step, Option.ite_none_right_eq_some] at step
    obtain ⟨-, same⟩ := step
    obtain rfl := Option.some.inj same
    exact ⟨le_rfl, rfl⟩

theorem enqueue_unwritten (session : ShardSession) (message : Message) :
    (session.enqueue message).unwrittenBytes = session.unwrittenBytes + message.size ∧
      (session.enqueue message).enqueued = session.enqueued ++ [message] := by
  unfold enqueue
  simp only
  split
  · exact ⟨by simp [unwrittenBytes, Nat.add_assoc], rfl⟩
  · exact ⟨by simp [unwrittenBytes, Nat.add_assoc], rfl⟩

theorem requestClose_unwritten (session : ShardSession) :
    session.requestClose.unwrittenBytes = session.unwrittenBytes ∧
      session.requestClose.enqueued = session.enqueued := by
  unfold requestClose
  split
  · exact ⟨rfl, rfl⟩
  · exact ⟨rfl, rfl⟩

/-- A frame is handed over only while what the session has not written is within the limit,
the drained bytes with those of the outbox. -/
def RoomLeft (limit : Nat) (flow : Flow ShardSession) : FlowEvent ShardEvent → Prop
  | .handOver => flow.session.unwrittenBytes ≤ limit
  | _ => True

theorem flushRemote_within {limit : Nat} {flow next : Flow ShardSession}
    {event : FlowEvent ShardEvent}
    (within : WithinOneFrame limit flow.session.unwrittenBytes (framesOf flow.session.enqueued))
    (room : RoomLeft limit flow event) (step : flushRemote limit flow event = some next) :
    WithinOneFrame limit next.session.unwrittenBytes (framesOf next.session.enqueued) := by
  cases event with
  | offer frames =>
    obtain rfl := Option.some.inj step
    exact within
  | handOver =>
    simp only [flushRemote] at step
    split at step
    · cases step
    rename_i frame rest _
    split at step
    · obtain rfl := Option.some.inj step
      obtain ⟨bytes, enqueued⟩ := enqueue_unwritten flow.session (.frame frame)
      simp only
      rw [bytes, enqueued, framesOf_append]
      exact WithinOneFrame.handOver room frame
    · cases step
  | disconnect =>
    obtain rfl := Option.some.inj step
    obtain ⟨bytes, enqueued⟩ := requestClose_unwritten flow.session
    simp only
    rw [bytes, enqueued]
    exact within
  | own event =>
    simp only [flushRemote, Option.ite_none_right_eq_some] at step
    obtain ⟨own, mapped⟩ := step
    obtain ⟨session, stepped, rfl⟩ := Option.map_eq_some_iff.mp mapped
    obtain ⟨less, enqueued⟩ := own_unwritten own stepped
    simp only
    rw [enqueued]
    exact within.less less

end ShardSession

section Bound

variable {limit : Nat}

abbrev LocalFlows (limit : Nat) (before : Flow LocalSession) (event : FlowEvent LocalEvent)
    (after : Flow LocalSession) : Prop :=
  flushLocal limit before event = some after

abbrev ShardFlows (limit : Nat) (before : Flow ShardSession) (event : FlowEvent ShardEvent)
    (after : Flow ShardSession) : Prop :=
  flushRemote limit before event = some after

/-- What waits in a local session is within the limit and one frame in every run; in a sharded
one as long as frames are handed over while there is room. -/
theorem backpressure_bounded {localEvents : List (FlowEvent LocalEvent)}
    {localFlow : Flow LocalSession} {shardEvents : List (FlowEvent ShardEvent)}
    {shardFlow : Flow ShardSession}
    (localRun : AnyRun (LocalFlows limit) ⟨{}, []⟩ localEvents localFlow)
    (shardRun : GuardedRun (ShardFlows limit) (ShardSession.RoomLeft limit) ⟨{}, []⟩ shardEvents
      shardFlow) :
    WithinOneFrame limit localFlow.session.unwrittenBytes localFlow.session.enqueued ∧
      WithinOneFrame limit shardFlow.session.unwrittenBytes
        (framesOf shardFlow.session.enqueued) := by
  constructor
  · have keeps : ∀ before event after, True → LocalFlows limit before event after →
        LocalSession.Counted limit before.session → LocalSession.Counted limit after.session :=
      fun _ _ _ _ step counted => LocalSession.flushLocal_counted counted step
    have start : LocalSession.Counted limit ({} : LocalSession) :=
      ⟨rfl, fun largest _ => Nat.zero_le _⟩
    exact (localRun.invariant start keeps).within
  · exact shardRun.invariant (fun largest _ => Nat.zero_le _) fun _ _ _ room step within =>
      ShardSession.flushRemote_within within room step

instance (limit : Nat) (flow : Flow ShardSession) (event : FlowEvent ShardEvent) :
    Decidable (ShardSession.RoomLeft limit flow event) :=
  match event with
  | .handOver => inferInstanceAs (Decidable (_ ≤ _))
  | .offer _ | .disconnect | .own _ => isTrue trivial

/-- The first frame is written before the next one is handed over. -/
def pacedLocal : Option (Flow LocalSession) :=
  runLabels (flushLocal 1) ⟨{}, []⟩
    [.offer [[1], [2, 2]], .own .accept, .handOver, .own .write, .handOver]

def pacedShard : Option (Flow ShardSession) :=
  runLabels (fun flow event =>
      if decide (ShardSession.RoomLeft 1 flow event) then flushRemote 1 flow event else none)
    ⟨{}, []⟩ [.offer [[1], [2, 2]], .handOver, .own .runPosted, .own .write, .handOver]

theorem paced_unwritten : pacedLocal.map (fun flow => flow.session.unwrittenBytes) = some 2 ∧
    pacedShard.map (fun flow => flow.session.unwrittenBytes) = some 2 := by
  decide +kernel

theorem backpressure_bounded_paced :
    ∃ (localFlow : Flow LocalSession) (shardFlow : Flow ShardSession),
    localFlow.session.unwrittenBytes = 2 ∧ shardFlow.session.unwrittenBytes = 2 ∧
      WithinOneFrame 1 localFlow.session.unwrittenBytes localFlow.session.enqueued ∧
      WithinOneFrame 1 shardFlow.session.unwrittenBytes (framesOf shardFlow.session.enqueued) := by
  obtain ⟨localFlow, localRun, localBytes⟩ := Option.map_eq_some_iff.mp paced_unwritten.1
  obtain ⟨shardFlow, shardRun, shardBytes⟩ := Option.map_eq_some_iff.mp paced_unwritten.2
  exact ⟨localFlow, shardFlow, localBytes, shardBytes, backpressure_bounded
    (GuardedRun.of_runLabels localRun fun _ _ => trivial)
    (GuardedRun.of_checked (fun _ _ => of_decide_eq_true) shardRun)⟩

/-- The client does not read, and the shard takes over a frame before every poll. -/
theorem stalled_unwritten : (runLabels (flushRemote 1) ⟨{}, []⟩
      [.offer [[1], [2], [3]], .handOver, .own .runPosted, .handOver, .own .runPosted,
        .handOver]).map (fun flow => (flow.session.unwrittenBytes, flow.session.enqueued)) =
    some (3, [.frame [1], .frame [2], .frame [3]]) := by
  decide +kernel

theorem sharded_backpressure_unbounded :
    ¬ ∀ (limit : Nat) (events : List (FlowEvent ShardEvent)) (flow : Flow ShardSession),
      AnyRun (ShardFlows limit) ⟨{}, []⟩ events flow →
      WithinOneFrame limit flow.session.unwrittenBytes (framesOf flow.session.enqueued) := by
  intro claimed
  obtain ⟨flow, run, found⟩ := Option.map_eq_some_iff.mp stalled_unwritten
  obtain ⟨bytes, enqueued⟩ := Prod.mk.inj found
  have within := claimed 1 _ flow (GuardedRun.of_runLabels run fun _ _ => trivial) 1
  rw [bytes, enqueued] at within
  exact absurd (within (by decide)) (by decide)

end Bound

end GeoWorld.Gateway
