import Mathlib
import GeoWorld.Library.Runs
import GeoWorld.Protocol.ClientControl

/-!
One connection of the thin client, which reads only two numbers of a state frame and acknowledges
it at once. Its handlers run one at a time on the thread of the connection; pausing, resuming and
stopping come from another thread between any two of them. Whichever operation the network
completes next, and how, is open.
-/

namespace GeoWorld.Client

open WorldModel Library Protocol

inductive InspectResult where
  | keyframe
  | delta
  | heartbeat
  | reliable
  | invalid
  deriving DecidableEq

/-- `inspect_server_frame`, with the epoch and the snapshot of a state frame. -/
def inspectServerFrame (buffers : StreamBuffers) (bytes : buffers.Buffer) :
    InspectResult × WireAck :=
  if buffers.size bytes < minFrameBytes || !buffers.hasIdentifier bytes then
    (.invalid, ⟨0, 0⟩)
  else
    match (buffers.getRoot bytes).frame with
    | .keyframe frame => (.keyframe, ⟨frame.streamEpoch, frame.snapshotId⟩)
    | .delta frame => (.delta, ⟨frame.streamEpoch, frame.snapshotId⟩)
    | .heartbeat _ => (.heartbeat, ⟨0, 0⟩)
    | .reliable _ => (.reliable, ⟨0, 0⟩)
    | .none => (.invalid, ⟨0, 0⟩)

structure ThinConnectionStats where
  frames : Nat := 0
  keyframes : Nat := 0
  deltas : Nat := 0
  heartbeats : Nat := 0
  reliableEvents : Nat := 0
  acksSent : Nat := 0
  parseFailures : Nat := 0
  established : Bool := false
  failed : Bool := false
  closed : Bool := false
  deriving DecidableEq

/-- The two FlatBuffers runtimes and the largest message of the socket. -/
structure ThinSetup where
  frames : StreamBuffers
  controls : ControlBuffers
  maxFrameBytes : Nat := 8 * 1024 * 1024

/-- The connection, with the operations the network has under way: `reads` and `writes`, the posted
`maybe_read` and the calls of `resume_reads` that have not posted theirs. `read` and `delivered` are
what the network has handed in and taken so far. -/
structure ThinConnection (setup : ThinSetup) where
  writeQueue : List setup.controls.Buffer := []
  readInFlight : Bool := false
  writeInFlight : Bool := false
  paused : Bool := false
  stopping : Bool := false
  stats : ThinConnectionStats := {}
  reads : Nat := 0
  writes : List setup.controls.Buffer := []
  posted : Nat := 0
  resuming : Nat := 0
  read : List setup.frames.Buffer := []
  delivered : List setup.controls.Buffer := []

variable {setup : ThinSetup}

namespace ThinConnection

def maybeRead (connection : ThinConnection setup) : ThinConnection setup :=
  if connection.paused || connection.readInFlight || connection.stats.closed then
    connection
  else
    { connection with readInFlight := true, reads := connection.reads + 1 }

def markClosed (connection : ThinConnection setup) : ThinConnection setup :=
  if connection.stopping then
    connection
  else
    { connection with stats := { connection.stats with closed := true } }

/-- `async_write` of the front of the queue. -/
def writeFront (connection : ThinConnection setup) : ThinConnection setup :=
  { connection with writes := connection.writes ++ connection.writeQueue.head?.toList }

/-- What `encode_client_control` makes of an acknowledgement. -/
def ackBytes (controls : ControlBuffers) (ack : WireAck) : controls.Buffer :=
  (encodeClientControl controls (.ack ack) {}).get rfl

def enqueueAck (connection : ThinConnection setup) (ack : WireAck) : ThinConnection setup :=
  let queued := { connection with
    writeQueue := connection.writeQueue ++ [ackBytes setup.controls ack] }
  if connection.writeInFlight then queued else { queued with writeInFlight := true }.writeFront

/-- `on_read` of a message; the socket hands over none that is too large. -/
def onFrame (connection : ThinConnection setup) (bytes : setup.frames.Buffer) :
    ThinConnection setup :=
  let stats := { connection.stats with frames := connection.stats.frames + 1 }
  let inspected := inspectServerFrame setup.frames bytes
  match inspected.1 with
  | .keyframe => ({ connection with
      stats := { stats with keyframes := stats.keyframes + 1 } }.enqueueAck inspected.2).maybeRead
  | .delta => ({ connection with
      stats := { stats with deltas := stats.deltas + 1 } }.enqueueAck inspected.2).maybeRead
  | .heartbeat =>
    { connection with stats := { stats with heartbeats := stats.heartbeats + 1 } }.maybeRead
  | .reliable =>
    { connection with stats := { stats with reliableEvents := stats.reliableEvents + 1 } }.maybeRead
  | .invalid => { connection with
      stats := { stats with parseFailures := stats.parseFailures + 1, closed := true } }

/-- `none` is an error. -/
def onRead (connection : ThinConnection setup) (message : Option setup.frames.Buffer) :
    ThinConnection setup :=
  let ready := { connection with readInFlight := false }
  match message.filter fun bytes => decide (setup.frames.size bytes ≤ setup.maxFrameBytes) with
  | none => ready.markClosed
  | some bytes => { ready with read := ready.read ++ [bytes] }.onFrame bytes

def onWrite (connection : ThinConnection setup) (ok : Bool) : ThinConnection setup :=
  if !ok then
    connection.markClosed
  else
    let sent := { connection with
      stats := { connection.stats with acksSent := connection.stats.acksSent + 1 }
      writeQueue := connection.writeQueue.tail }
    if sent.writeQueue.isEmpty then { sent with writeInFlight := false } else sent.writeFront

end ThinConnection

/-- `resume_reads` clears the flag and posts `maybe_read` after it. -/
inductive ThinEvent (setup : ThinSetup) where
  | connectFailed
  | established
  | pauseReads
  | resumeReads
  | post
  | posted
  | setStopping
  | readDone (message : Option setup.frames.Buffer)
  | writeDone (ok : Bool)

namespace ThinConnection

/-- `none` where the operation that completes is not under way. -/
def step (connection : ThinConnection setup) : ThinEvent setup → Option (ThinConnection setup)
  | .connectFailed =>
    if connection.stats.established || connection.stats.failed then none else
      some { connection with stats := { connection.stats with failed := true } }
  | .established =>
    if connection.stats.established || connection.stats.failed then none else
      some { connection with stats := { connection.stats with established := true } }.maybeRead
  | .pauseReads => some { connection with paused := true }
  | .resumeReads => some { connection with paused := false, resuming := connection.resuming + 1 }
  | .post =>
    if connection.resuming = 0 then none else
      some { connection with
        resuming := connection.resuming - 1
        posted := connection.posted + 1 }
  | .posted =>
    if connection.posted = 0 then none else
      some { connection with posted := connection.posted - 1 }.maybeRead
  | .setStopping => some { connection with stopping := true }
  | .readDone message =>
    if connection.reads = 0 then none else
      some ({ connection with reads := connection.reads - 1 }.onRead message)
  | .writeDone ok =>
    match connection.writes with
    | [] => none
    | bytes :: rest => some ({ connection with
        writes := rest
        delivered := if ok then connection.delivered ++ [bytes] else connection.delivered }.onWrite ok)

abbrev Step (before : ThinConnection setup) (event : ThinEvent setup)
    (after : ThinConnection setup) : Prop :=
  before.step event = some after

/-- The acknowledgement that a frame calls for. -/
def stateAck (buffers : StreamBuffers) (bytes : buffers.Buffer) : Option WireAck :=
  match (inspectServerFrame buffers bytes).1 with
  | .keyframe | .delta => some (inspectServerFrame buffers bytes).2
  | _ => none

/-- How many of the frames are of a kind. -/
def seen (read : List setup.frames.Buffer) (kind : InspectResult) : Nat :=
  read.countP fun bytes => (inspectServerFrame setup.frames bytes).1 = kind

/-- The counters say what was read and sent. -/
structure Counts (stats : ThinConnectionStats) (read : List setup.frames.Buffer)
    (delivered : List setup.controls.Buffer) : Prop where
  frames : stats.frames = read.length
  keyframes : stats.keyframes = seen read .keyframe
  deltas : stats.deltas = seen read .delta
  heartbeats : stats.heartbeats = seen read .heartbeat
  reliableEvents : stats.reliableEvents = seen read .reliable
  parseFailures : stats.parseFailures = seen read .invalid
  acksSent : stats.acksSent = delivered.length

/-- At most one operation of a kind is under way, the write is that of the front of the queue, and
the acknowledgements sent, queued and owed are those of the state frames read, in their order. -/
structure Core (connection : ThinConnection setup) (owed : List setup.controls.Buffer) : Prop where
  reads : connection.reads = if connection.readInFlight then 1 else 0
  idle : connection.writeInFlight = false → connection.writeQueue = [] ∧ connection.writes = []
  writes : connection.writes = [] ∨
    ∃ bytes rest, connection.writes = [bytes] ∧ connection.writeQueue = bytes :: rest
  stuck : connection.writeInFlight = true → connection.writes = [] →
    connection.stats.closed = true ∨ connection.stopping = true
  acks : connection.delivered ++ connection.writeQueue ++ owed =
    (connection.read.filterMap (stateAck setup.frames)).map (ackBytes setup.controls)
  malformed : seen connection.read .invalid ≤ 1 ∧ (seen connection.read .invalid ≠ 0 →
    connection.stats.closed = true ∧ connection.readInFlight = false)
  counts : Counts connection.stats connection.read connection.delivered

/-- While the connection is open and nothing holds it back, a read is under way. -/
structure Sound (connection : ThinConnection setup) : Prop extends connection.Core [] where
  reading : connection.stats.established = true → connection.paused = false →
    connection.posted = 0 → connection.resuming = 0 → connection.reads = 0 →
      connection.stats.closed = true ∨ connection.stopping = true

variable {connection : ThinConnection setup}

theorem Counts.flags {stats : ThinConnectionStats} {read : List setup.frames.Buffer}
    {delivered : List setup.controls.Buffer} (counts : Counts stats read delivered)
    (established failed closed : Bool) : Counts { stats with
      established := established, failed := failed, closed := closed } read delivered where
  frames := counts.frames
  keyframes := counts.keyframes
  deltas := counts.deltas
  heartbeats := counts.heartbeats
  reliableEvents := counts.reliableEvents
  parseFailures := counts.parseFailures
  acksSent := counts.acksSent

theorem Core.flags {owed : List setup.controls.Buffer} (core : connection.Core owed)
    (established failed paused : Bool) (posted resuming : Nat) : Core { connection with
      paused := paused
      posted := posted
      resuming := resuming
      stats := { connection.stats with established := established, failed := failed } } owed where
  reads := core.reads
  idle := core.idle
  writes := core.writes
  stuck := core.stuck
  acks := core.acks
  malformed := core.malformed
  counts := core.counts.flags _ _ _

theorem sound_start : Sound ({} : ThinConnection setup) where
  reads := rfl
  idle _ := ⟨rfl, rfl⟩
  writes := .inl rfl
  stuck writing := by cases writing
  acks := rfl
  malformed := ⟨Nat.zero_le 1, fun seen => absurd rfl seen⟩
  counts := ⟨rfl, rfl, rfl, rfl, rfl, rfl, rfl⟩
  reading established := by cases established

theorem Core.maybeRead (core : connection.Core []) : connection.maybeRead.Sound := by
  unfold ThinConnection.maybeRead
  split
  · rename_i held
    refine ⟨core, fun _ running _ _ none => ?_⟩
    rw [core.reads] at none
    cases reading : connection.readInFlight with
    | true => simp [reading] at none
    | false => exact .inl (by simpa [running, reading] using held)
  · rename_i free
    have still : connection.readInFlight = false := by
      cases reading : connection.readInFlight <;> simp_all
    have unclosed : connection.stats.closed = false := by
      cases closed : connection.stats.closed <;> simp_all
    refine ⟨⟨?_, core.idle, core.writes, core.stuck, core.acks, ⟨core.malformed.1, fun seen => ?_⟩,
      core.counts⟩, ?_⟩
    · simp [core.reads, still]
    · have closed := (core.malformed.2 seen).1
      rw [unclosed] at closed
      cases closed
    · exact fun _ _ _ _ none => absurd none (Nat.succ_ne_zero _)

theorem Core.markClosed (core : connection.Core []) : connection.markClosed.Sound := by
  unfold ThinConnection.markClosed
  split
  · rename_i stopping
    exact ⟨core, fun _ _ _ _ _ => .inr stopping⟩
  · exact ⟨⟨core.reads, core.idle, core.writes, fun _ _ => .inl rfl, core.acks,
      ⟨core.malformed.1, fun seen => ⟨rfl, (core.malformed.2 seen).2⟩⟩,
      core.counts.flags _ _ _⟩,
      fun _ _ _ _ _ => .inl rfl⟩

/-- Queueing what is owed starts a write where none is under way. -/
theorem Core.enqueueAck {ack : WireAck} (core : connection.Core [ackBytes setup.controls ack]) :
    (connection.enqueueAck ack).Core [] := by
  unfold ThinConnection.enqueueAck ThinConnection.writeFront
  cases writing : connection.writeInFlight with
  | true =>
    simp only [if_true]
    refine ⟨core.reads, fun idle => ?_, ?_, fun _ => core.stuck writing, ?_, core.malformed,
      core.counts⟩
    · cases idle
    · rcases core.writes with none | ⟨bytes, rest, one, queue⟩
      · exact .inl none
      · exact .inr ⟨bytes, rest ++ [ackBytes setup.controls ack], one, by
          simp only [queue, List.cons_append]⟩
    · simpa using core.acks
  | false =>
    obtain ⟨queue, writes⟩ := core.idle writing
    have owed := core.acks
    rw [queue] at owed
    simp only [Bool.false_eq_true, if_false]
    refine ⟨core.reads, (by rintro ⟨⟩), .inr ⟨ackBytes setup.controls ack, [], ?_, ?_⟩,
      fun _ none => ?_, ?_, core.malformed, core.counts⟩
    · simp [queue, writes]
    · simp [queue]
    · simp [queue, writes] at none
    · simpa [queue] using owed

theorem seen_append (read : List setup.frames.Buffer) (bytes : setup.frames.Buffer)
    (kind : InspectResult) : seen (read ++ [bytes]) kind =
      seen read kind + if (inspectServerFrame setup.frames bytes).1 = kind then 1 else 0 := by
  simp [seen, List.countP_append, List.countP_singleton]

/-- A well-formed frame owes its acknowledgement. -/
theorem Core.readFrame (core : connection.Core []) (bytes : setup.frames.Buffer)
    (stats : ThinConnectionStats) (formed : (inspectServerFrame setup.frames bytes).1 ≠ .invalid)
    (closed : stats.closed = connection.stats.closed)
    (counts : Counts stats (connection.read ++ [bytes]) connection.delivered) :
    Core { connection with read := connection.read ++ [bytes], stats := stats }
      ((stateAck setup.frames bytes).map (ackBytes setup.controls)).toList := by
  have same : seen (connection.read ++ [bytes]) .invalid = seen connection.read .invalid := by
    rw [seen_append, if_neg formed, Nat.add_zero]
  refine ⟨core.reads, core.idle, core.writes, fun writing none => ?_, ?_, ?_, counts⟩
  · rw [closed]
    exact core.stuck writing none
  · have before := core.acks
    rw [List.append_nil] at before
    rw [before, List.filterMap_append, List.map_append]
    cases owed : stateAck setup.frames bytes <;> simp [owed]
  · rw [same, closed]
    exact core.malformed

theorem Core.onFrame (core : connection.Core []) (fresh : seen connection.read .invalid = 0)
    (idle : connection.readInFlight = false) (bytes : setup.frames.Buffer) :
    ({ connection with read := connection.read ++ [bytes] }.onFrame bytes).Sound := by
  obtain ⟨frames, keyframes, deltas, heartbeats, reliables, failures, sent⟩ := core.counts
  have counted := seen_append connection.read bytes
  cases kind : (inspectServerFrame setup.frames bytes).1 with
  | keyframe =>
    have read := core.readFrame bytes { connection.stats with
      frames := connection.stats.frames + 1, keyframes := connection.stats.keyframes + 1 }
      (by rw [kind]; decide) rfl (by constructor <;> simp [*])
    simp only [stateAck, kind, Option.map_some, Option.toList_some] at read
    simp only [ThinConnection.onFrame, kind]
    exact read.enqueueAck.maybeRead
  | delta =>
    have read := core.readFrame bytes { connection.stats with
      frames := connection.stats.frames + 1, deltas := connection.stats.deltas + 1 }
      (by rw [kind]; decide) rfl (by constructor <;> simp [*])
    simp only [stateAck, kind, Option.map_some, Option.toList_some] at read
    simp only [ThinConnection.onFrame, kind]
    exact read.enqueueAck.maybeRead
  | heartbeat =>
    have read := core.readFrame bytes { connection.stats with
      frames := connection.stats.frames + 1, heartbeats := connection.stats.heartbeats + 1 }
      (by rw [kind]; decide) rfl (by constructor <;> simp [*])
    simp only [stateAck, kind, Option.map_none, Option.toList_none] at read
    simp only [ThinConnection.onFrame, kind]
    exact read.maybeRead
  | reliable =>
    have read := core.readFrame bytes { connection.stats with
      frames := connection.stats.frames + 1
      reliableEvents := connection.stats.reliableEvents + 1 }
      (by rw [kind]; decide) rfl (by constructor <;> simp [*])
    simp only [stateAck, kind, Option.map_none, Option.toList_none] at read
    simp only [ThinConnection.onFrame, kind]
    exact read.maybeRead
  | invalid =>
    simp only [ThinConnection.onFrame, kind]
    have one := counted .invalid
    rw [fresh, kind, if_pos rfl] at one
    refine ⟨⟨core.reads, core.idle, core.writes, fun _ _ => .inl rfl, ?_,
      ⟨one.le, fun _ => ⟨rfl, idle⟩⟩, ?_⟩, fun _ _ _ _ _ => .inl rfl⟩
    · have before := core.acks
      rw [List.append_nil] at before
      rw [List.append_nil, before, List.filterMap_append]
      simp [stateAck, kind]
    · constructor <;> simp [*]

theorem Sound.readDone (sound : connection.Sound) (busy : connection.reads ≠ 0)
    (message : Option setup.frames.Buffer) :
    ({ connection with reads := connection.reads - 1 }.onRead message).Sound := by
  have reading : connection.readInFlight = true := by
    by_contra still
    exact busy (by rw [sound.reads, if_neg still])
  have fresh : seen connection.read .invalid = 0 := by
    by_contra seen
    rw [(sound.malformed.2 seen).2] at reading
    cases reading
  have core : Core { connection with reads := connection.reads - 1, readInFlight := false } [] := by
    refine ⟨?_, sound.idle, sound.writes, sound.stuck, sound.acks,
      ⟨sound.malformed.1, fun seen => absurd fresh seen⟩, sound.counts⟩
    simp [sound.reads, reading]
  unfold ThinConnection.onRead
  cases message.filter fun bytes => decide (setup.frames.size bytes ≤ setup.maxFrameBytes) with
  | none => exact core.markClosed
  | some bytes => exact core.onFrame fresh rfl bytes

theorem Sound.writeDone (sound : connection.Sound) {bytes : setup.controls.Buffer}
    {rest : List setup.controls.Buffer} (busy : connection.writes = bytes :: rest) (ok : Bool) :
    ({ connection with
        writes := rest
        delivered := if ok then connection.delivered ++ [bytes] else connection.delivered
      }.onWrite ok).Sound := by
  obtain ⟨front, more, one, queue⟩ := sound.writes.resolve_left (by simp [busy])
  obtain ⟨rfl, rfl⟩ := List.cons.inj (busy.symm.trans one)
  have writing : connection.writeInFlight = true := by
    by_contra idle
    have none := (sound.idle (Bool.eq_false_iff.mpr idle)).2
    rw [busy] at none
    cases none
  have acks := sound.acks
  rw [queue, List.append_nil] at acks
  cases ok with
  | false =>
    simp only [onWrite, ThinConnection.markClosed, Bool.not_false, if_true, Bool.false_eq_true,
      if_false]
    split
    · rename_i stopping
      exact ⟨⟨sound.reads, fun idle => absurd (writing.symm.trans idle) (by decide), .inl rfl,
        fun _ _ => .inr stopping, sound.acks, sound.malformed, sound.counts⟩,
        fun _ _ _ _ _ => .inr stopping⟩
    · exact ⟨⟨sound.reads, fun idle => absurd (writing.symm.trans idle) (by decide), .inl rfl,
        fun _ _ => .inl rfl, sound.acks,
        ⟨sound.malformed.1, fun seen => ⟨rfl, (sound.malformed.2 seen).2⟩⟩,
        sound.counts.flags _ _ _⟩, fun _ _ _ _ _ => .inl rfl⟩
  | true =>
    have counts : Counts { connection.stats with acksSent := connection.stats.acksSent + 1 }
        connection.read (connection.delivered ++ [bytes]) := by
      refine { sound.counts with acksSent := ?_ }
      rw [List.length_append, ← sound.counts.acksSent]
      rfl
    have moved : connection.delivered ++ [bytes] ++ more =
        (connection.read.filterMap (stateAck setup.frames)).map (ackBytes setup.controls) := by
      rw [← acks, List.append_assoc]
      rfl
    simp only [onWrite, ThinConnection.writeFront, Bool.not_true, Bool.false_eq_true, if_false,
      if_true, queue, List.tail_cons]
    cases more with
    | nil =>
      refine ⟨⟨sound.reads, fun _ => ⟨rfl, rfl⟩, .inl rfl, (by rintro ⟨⟩), ?_, sound.malformed,
        counts⟩, sound.reading⟩
      simpa using moved
    | cons next others =>
      refine ⟨⟨sound.reads, fun idle => absurd (writing.symm.trans idle) (by decide),
        .inr ⟨next, others, rfl, rfl⟩, (by rintro - ⟨⟩), ?_, sound.malformed, counts⟩,
        sound.reading⟩
      simpa using moved

/-- Whatever happens next, and whichever operation completes, keeps the invariant. -/
theorem Sound.step (sound : connection.Sound) {event : ThinEvent setup}
    {after : ThinConnection setup} (stepped : connection.step event = some after) : after.Sound := by
  cases event with
  | connectFailed =>
    rw [ThinConnection.step] at stepped
    split at stepped
    · cases stepped
    · obtain rfl := Option.some.inj stepped
      exact ⟨sound.flags _ _ _ _ _, sound.reading⟩
  | established =>
    rw [ThinConnection.step] at stepped
    split at stepped
    · cases stepped
    · obtain rfl := Option.some.inj stepped
      exact (sound.flags _ _ _ _ _).maybeRead
  | pauseReads =>
    obtain rfl := Option.some.inj stepped
    exact ⟨sound.flags _ _ _ _ _, fun _ running => by cases running⟩
  | resumeReads =>
    obtain rfl := Option.some.inj stepped
    exact ⟨sound.flags _ _ _ _ _, fun _ _ _ none => absurd none (Nat.succ_ne_zero _)⟩
  | post =>
    rw [ThinConnection.step] at stepped
    split at stepped
    · cases stepped
    · obtain rfl := Option.some.inj stepped
      exact ⟨sound.flags _ _ _ _ _, fun _ _ none => absurd none (Nat.succ_ne_zero _)⟩
  | posted =>
    rw [ThinConnection.step] at stepped
    split at stepped
    · cases stepped
    · obtain rfl := Option.some.inj stepped
      exact (sound.flags _ _ _ _ _).maybeRead
  | setStopping =>
    obtain rfl := Option.some.inj stepped
    exact ⟨⟨sound.reads, sound.idle, sound.writes, fun _ _ => .inr rfl, sound.acks,
      sound.malformed, sound.counts⟩, fun _ _ _ _ _ => .inr rfl⟩
  | readDone message =>
    rw [ThinConnection.step] at stepped
    split at stepped
    · cases stepped
    · rename_i busy
      obtain rfl := Option.some.inj stepped
      exact sound.readDone busy message
  | writeDone ok =>
    cases busy : connection.writes with
    | nil =>
      simp only [ThinConnection.step, busy] at stepped
      cases stepped
    | cons bytes rest =>
      simp only [ThinConnection.step, busy, Option.some.injEq] at stepped
      subst stepped
      exact sound.writeDone busy ok

theorem sound_of_run {events : List (ThinEvent setup)} {connection : ThinConnection setup}
    (run : AnyRun ThinConnection.Step ({} : ThinConnection setup) events connection) :
    connection.Sound :=
  run.invariant sound_start fun _ _ _ _ stepped sound => sound.step stepped

@[simp]
theorem maybeRead_read (connection : ThinConnection setup) :
    connection.maybeRead.read = connection.read := by
  unfold ThinConnection.maybeRead
  split <;> rfl

@[simp]
theorem markClosed_read (connection : ThinConnection setup) :
    connection.markClosed.read = connection.read := by
  unfold ThinConnection.markClosed
  split <;> rfl

@[simp]
theorem enqueueAck_read (connection : ThinConnection setup) (ack : WireAck) :
    (connection.enqueueAck ack).read = connection.read := by
  unfold ThinConnection.enqueueAck
  split <;> rfl

@[simp]
theorem onFrame_read (connection : ThinConnection setup) (bytes : setup.frames.Buffer) :
    (connection.onFrame bytes).read = connection.read := by
  cases kind : (inspectServerFrame setup.frames bytes).1 <;>
    simp only [ThinConnection.onFrame, kind, maybeRead_read, enqueueAck_read]

@[simp]
theorem onWrite_read (connection : ThinConnection setup) (ok : Bool) :
    (connection.onWrite ok).read = connection.read := by
  cases ok with
  | false =>
    simp only [ThinConnection.onWrite, Bool.not_false, if_true]
    exact markClosed_read _
  | true =>
    simp only [ThinConnection.onWrite, Bool.not_true, Bool.false_eq_true, if_false]
    split <;> rfl

/-- Only a read that completes with a frame adds one to those read. -/
theorem read_step {event : ThinEvent setup} {after : ThinConnection setup}
    (stepped : connection.step event = some after) : after.read = connection.read ∨
      ∃ bytes, event = .readDone (some bytes) ∧ after.read = connection.read ++ [bytes] := by
  cases event with
  | readDone message =>
    rw [ThinConnection.step] at stepped
    split at stepped
    · cases stepped
    · obtain rfl := Option.some.inj stepped
      unfold ThinConnection.onRead
      cases message with
      | none => exact .inl (markClosed_read _)
      | some bytes =>
        by_cases small : setup.frames.size bytes ≤ setup.maxFrameBytes
        · exact .inr ⟨bytes, rfl, by simp [Option.filter, small]⟩
        · exact .inl (by simp [Option.filter, small])
  | writeDone ok =>
    left
    cases busy : connection.writes with
    | nil =>
      simp only [ThinConnection.step, busy] at stepped
      cases stepped
    | cons bytes rest =>
      simp only [ThinConnection.step, busy, Option.some.injEq] at stepped
      subst stepped
      exact onWrite_read _ ok
  | connectFailed | established | post | posted =>
    left
    rw [ThinConnection.step] at stepped
    split at stepped
    · cases stepped
    · obtain rfl := Option.some.inj stepped
      simp
  | pauseReads | resumeReads | setStopping =>
    obtain rfl := Option.some.inj stepped
    exact .inl rfl

/-- The acknowledgement that the full decoder would call for. -/
def frameAck : WireFrame → Option WireAck
  | .keyframe frame => some ⟨frame.streamEpoch, frame.snapshotId⟩
  | .delta frame => some ⟨frame.streamEpoch, frame.snapshotId⟩
  | .reliable _ | .heartbeat _ => none

theorem ok_of_bind {α β : Type} {first : Decoding α} {next : α → Decoding β} {result : β}
    (read : (first >>= next) = .ok result) :
    ∃ value, first = .ok value ∧ next value = .ok result := by
  cases first with
  | error failure => cases read
  | ok value => exact ⟨value, rfl, read⟩

theorem stateAck_of_root {buffers : StreamBuffers} {bytes : buffers.Buffer}
    (long : ¬ buffers.size bytes < minFrameBytes) (identified : buffers.hasIdentifier bytes = true)
    {limits : ProtocolLimits} {frame : WireFrame}
    (decoded : decodeRoot (buffers.getRoot bytes) limits = .ok frame) :
    stateAck buffers bytes = frameAck frame := by
  have named : (decide (buffers.size bytes < minFrameBytes) || !buffers.hasIdentifier bytes) =
      false := by
    simp [long, identified]
  unfold decodeRoot at decoded
  split at decoded
  · cases decoded
  cases tag : (buffers.getRoot bytes).frame with
  | none =>
    rw [tag] at decoded
    cases decoded
  | keyframe source =>
    rw [tag] at decoded
    obtain ⟨-, -, decoded⟩ := ok_of_bind decoded
    obtain ⟨entities, -, decoded⟩ := ok_of_bind decoded
    obtain rfl := Except.ok.inj decoded
    simp [stateAck, inspectServerFrame, named, tag, frameAck]
  | delta source =>
    rw [tag] at decoded
    obtain ⟨-, -, decoded⟩ := ok_of_bind decoded
    obtain ⟨enters, -, decoded⟩ := ok_of_bind decoded
    obtain ⟨updates, -, decoded⟩ := ok_of_bind decoded
    obtain ⟨leaves, -, decoded⟩ := ok_of_bind decoded
    obtain rfl := Except.ok.inj decoded
    simp [stateAck, inspectServerFrame, named, tag, frameAck]
  | reliable source =>
    rw [tag] at decoded
    obtain ⟨kind, -, decoded⟩ := ok_of_bind decoded
    obtain ⟨receipt, -, decoded⟩ := ok_of_bind decoded
    obtain rfl := Except.ok.inj decoded
    simp [stateAck, inspectServerFrame, named, tag, frameAck]
  | heartbeat source =>
    rw [tag] at decoded
    obtain rfl := Except.ok.inj decoded
    simp [stateAck, inspectServerFrame, named, tag, frameAck]

/-- The two numbers read without the verifier are those of the decoded frame. -/
theorem stateAck_of_decode {buffers : StreamBuffers} {bytes : buffers.Buffer}
    {limits : ProtocolLimits} {frame : WireFrame}
    (decoded : decodeServerFrame buffers bytes limits = .ok frame) :
    stateAck buffers bytes = frameAck frame := by
  unfold decodeServerFrame at decoded
  split at decoded
  · cases decoded
  split at decoded
  · cases decoded
  split at decoded
  · cases decoded
  rename_i long
  split at decoded
  · cases decoded
  rename_i identified
  split at decoded
  · cases decoded
  exact stateAck_of_root long (by simpa using identified) decoded

theorem decode_ackBytes {controls : ControlBuffers} (faithful : controls.Faithful)
    {limits : ProtocolLimits} {ack : WireAck}
    (fits : ControlWithin controls (ackBytes controls ack) (.ack ack) limits) :
    decodeClientControl controls (ackBytes controls ack) limits = .ok (.ack ack) :=
  (@decodeClientControl_eq_ok controls faithful (.ack ack) limits _).mpr ⟨fits, rfl⟩

/-- What the acknowledgements of a connection come to at the server. -/
structure AcksEveryState (connection : ThinConnection setup) (limits : ProtocolLimits) : Prop where
  sound : connection.Sound
  plain : ∀ bytes ∈ connection.read, ∀ limits frame,
    decodeServerFrame setup.frames bytes limits = .ok frame →
      stateAck setup.frames bytes = frameAck frame
  received : connection.delivered.map (fun bytes =>
      decodeClientControl setup.controls bytes limits) =
    ((connection.read.filterMap (stateAck setup.frames)).take connection.delivered.length).map
      fun ack => .ok (.ack ack)

/-- In every interleaving of reads, writes, pauses and stops, the server reads one acknowledgement
for each state frame, in their order, with the numbers a full decoder would find; no operation is
started twice, no queued acknowledgement and no read is forgotten, and nothing is read after a
malformed frame. -/
theorem thin_client_acknowledges (faithful : setup.controls.Faithful) {limits : ProtocolLimits}
    (fits : ∀ ack, ControlWithin setup.controls (ackBytes setup.controls ack) (.ack ack) limits)
    {events : List (ThinEvent setup)} {connection : ThinConnection setup}
    (run : AnyRun ThinConnection.Step ({} : ThinConnection setup) events connection) :
    connection.AcksEveryState limits := by
  have sound := sound_of_run run
  refine ⟨sound, fun bytes _ limits frame decoded => stateAck_of_decode decoded, ?_⟩
  have sent : connection.delivered =
      ((connection.read.filterMap (stateAck setup.frames)).take connection.delivered.length).map
        (ackBytes setup.controls) := by
    rw [List.map_take, ← sound.acks, List.append_nil, List.take_left]
  conv_lhs => rw [sent]
  rw [List.map_map]
  exact List.map_congr_left fun ack _ => decode_ackBytes faithful (fits ack)

/-- The runtimes of the wire that keep the tables. -/
def keptTables : ThinSetup where
  frames := traceBuffers
  controls := rootBuffers

def heartbeatBytes : traceBuffers.Buffer := traceBuffers.finish
  ⟨[.createHeartbeatFrame 7 3, .createWorldStreamFrame 1 4 0], ⟨1, ⟨1, .heartbeat ⟨7, 3⟩⟩⟩⟩

def deltaBytes (snapshotId : Nat) : traceBuffers.Buffer := traceBuffers.finish
  ⟨[], ⟨1, ⟨1, .delta
    ⟨⟨2, snapshotId, snapshotId, 0, 0, 0⟩, none, none, none⟩⟩⟩⟩

/-- A pause while a read is under way, and a second delta before the first write is done. -/
def pausedEvents : List (ThinEvent keptTables) :=
  [.established, .pauseReads, .readDone (some (deltaBytes 4)), .resumeReads, .post, .posted,
    .readDone (some heartbeatBytes), .readDone (some (deltaBytes 5)), .writeDone true]

theorem rootBuffers_admit (ack : WireAck) :
    ControlWithin rootBuffers (ackBytes rootBuffers ack) (.ack ack) {} where
  size := by
    change 48 ≤ 8 * 1024 * 1024
    decide
  tables := by decide
  nesting := by decide
  reason frame named := by cases named

theorem thin_client_acknowledges_paused : ∃ connection : ThinConnection keptTables,
    runLabels ThinConnection.step {} pausedEvents = some connection ∧
      connection.AcksEveryState {} ∧
        (connection.delivered.length, connection.writes.length) = (1, 1) := by
  have counted : (runLabels ThinConnection.step ({} : ThinConnection keptTables) pausedEvents).map
      (fun connection => (connection.delivered.length, connection.writes.length)) = some (1, 1) := by
    decide +kernel
  obtain ⟨connection, computed, sizes⟩ := Option.map_eq_some_iff.mp counted
  have run : AnyRun ThinConnection.Step ({} : ThinConnection keptTables) pausedEvents connection :=
    GuardedRun.of_runLabels computed fun _ _ => trivial
  exact ⟨connection, computed,
    thin_client_acknowledges rootBuffers_faithful rootBuffers_admit run, sizes⟩

end ThinConnection

end GeoWorld.Client
