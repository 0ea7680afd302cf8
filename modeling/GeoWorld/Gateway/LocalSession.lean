import Mathlib
import GeoWorld.Library.Runs
import GeoWorld.WorldModel.Object

/-!
The session of a connection that stays on the main thread. One write is in flight at a time
and its message stays at the head of the queue until it completes; a malformed frame puts an
error message before the head.
-/

namespace GeoWorld.Gateway

open WorldModel Library

/-- What a session writes: the frames it is given, and its report of a malformed input. -/
inductive Message where
  | frame (bytes : ByteString)
  | protocolError (bytes : ByteString)
  deriving DecidableEq

def Message.bytes : Message → ByteString
  | .frame bytes => bytes
  | .protocolError bytes => bytes

def Message.size (message : Message) : Nat :=
  message.bytes.length

def messageBytes (messages : List Message) : Nat :=
  (messages.map Message.size).sum

def framesOf (messages : List Message) : List ByteString :=
  messages.filterMap fun
    | .frame bytes => some bytes
    | .protocolError _ => none

def reportsOf (messages : List Message) : List ByteString :=
  messages.filterMap fun
    | .frame _ => none
    | .protocolError bytes => some bytes

section Messages

variable (front back : List Message)

@[simp] theorem messageBytes_nil : messageBytes [] = 0 :=
  rfl

@[simp] theorem messageBytes_cons (message : Message) :
    messageBytes (message :: back) = message.size + messageBytes back := by
  simp [messageBytes]

@[simp] theorem messageBytes_append :
    messageBytes (front ++ back) = messageBytes front + messageBytes back := by
  simp [messageBytes]

@[simp] theorem framesOf_append : framesOf (front ++ back) = framesOf front ++ framesOf back := by
  simp [framesOf]

@[simp] theorem reportsOf_append :
    reportsOf (front ++ back) = reportsOf front ++ reportsOf back := by
  simp [reportsOf]

@[simp] theorem framesOf_nil : framesOf [] = [] :=
  rfl

@[simp] theorem reportsOf_nil : reportsOf [] = [] :=
  rfl

@[simp] theorem framesOf_frame (bytes : ByteString) :
    framesOf (.frame bytes :: back) = bytes :: framesOf back :=
  rfl

@[simp] theorem framesOf_report (bytes : ByteString) :
    framesOf (.protocolError bytes :: back) = framesOf back :=
  rfl

@[simp] theorem reportsOf_frame (bytes : ByteString) :
    reportsOf (.frame bytes :: back) = reportsOf back :=
  rfl

@[simp] theorem reportsOf_report (bytes : ByteString) :
    reportsOf (.protocolError bytes :: back) = bytes :: reportsOf back :=
  rfl

end Messages

/-- The byte counter is an integer, so that it would be seen to fall below zero. -/
structure LocalSession where
  outbound : List Message := []
  queuedBytes : Int := 0
  accepting : Bool := true
  accepted : Bool := false
  reading : Bool := false
  writing : Bool := false
  closing : Bool := false
  closed : Bool := false
  /-- The buffer of the write that has not completed. -/
  inFlight : Option Message := none
  enqueued : List ByteString := []
  reported : Option ByteString := none
  written : List Message := []
  /-- How many frames had been enqueued when a close was first asked for. -/
  owed : Option Nat := none
  /-- What had been written when the closing handshake was first started. -/
  closeStarted : Option (List Message) := none

namespace LocalSession

variable (session : LocalSession)

def doClose : LocalSession :=
  { session with closeStarted := session.closeStarted.or (some session.written) }

def markClosed : LocalSession :=
  { session with closed := true }

def writeNext : LocalSession :=
  match session.outbound with
  | [] =>
    let session := { session with writing := false }
    if session.closing then session.doClose else session
  | first :: _ => { session with writing := true, inFlight := some first }

/-- A close is asked for: what was enqueued before it is owed. -/
def askClose : LocalSession :=
  { session with closing := true, owed := session.owed.or (some session.enqueued.length) }

def close : LocalSession :=
  if session.closing || session.closed then session
  else
    let session := session.askClose
    if session.writing then session else session.doClose

def enqueue (bytes : ByteString) : LocalSession :=
  let session := { session with
    queuedBytes := session.queuedBytes + bytes.length
    outbound := session.outbound ++ [.frame bytes]
    enqueued := session.enqueued ++ [bytes] }
  if !session.writing && !session.closed && session.accepted then session.writeNext else session

/-- The upgrade succeeds; the session begins to read. -/
def onAccept : LocalSession :=
  let session := { session with accepting := false, accepted := true, reading := true }
  if session.outbound ≠ [] && !session.writing then session.writeNext else session

/-- A frame that does not decode: the error message is put before the head of the queue. -/
def onMalformed (report : ByteString) : LocalSession :=
  let session := { session.askClose with
    reading := false
    reported := some report
    outbound := .protocolError report :: session.outbound
    queuedBytes := session.queuedBytes + report.length }
  if session.writing then session else session.writeNext

/-- The write completes: the head of the queue is taken to be what was written. -/
def onWrite : LocalSession :=
  let session := { session with
    written := session.written ++ session.inFlight.toList
    inFlight := none }
  match session.outbound with
  | [] => session
  | first :: rest =>
    { session with queuedBytes := session.queuedBytes - first.size, outbound := rest }.writeNext

end LocalSession

inductive LocalEvent where
  | enqueue (bytes : ByteString)
  | accept
  | acceptFail
  | control
  | malformed (report : ByteString)
  | readFail
  | write
  | writeFail
  | close
  | closeDone
  deriving DecidableEq

/-- The callbacks come from what was started: an accept, a read, a write, a close. -/
def LocalSession.step (session : LocalSession) : LocalEvent → Option LocalSession
  | .enqueue bytes => some (session.enqueue bytes)
  | .accept => if session.accepting then some session.onAccept else none
  | .acceptFail =>
    if session.accepting then some { session.markClosed with accepting := false } else none
  | .control => if session.reading then some session else none
  | .malformed report => if session.reading then some (session.onMalformed report) else none
  | .readFail => if session.reading then some { session.markClosed with reading := false } else none
  | .write => if session.inFlight.isSome then some session.onWrite else none
  | .writeFail =>
    if session.inFlight.isSome then some { session.markClosed with inFlight := none } else none
  | .close => some session.close
  | .closeDone => if session.closeStarted.isSome then some session.markClosed else none

/-- Frames are written once and in order, with at most one report between them; what is owed
and the report are written before the closing handshake; the counter stays a count. -/
structure LocalSession.Orderly (session : LocalSession) : Prop where
  frames : framesOf session.written <+: session.enqueued
  reports : reportsOf session.written <+: session.reported.toList
  owed : ∀ written ∈ session.closeStarted, ∀ count ∈ session.owed,
    session.enqueued.take count <+: framesOf written
  report : ∀ written ∈ session.closeStarted, ∀ report ∈ session.reported,
    .protocolError report ∈ written
  counter : session.queuedBytes = messageBytes session.outbound

/-- A malformed frame comes while nothing is written and the close has not begun; a close is
asked for when nothing waits for the upgrade. -/
def LocalSession.Undisturbed (session : LocalSession) : LocalEvent → Prop
  | .malformed _ => session.writing = false ∧ session.closeStarted = none
  | .close => session.accepted ∨ session.outbound = []
  | _ => True

namespace LocalSession

variable {session after : LocalSession}

theorem mem_reportsOf {messages : List Message} {bytes : ByteString} :
    bytes ∈ reportsOf messages ↔ .protocolError bytes ∈ messages := by
  induction messages with
  | nil => simp
  | cons message rest ih =>
    cases message with
    | frame other => simp [ih]
    | protocolError other => simp [ih]

/-- What every moment keeps, also between the parts of a callback: the written messages and
the queue are the enqueued frames with the report, and a handshake that was started owes
nothing. -/
structure Kept (session : LocalSession) : Prop where
  order : framesOf (session.written ++ session.outbound) = session.enqueued
  reports : reportsOf (session.written ++ session.outbound) = session.reported.toList
  counter : session.queuedBytes = messageBytes session.outbound
  unread : session.reading = true → session.reported = none
  accepts : session.reading = true → session.accepted = true
  early : session.accepting = true → session.accepted = false ∧ session.reading = false ∧
    session.writing = false ∧ session.reported = none
  bound : ∀ count ∈ session.owed, count ≤ session.enqueued.length
  asked : session.closing = false → session.owed = none ∧ session.reported = none
  begun : ∀ written ∈ session.closeStarted, session.closing = true ∧
    (∀ count ∈ session.owed, session.enqueued.take count <+: framesOf written) ∧
    ∀ report ∈ session.reported, .protocolError report ∈ written

/-- Between callbacks the head of the queue is what is being written, and nothing waits in a
session that could write. -/
structure Inv (session : LocalSession) : Prop extends Kept session where
  flight : ∀ message ∈ session.inFlight,
    session.outbound.head? = some message ∧ session.writing = true ∧ session.accepted = true
  idle : session.writing = false → session.accepted = true →
    session.closed = true ∨ session.outbound = []

theorem Inv.orderly (inv : Inv session) : session.Orderly where
  frames := ⟨framesOf session.outbound, by rw [← framesOf_append, inv.order]⟩
  reports := ⟨reportsOf session.outbound, by rw [← reportsOf_append, inv.reports]⟩
  owed written begun := (inv.begun written begun).2.1
  report written begun := (inv.begun written begun).2.2
  counter := inv.counter

/-- A handshake that starts when nothing waits owes nothing. -/
theorem Kept.doClose (kept : Kept session) (empty : session.outbound = [])
    (closing : session.closing = true) : Kept session.doClose where
  order := kept.order
  reports := kept.reports
  counter := kept.counter
  unread := kept.unread
  accepts := kept.accepts
  early := kept.early
  bound := kept.bound
  asked := kept.asked
  begun := by
    intro written begun
    have order := kept.order
    have reports := kept.reports
    rw [empty, List.append_nil] at order reports
    cases before : session.closeStarted with
    | some earlier =>
      refine kept.begun written ?_
      simpa [LocalSession.doClose, before] using begun
    | none =>
      obtain rfl : session.written = written := by
        simpa [LocalSession.doClose, before] using begun
      refine ⟨closing, fun count owed => ?_, fun report told => ?_⟩
      · rw [order]
        exact List.take_prefix _ _
      · rw [← mem_reportsOf, reports]
        exact Option.mem_toList.mpr told

theorem writeNext_nil (empty : session.outbound = []) : session.writeNext =
    if session.closing then { session with writing := false }.doClose
    else { session with writing := false } := by
  unfold LocalSession.writeNext
  rw [empty]

theorem writeNext_cons {first : Message} {rest : List Message}
    (queue : session.outbound = first :: rest) :
    session.writeNext = { session with writing := true, inFlight := some first } := by
  unfold LocalSession.writeNext
  rw [queue]

theorem Kept.writeNext (kept : Kept session) (none : session.inFlight = none)
    (accepted : session.accepted = true) : Inv session.writeNext := by
  have late : session.accepting = false := by
    cases accepting : session.accepting with
    | false => rfl
    | true => exact absurd accepted (by simp [(kept.early accepting).1])
  cases queue : session.outbound with
  | nil =>
    have stopped : Kept { session with writing := false } := {
      kept with early := fun accepting => absurd accepting (by simp [late]) }
    rw [writeNext_nil queue]
    split
    · rename_i closing
      exact {
        stopped.doClose queue closing with
        flight := fun message flying => absurd flying (by simp [LocalSession.doClose, none])
        idle := fun _ _ => .inr queue }
    · exact {
        stopped with
        flight := fun message flying => absurd flying (by simp [none])
        idle := fun _ _ => .inr queue }
  | cons first rest =>
    rw [writeNext_cons queue]
    exact {
      kept with
      early := fun accepting => absurd accepting (by simp [late])
      flight := fun message flying => by
        obtain rfl := Option.some.inj flying
        exact ⟨by simp [queue], rfl, accepted⟩
      idle := fun idle => absurd idle (by simp) }

theorem Kept.enqueue (kept : Kept session) (bytes : ByteString) :
    Kept { session with
      queuedBytes := session.queuedBytes + bytes.length
      outbound := session.outbound ++ [.frame bytes]
      enqueued := session.enqueued ++ [bytes] } where
  order := by
    rw [← List.append_assoc, framesOf_append, kept.order]
    rfl
  reports := by
    rw [← List.append_assoc, reportsOf_append, kept.reports]
    exact List.append_nil _
  counter := by
    have counter := kept.counter
    simp [counter, Message.size, Message.bytes]
  unread := kept.unread
  accepts := kept.accepts
  early := kept.early
  bound count owed := by
    have before := kept.bound count owed
    rw [List.length_append]
    omega
  asked := kept.asked
  begun written begun := by
    obtain ⟨closing, owed, told⟩ := kept.begun written begun
    refine ⟨closing, fun count counted => ?_, told⟩
    rw [List.take_append_of_le_length (kept.bound count counted)]
    exact owed count counted

theorem Inv.enqueue (inv : Inv session) (bytes : ByteString) : Inv (session.enqueue bytes) := by
  have kept := inv.toKept.enqueue bytes
  unfold LocalSession.enqueue
  simp only
  split
  · rename_i free
    simp only [Bool.and_eq_true, Bool.not_eq_true'] at free
    refine kept.writeNext ?_ free.2
    cases flying : session.inFlight with
    | none => rfl
    | some message => exact absurd (inv.flight message flying).2.1 (by simp [free.1.1])
  · rename_i busy
    refine { kept with
      flight := fun message flying => ?_
      idle := fun idle accepted => ?_ }
    · obtain ⟨head, writing, accepted⟩ := inv.flight message flying
      exact ⟨by simp [List.head?_append, head], writing, accepted⟩
    · simp only at idle accepted
      rw [idle, accepted] at busy
      simpa using busy

theorem Kept.notBegun (kept : Kept session) (open_ : session.closing = false) :
    session.closeStarted = none := by
  cases begun : session.closeStarted with
  | none => rfl
  | some written => exact absurd (kept.begun written begun).1 (by simp [open_])

/-- Asking for a close owes what has been enqueued so far. -/
theorem Kept.askClose (kept : Kept session) (none : session.closeStarted = none) :
    Kept session.askClose where
  order := kept.order
  reports := kept.reports
  counter := kept.counter
  unread := kept.unread
  accepts := kept.accepts
  early := kept.early
  bound count owed := by
    cases before : session.owed with
    | some earlier =>
      refine kept.bound count ?_
      simpa [LocalSession.askClose, before] using owed
    | none =>
      have here : session.enqueued.length = count := by
        simpa [LocalSession.askClose, before] using owed
      exact here.ge
  asked open_ := absurd open_ (by simp [LocalSession.askClose])
  begun written begun := absurd begun (by simp [LocalSession.askClose, none])

theorem Inv.close (inv : Inv session)
    (free : session.accepted = true ∨ session.outbound = []) : Inv session.close := by
  unfold LocalSession.close
  split
  · exact inv
  rename_i open_
  simp only [Bool.or_eq_true, not_or, Bool.not_eq_true] at open_
  have kept := inv.toKept.askClose (inv.toKept.notBegun open_.1)
  simp only
  split
  · exact { kept with flight := inv.flight, idle := inv.idle }
  · rename_i idle
    have still : session.writing = false := Bool.eq_false_iff.mpr idle
    have empty : session.outbound = [] := by
      rcases free with accepted | empty
      · exact (inv.idle still accepted).resolve_left (by simp [open_.2])
      · exact empty
    exact { kept.doClose empty rfl with flight := inv.flight, idle := inv.idle }

theorem Inv.onAccept (inv : Inv session) (accepting : session.accepting = true) :
    Inv session.onAccept := by
  obtain ⟨-, -, idle, unreported⟩ := inv.early accepting
  have kept : Kept { session with accepting := false, accepted := true, reading := true } := {
    inv.toKept with
    unread := fun _ => unreported
    accepts := fun _ => rfl
    early := fun accepting => absurd accepting (by simp) }
  have grounded : session.inFlight = none := by
    cases flying : session.inFlight with
    | none => rfl
    | some message => exact absurd (inv.flight message flying).2.1 (by simp [idle])
  unfold LocalSession.onAccept
  simp only
  split
  · exact kept.writeNext grounded rfl
  · rename_i nothing
    refine { kept with
      flight := fun message flying => absurd flying (by simp [grounded])
      idle := fun _ _ => .inr ?_ }
    simpa [idle] using nothing

theorem Inv.onMalformed (inv : Inv session) (reading : session.reading = true)
    (idle : session.writing = false) (none : session.closeStarted = none) (report : ByteString) :
    Inv (session.onMalformed report) := by
  have unreported := inv.unread reading
  have accepted := inv.accepts reading
  have kept : Kept { session.askClose with
      reading := false
      reported := some report
      outbound := .protocolError report :: session.outbound
      queuedBytes := session.queuedBytes + report.length } := {
    inv.toKept.askClose none with
    order := by
      have order := inv.order
      rw [framesOf_append] at order ⊢
      exact order
    reports := by
      have reports := inv.reports
      rw [unreported, reportsOf_append, Option.toList_none, List.append_eq_nil_iff] at reports
      rw [reportsOf_append]
      simp [reports.1, reports.2, LocalSession.askClose]
    counter := by
      have counter := inv.counter
      simp only [counter, messageBytes_cons, Message.size, Message.bytes]
      omega
    unread := fun reading => absurd reading (by simp)
    accepts := fun reading => absurd reading (by simp)
    early := fun accepting => by
      have early := (inv.early accepting).2.1
      rw [reading] at early
      cases early
    asked := fun open_ => absurd open_ (by simp [LocalSession.askClose])
    begun := fun written begun => absurd begun (by simp [LocalSession.askClose, none]) }
  have grounded : session.inFlight = Option.none := by
    cases flying : session.inFlight with
    | none => rfl
    | some message => exact absurd (inv.flight message flying).2.1 (by simp [idle])
  unfold LocalSession.onMalformed
  simp only
  rw [if_neg (by simp [LocalSession.askClose, idle])]
  exact kept.writeNext grounded accepted

theorem Inv.onWrite (inv : Inv session) {message : Message}
    (flying : session.inFlight = some message) : Inv session.onWrite := by
  obtain ⟨head, writing, accepted⟩ := inv.flight message flying
  obtain ⟨rest, queue⟩ := List.head?_eq_some_iff.mp head
  have same : session.written ++ [message] ++ rest = session.written ++ session.outbound := by
    rw [queue, List.append_assoc]
    rfl
  have kept : Kept { session with
      written := session.written ++ [message]
      inFlight := none
      queuedBytes := session.queuedBytes - message.size
      outbound := rest } := {
    inv.toKept with
    order := by
      simp only
      rw [same]
      exact inv.order
    reports := by
      simp only
      rw [same]
      exact inv.reports
    counter := by
      have counter := inv.counter
      rw [queue, messageBytes_cons] at counter
      simp only
      omega }
  have shape : session.onWrite = { session with
      written := session.written ++ [message]
      inFlight := none
      queuedBytes := session.queuedBytes - message.size
      outbound := rest : LocalSession }.writeNext := by
    unfold LocalSession.onWrite
    simp only [flying, queue]
    rfl
  rw [shape]
  exact kept.writeNext rfl accepted

theorem step_inv {event : LocalEvent} (step : session.step event = some after)
    (undisturbed : session.Undisturbed event) (inv : Inv session) : Inv after := by
  cases event with
  | enqueue bytes =>
    obtain rfl := Option.some.inj step
    exact inv.enqueue bytes
  | accept =>
    simp only [LocalSession.step, Option.ite_none_right_eq_some] at step
    obtain ⟨accepting, same⟩ := step
    obtain rfl := Option.some.inj same
    exact inv.onAccept accepting
  | acceptFail =>
    simp only [LocalSession.step, Option.ite_none_right_eq_some] at step
    obtain ⟨accepting, same⟩ := step
    obtain rfl := Option.some.inj same
    exact { inv with
      early := fun accepting => absurd accepting (by simp)
      idle := fun _ _ => .inl rfl }
  | control =>
    simp only [LocalSession.step, Option.ite_none_right_eq_some] at step
    obtain ⟨-, same⟩ := step
    obtain rfl := Option.some.inj same
    exact inv
  | malformed report =>
    simp only [LocalSession.step, Option.ite_none_right_eq_some] at step
    obtain ⟨reading, same⟩ := step
    obtain rfl := Option.some.inj same
    exact inv.onMalformed reading undisturbed.1 undisturbed.2 report
  | readFail =>
    simp only [LocalSession.step, Option.ite_none_right_eq_some] at step
    obtain ⟨-, same⟩ := step
    obtain rfl := Option.some.inj same
    exact { inv with
      unread := fun reading => absurd reading (by simp)
      accepts := fun reading => absurd reading (by simp)
      early := fun accepting =>
        let ⟨accepted, _, writing, unreported⟩ := inv.early accepting
        ⟨accepted, rfl, writing, unreported⟩
      idle := fun _ _ => .inl rfl }
  | write =>
    simp only [LocalSession.step, Option.ite_none_right_eq_some] at step
    obtain ⟨flying, same⟩ := step
    obtain rfl := Option.some.inj same
    obtain ⟨message, flying⟩ := Option.isSome_iff_exists.mp flying
    exact inv.onWrite flying
  | writeFail =>
    simp only [LocalSession.step, Option.ite_none_right_eq_some] at step
    obtain ⟨-, same⟩ := step
    obtain rfl := Option.some.inj same
    exact { inv with
      flight := fun message flying => absurd flying (by simp)
      idle := fun _ _ => .inl rfl }
  | close =>
    obtain rfl := Option.some.inj step
    exact inv.close undisturbed
  | closeDone =>
    simp only [LocalSession.step, Option.ite_none_right_eq_some] at step
    obtain ⟨-, same⟩ := step
    obtain rfl := Option.some.inj same
    exact { inv with idle := fun _ _ => .inl rfl }

theorem inv_start : Inv {} where
  order := rfl
  reports := rfl
  counter := rfl
  unread _ := rfl
  accepts reading := absurd reading (by decide)
  early _ := ⟨rfl, rfl, rfl, rfl⟩
  bound count owed := absurd owed (by simp)
  asked _ := ⟨rfl, rfl⟩
  begun written begun := absurd begun (by simp)
  flight message flying := absurd flying (by simp)
  idle _ accepted := absurd accepted (by decide)

end LocalSession

end GeoWorld.Gateway
