import Mathlib
import GeoWorld.Gateway.LocalSession

/-!
The session of a connection that belongs to a shard. The main thread fills an outbox and asks
for a close, and each time posts a handler to the thread of the shard, which alone writes;
the handlers that were posted run in their order, the completion of a write comes between
them at any time.
-/

namespace GeoWorld.Gateway

open WorldModel Library

inductive Posted where
  | drainOutbox
  | handleCloseRequest
  deriving DecidableEq

structure ShardSession where
  outbox : List Message := []
  outboxBytes : Int := 0
  closeRequested : Bool := false
  kickPending : Bool := false
  posted : List Posted := []
  writeQueue : List Message := []
  /-- The message of the write that has not completed. -/
  currentWrite : Option Message := none
  writing : Bool := false
  closing : Bool := false
  closedReported : Bool := false
  enqueued : List Message := []
  written : List Message := []
  /-- How many messages had been enqueued when the close was asked for. -/
  owed : Option Nat := none
  /-- What had been written when the closing handshake was started. -/
  closeStarted : Option (List Message) := none

namespace ShardSession

variable (session : ShardSession)

/-- A drain is posted unless one is on its way. -/
def enqueue (message : Message) : ShardSession :=
  let session := { session with
    outboxBytes := session.outboxBytes + message.size
    outbox := session.outbox ++ [message]
    enqueued := session.enqueued ++ [message] }
  if session.kickPending then session
  else { session with
    kickPending := true
    posted := session.posted ++ [.drainOutbox] }

def requestClose : ShardSession :=
  if session.closeRequested then session
  else { session with
    closeRequested := true
    owed := some session.enqueued.length
    posted := session.posted ++ [.handleCloseRequest] }

def doClose : ShardSession :=
  if session.closing then session
  else { session with
    closing := true
    closeStarted := some session.written }

def writeNext : ShardSession :=
  match session.writeQueue with
  | [] =>
    let session := { session with writing := false }
    if session.closeRequested then session.doClose else session
  | first :: rest => { session with
      writing := true
      currentWrite := some first
      writeQueue := rest }

def drainOutbox : ShardSession :=
  let session := { session with
    kickPending := false
    writeQueue := session.writeQueue ++ session.outbox
    outbox := []
    outboxBytes := 0 }
  if session.writing then session else session.writeNext

def handleCloseRequest : ShardSession :=
  if session.writing then session else session.doClose

def onWrite : ShardSession :=
  { session with
    written := session.written ++ session.currentWrite.toList
    currentWrite := none : ShardSession }.writeNext

def reportClosed : ShardSession :=
  { session with closedReported := true }

end ShardSession

inductive ShardEvent where
  | enqueue (message : Message)
  | requestClose
  | runPosted
  | write
  | writeFail
  | readFail
  | closeDone
  deriving DecidableEq

def ShardSession.step (session : ShardSession) : ShardEvent → Option ShardSession
  | .enqueue message => some (session.enqueue message)
  | .requestClose => some session.requestClose
  | .runPosted =>
    match session.posted with
    | [] => none
    | .drainOutbox :: rest => some { session with posted := rest : ShardSession }.drainOutbox
    | .handleCloseRequest :: rest =>
      some { session with posted := rest : ShardSession }.handleCloseRequest
  | .write => if session.currentWrite.isSome then some session.onWrite else none
  | .writeFail =>
    if session.currentWrite.isSome then some { session.reportClosed with currentWrite := none }
    else none
  | .readFail => some session.reportClosed
  | .closeDone => if session.closeStarted.isSome then some session.reportClosed else none

/-- How many messages have left the outbox. -/
def ShardSession.drained (session : ShardSession) : Nat :=
  session.enqueued.length - session.outbox.length

/-- Messages are written once and in order; what is owed and every report are written before
the closing handshake; the counter stays a count. -/
structure ShardSession.Orderly (session : ShardSession) : Prop where
  messages : session.written <+: session.enqueued
  owed : ∀ written ∈ session.closeStarted, ∀ count ∈ session.owed,
    session.enqueued.take count <+: written
  report : ∀ written ∈ session.closeStarted, ∀ report,
    .protocolError report ∈ session.enqueued → .protocolError report ∈ written
  counter : session.outboxBytes = messageBytes session.outbox

/-- A report is enqueued before a close is asked for; and when the last write of the queue
completes behind a request to close, what is owed has left the outbox. -/
def ShardSession.Undisturbed (session : ShardSession) : ShardEvent → Prop
  | .enqueue (.protocolError _) => session.closeRequested = false
  | .write => session.writeQueue = [] → ∀ count ∈ session.owed, count ≤ session.drained
  | _ => True

namespace ShardSession

variable {session after : ShardSession}

/-- What is owed has left the outbox. -/
def OwedDrained (session : ShardSession) : Prop :=
  ∀ count ∈ session.owed, count ≤ session.drained

/-- What every moment keeps, also between the parts of a handler. A drain is posted while
something lies in the outbox, and before the handler of a close while something owed does. -/
structure Kept (session : ShardSession) : Prop where
  order : session.written ++ session.currentWrite.toList ++ session.writeQueue ++ session.outbox =
    session.enqueued ∨ session.written <+: session.enqueued ∧ session.writing = true ∧
      session.currentWrite = none
  counter : session.outboxBytes = messageBytes session.outbox
  shorter : session.outbox.length ≤ session.enqueued.length
  kicked : session.outbox ≠ [] → session.kickPending = true
  pending : session.kickPending = true → .drainOutbox ∈ session.posted
  behind : ∀ front back, session.posted = front ++ .handleCloseRequest :: back →
    .drainOutbox ∈ front ∨ session.OwedDrained
  handled : .handleCloseRequest ∈ session.posted → session.closeRequested = true
  asked : session.closeRequested = false → session.owed = none
  bound : ∀ count ∈ session.owed, count ≤ session.enqueued.length
  reports : session.closeRequested = true → ∃ count ∈ session.owed,
    ∀ report, .protocolError report ∈ session.enqueued →
      .protocolError report ∈ session.enqueued.take count
  begun : ∀ written ∈ session.closeStarted, session.closing = true ∧
    ∀ count ∈ session.owed, session.enqueued.take count <+: written
  closing : session.closing = true → session.closeRequested = true

/-- Between handlers nothing waits in the write queue of a session that does not write. -/
structure Inv (session : ShardSession) : Prop extends Kept session where
  idle : session.writing = false → session.currentWrite = none ∧ session.writeQueue = []

theorem Kept.written_prefix (kept : Kept session) : session.written <+: session.enqueued := by
  rcases kept.order with whole | ⟨first, -⟩
  · rw [← whole, List.append_assoc, List.append_assoc]
    exact List.prefix_append _ _
  · exact first

theorem Inv.orderly (inv : Inv session) : session.Orderly where
  messages := inv.written_prefix
  owed written begun := (inv.begun written begun).2
  report written begun report enqueued := by
    obtain ⟨closing, owed⟩ := inv.begun written begun
    obtain ⟨count, counted, within⟩ := inv.reports (inv.closing closing)
    exact (owed count counted).subset (within report enqueued)
  counter := inv.counter

/-- A handshake owes nothing that starts when everything that left the outbox is written. -/
theorem Kept.doClose (kept : Kept session) (requested : session.closeRequested = true)
    (whole : session.written ++ session.outbox = session.enqueued)
    (left : session.OwedDrained) : Kept session.doClose := by
  unfold ShardSession.doClose
  split
  · exact kept
  · refine { kept with
      begun := fun written begun => ?_
      closing := fun _ => requested }
    obtain rfl := Option.some.inj begun
    refine ⟨rfl, fun count owed => ?_⟩
    have length := congrArg List.length whole
    have left := left count owed
    rw [List.length_append] at length
    unfold ShardSession.drained at left
    have inside : count ≤ session.written.length := by omega
    simp only
    rw [← whole, List.take_append_of_le_length inside]
    exact List.take_prefix _ _

theorem writeNext_nil (empty : session.writeQueue = []) : session.writeNext =
    if session.closeRequested then { session with writing := false : ShardSession }.doClose
    else { session with writing := false } := by
  unfold ShardSession.writeNext
  rw [empty]

theorem writeNext_cons {first : Message} {rest : List Message}
    (queue : session.writeQueue = first :: rest) :
    session.writeNext = { session with
      writing := true
      currentWrite := some first
      writeQueue := rest } := by
  unfold ShardSession.writeNext
  rw [queue]

theorem Kept.writeNext (kept : Kept session) (none : session.currentWrite = none)
    (whole : session.written ++ session.writeQueue ++ session.outbox = session.enqueued)
    (drained : session.writeQueue = [] → session.OwedDrained) : Inv session.writeNext := by
  cases queue : session.writeQueue with
  | nil =>
    have stopped : Kept { session with writing := false } := {
      kept with order := .inl (by simpa [none] using whole) }
    rw [queue, List.append_nil] at whole
    rw [writeNext_nil queue]
    split
    · rename_i requested
      have closed := stopped.doClose requested whole (drained queue)
      refine { closed with idle := fun _ => ?_ }
      unfold ShardSession.doClose
      split
      · exact ⟨none, queue⟩
      · exact ⟨none, queue⟩
    · exact { stopped with idle := fun _ => ⟨none, queue⟩ }
  | cons first rest =>
    rw [writeNext_cons queue]
    exact { kept with
      order := .inl (by simpa [queue] using whole)
      idle := fun idle => absurd idle (by simp) }

theorem Kept.enqueue (kept : Kept session) {message : Message}
    (open_ : session.closeRequested = true → ∀ report, message ≠ .protocolError report) :
    Kept (session.enqueue message) := by
  have drained : ∀ other : ShardSession, other.outbox = session.outbox ++ [message] →
      other.enqueued = session.enqueued ++ [message] → other.owed = session.owed →
      session.OwedDrained → other.OwedDrained := by
    intro other outbox enqueued owed before count counted
    have less := before count (owed ▸ counted)
    unfold ShardSession.drained at less ⊢
    rw [outbox, enqueued, List.length_append, List.length_append]
    simpa using less
  have put : Kept { session with
      outboxBytes := session.outboxBytes + message.size
      outbox := session.outbox ++ [message]
      enqueued := session.enqueued ++ [message]
      kickPending := true
      posted := if session.kickPending then session.posted
        else session.posted ++ [.drainOutbox] } := {
    order := by
      rcases kept.order with whole | ⟨first, failed⟩
      · left
        rw [← List.append_assoc, whole]
      · exact .inr ⟨first.trans (List.prefix_append _ _), failed⟩
    counter := by
      have counter := kept.counter
      simp [counter]
    shorter := by
      have shorter := kept.shorter
      simp only [List.length_append]
      omega
    kicked := fun _ => rfl
    pending := fun _ => by
      simp only
      split
      · rename_i kick
        exact kept.pending kick
      · simp
    behind := by
      intro front back posted
      simp only at posted
      split at posted
      · exact (kept.behind front back posted).imp id (drained _ rfl rfl rfl)
      · rcases List.eq_nil_or_concat' back with rfl | ⟨rest, last, rfl⟩
        · have ends := congrArg List.getLast? posted
          simp at ends
        · rw [← List.cons_append, ← List.append_assoc] at posted
          have same := (List.append_inj' posted rfl).1
          exact (kept.behind front rest same).imp id (drained _ rfl rfl rfl)
    handled := by
      intro handled
      simp only at handled
      split at handled
      · exact kept.handled handled
      · refine kept.handled ?_
        simpa using handled
    asked := kept.asked
    bound := fun count owed => by
      have bound := kept.bound count owed
      rw [List.length_append]
      omega
    reports := fun requested => by
      obtain ⟨count, owed, within⟩ := kept.reports requested
      refine ⟨count, owed, fun report enqueued => ?_⟩
      simp only
      rw [List.take_append_of_le_length (kept.bound count owed)]
      rcases List.mem_append.mp enqueued with before | new
      · exact within report before
      · exact absurd (List.mem_singleton.mp new).symm (open_ requested report)
    begun := fun written begun => by
      obtain ⟨closing, owed⟩ := kept.begun written begun
      refine ⟨closing, fun count counted => ?_⟩
      simp only
      rw [List.take_append_of_le_length (kept.bound count counted)]
      exact owed count counted
    closing := kept.closing }
  unfold ShardSession.enqueue
  simp only
  split
  · rename_i kick
    rw [if_pos kick] at put
    simpa [← kick] using put
  · rename_i kick
    rw [if_neg kick] at put
    exact put

theorem Inv.enqueue (inv : Inv session) {message : Message}
    (open_ : session.closeRequested = true → ∀ report, message ≠ .protocolError report) :
    Inv (session.enqueue message) := by
  have same : (session.enqueue message).writing = session.writing ∧
      (session.enqueue message).currentWrite = session.currentWrite ∧
      (session.enqueue message).writeQueue = session.writeQueue := by
    unfold ShardSession.enqueue
    simp only
    split
    · exact ⟨rfl, rfl, rfl⟩
    · exact ⟨rfl, rfl, rfl⟩
  refine { inv.toKept.enqueue open_ with idle := fun idle => ?_ }
  rw [same.2.1, same.2.2]
  exact inv.idle (same.1.symm.trans idle)

/-- Whatever lies in the outbox when a close is asked for has a drain before the handler. -/
theorem Inv.requestClose (inv : Inv session) : Inv session.requestClose := by
  unfold ShardSession.requestClose
  split
  · exact inv
  rename_i open_
  have open_ : session.closeRequested = false := Bool.eq_false_iff.mpr open_
  have unowed := inv.asked open_
  refine { inv with
    pending := fun kick => List.mem_append_left _ (inv.pending kick)
    behind := fun front back posted => ?_
    handled := fun _ => rfl
    asked := fun open_ => absurd open_ (by simp)
    bound := fun count owed => ?_
    reports := fun _ => ⟨_, rfl, fun report enqueued => by simpa using enqueued⟩
    begun := fun written begun => ?_
    closing := fun _ => rfl }
  · by_cases empty : session.outbox = []
    · right
      intro count owed
      obtain rfl := Option.some.inj owed
      simp [ShardSession.drained, empty]
    · have drain := inv.pending (inv.kicked empty)
      have unhandled : .handleCloseRequest ∉ session.posted := fun handled =>
        absurd (inv.handled handled) (by simp [open_])
      rcases List.eq_nil_or_concat' back with rfl | ⟨rest, last, rfl⟩
      · left
        have same := (List.append_inj' posted rfl).1
        exact same ▸ drain
      · rw [← List.cons_append, ← List.append_assoc] at posted
        have same := (List.append_inj' posted rfl).1
        exact absurd (by rw [same]; simp) unhandled
  · obtain rfl := Option.some.inj owed
    exact le_rfl
  · have closing := (inv.begun written begun).1
    exact absurd (inv.closing closing) (by simp [open_])

/-- Behind a drain nothing is left in the outbox. -/
theorem Inv.drainOutbox {rest : List Posted} (inv : Inv session)
    (posted : session.posted = .drainOutbox :: rest) :
    Inv { session with posted := rest : ShardSession }.drainOutbox := by
  have all : ∀ other : ShardSession, other.outbox = [] → other.enqueued = session.enqueued →
      other.owed = session.owed → other.OwedDrained := by
    intro other outbox enqueued owed count counted
    have bound := inv.bound count (owed ▸ counted)
    unfold ShardSession.drained
    rw [outbox, enqueued]
    simpa using bound
  have kept : Kept { session with
      posted := rest
      kickPending := false
      writeQueue := session.writeQueue ++ session.outbox
      outbox := []
      outboxBytes := 0 } := {
    inv.toKept with
    order := by
      rcases inv.order with whole | failed
      · left
        simpa using whole
      · exact .inr failed
    counter := rfl
    shorter := Nat.zero_le _
    kicked := fun some => absurd rfl some
    pending := fun kick => absurd kick (by simp)
    behind := fun _ _ _ => .inr (all _ rfl rfl rfl)
    handled := fun handled => inv.handled (by rw [posted]; exact List.mem_cons_of_mem _ handled) }
  unfold ShardSession.drainOutbox
  simp only
  split
  · rename_i busy
    exact { kept with idle := fun idle => absurd idle (by simp [busy]) }
  · rename_i idle
    have still : session.writing = false := Bool.eq_false_iff.mpr idle
    obtain ⟨none, nothing⟩ := inv.idle still
    refine kept.writeNext none ?_ fun _ => all _ rfl rfl rfl
    rcases inv.order with whole | ⟨-, writing, -⟩
    · simpa [none, nothing] using whole
    · exact absurd writing (by simp [still])

theorem Inv.handleCloseRequest {rest : List Posted} (inv : Inv session)
    (posted : session.posted = .handleCloseRequest :: rest) :
    Inv { session with posted := rest : ShardSession }.handleCloseRequest := by
  have left := (inv.behind [] rest posted).resolve_left (by simp)
  have kept : Kept { session with posted := rest } := {
    inv.toKept with
    pending := fun kick => by
      have drain := inv.pending kick
      rw [posted] at drain
      exact (List.mem_cons.mp drain).resolve_left (by decide)
    behind := fun _ _ _ => .inr left
    handled := fun handled => inv.handled (by rw [posted]; exact List.mem_cons_of_mem _ handled) }
  unfold ShardSession.handleCloseRequest
  simp only
  split
  · exact { kept with idle := inv.idle }
  · rename_i idle
    have still : session.writing = false := Bool.eq_false_iff.mpr idle
    obtain ⟨none, nothing⟩ := inv.idle still
    have whole : session.written ++ session.outbox = session.enqueued := by
      rcases inv.order with whole | ⟨-, writing, -⟩
      · simpa [none, nothing] using whole
      · exact absurd writing (by simp [still])
    have requested := inv.handled (by rw [posted]; simp)
    refine { kept.doClose requested whole left with idle := fun _ => ?_ }
    unfold ShardSession.doClose
    split
    · exact ⟨none, nothing⟩
    · exact ⟨none, nothing⟩

theorem Inv.onWrite (inv : Inv session) {message : Message}
    (current : session.currentWrite = some message)
    (left : session.writeQueue = [] → session.OwedDrained) : Inv session.onWrite := by
  have whole : session.written ++ [message] ++ session.writeQueue ++ session.outbox =
      session.enqueued := by
    rcases inv.order with whole | ⟨-, -, none⟩
    · simpa [current] using whole
    · exact absurd (none.symm.trans current) (by simp)
  have kept : Kept { session with
      written := session.written ++ [message]
      currentWrite := none } := { inv.toKept with order := .inl (by simpa using whole) }
  unfold ShardSession.onWrite
  rw [current]
  exact kept.writeNext rfl whole left

theorem step_inv {event : ShardEvent} (step : session.step event = some after)
    (undisturbed : session.Undisturbed event) (inv : Inv session) : Inv after := by
  cases event with
  | enqueue message =>
    obtain rfl := Option.some.inj step
    refine inv.enqueue fun requested report same => ?_
    subst same
    have free : session.closeRequested = false := undisturbed
    exact absurd requested (by simp [free])
  | requestClose =>
    obtain rfl := Option.some.inj step
    exact inv.requestClose
  | runPosted =>
    simp only [ShardSession.step] at step
    split at step
    · cases step
    · rename_i posted
      obtain rfl := Option.some.inj step
      exact inv.drainOutbox posted
    · rename_i posted
      obtain rfl := Option.some.inj step
      exact inv.handleCloseRequest posted
  | write =>
    simp only [ShardSession.step, Option.ite_none_right_eq_some] at step
    obtain ⟨current, same⟩ := step
    obtain rfl := Option.some.inj same
    obtain ⟨message, current⟩ := Option.isSome_iff_exists.mp current
    exact inv.onWrite current undisturbed
  | writeFail =>
    simp only [ShardSession.step, Option.ite_none_right_eq_some] at step
    obtain ⟨current, same⟩ := step
    obtain rfl := Option.some.inj same
    have writing : session.writing = true := by
      by_contra idle
      rw [(inv.idle (Bool.eq_false_iff.mpr idle)).1] at current
      cases current
    exact { inv with
      order := .inr ⟨inv.written_prefix, writing, rfl⟩
      idle := fun idle => absurd (idle.symm.trans writing) (by simp) }
  | readFail =>
    obtain rfl := Option.some.inj step
    exact { inv with }
  | closeDone =>
    simp only [ShardSession.step, Option.ite_none_right_eq_some] at step
    obtain ⟨-, same⟩ := step
    obtain rfl := Option.some.inj same
    exact { inv with }

theorem inv_start : Inv {} where
  order := .inl rfl
  counter := rfl
  shorter := le_rfl
  kicked some := absurd rfl some
  pending kick := absurd kick (by decide)
  behind front back posted := absurd posted (by simp)
  handled handled := absurd handled (by simp)
  asked _ := rfl
  bound count owed := absurd owed (by simp)
  reports requested := absurd requested (by decide)
  begun written begun := absurd begun (by simp)
  closing closing := absurd closing (by decide)
  idle _ := ⟨rfl, rfl⟩

end ShardSession

end GeoWorld.Gateway
