import Mathlib
import GeoWorld.Gateway.Admission
import GeoWorld.Library.History
import GeoWorld.Library.Runs

/-!
Stream tickets: issued to a session, redeemed once, worthless when their time is over or
their session is closed. The clock and the token generator are outside; what they answer
comes with the call.
-/

namespace GeoWorld.Gateway

open WorldModel Library

structure TicketState where
  session : SessionId
  expiresAt : Nat
  deriving DecidableEq

abbrev Tickets := Std.ExtTreeMap ByteString TicketState compare

namespace Tickets

/-- `issue_ticket` with the token that the generator answers; an unknown session gets the
empty string. -/
def issue (tickets : Tickets) (sessions : SessionManager) (id : SessionId) (token : ByteString)
    (expiresAt : Nat) : ByteString × Tickets :=
  match sessions.find id with
  | none => ([], tickets)
  | some _ => (token, tickets.insertIfNew token ⟨id, expiresAt⟩)

/-- `redeem_ticket`: a ticket that is taken out is used up. -/
def redeem (tickets : Tickets) (sessions : SessionManager) (now : Nat) (token : ByteString) :
    Option SessionInfo × Tickets :=
  match tickets[token]? with
  | none => (none, tickets)
  | some state =>
    (if state.expiresAt < now then none else sessions.find state.session, tickets.erase token)

/-- The loop of `close`. -/
def revoke (tickets : Tickets) (id : SessionId) : Tickets :=
  tickets.filter fun _ state => state.session != id

end Tickets

/-- `SessionManager` with its tickets and its clock, in nanoseconds. -/
structure TicketManager where
  ticketTtlSeconds : Nat := 30
  sessions : SessionManager := {}
  tickets : Tickets := ∅
  now : Nat := 0

namespace TicketManager

def lifetime (manager : TicketManager) : Nat :=
  manager.ticketTtlSeconds * 1000000000

def issueTicket (manager : TicketManager) (id : SessionId) (token : ByteString) :
    ByteString × TicketManager :=
  let (ticket, tickets) :=
    manager.tickets.issue manager.sessions id token (manager.now + manager.lifetime)
  (ticket, { manager with tickets := tickets })

def redeemTicket (manager : TicketManager) (token : ByteString) :
    Option SessionInfo × TicketManager :=
  let (session, tickets) := manager.tickets.redeem manager.sessions manager.now token
  (session, { manager with tickets := tickets })

def close (manager : TicketManager) (id : SessionId) : TicketManager :=
  { manager with
    sessions := manager.sessions.close id
    tickets := manager.tickets.revoke id }

end TicketManager

inductive TicketCall where
  | open (principal : Principal)
  | issueTicket (id : SessionId) (token : ByteString)
  | redeemTicket (token : ByteString)
  | close (id : SessionId)
  | advance (elapsed : Nat)

/-- What an observer of the calls notes down. -/
inductive TicketEvent where
  | opened (id : SessionId)
  | issued (id : SessionId) (token : ByteString) (time : Nat)
  | redeemed (token : ByteString)
  | closed (id : SessionId)
  deriving DecidableEq

structure WatchedTickets where
  manager : TicketManager
  history : List TicketEvent := []

namespace WatchedTickets

def step (watched : WatchedTickets) : TicketCall → WatchedTickets
  | .open principal =>
    let (id, sessions) := watched.manager.sessions.open principal
    { manager := { watched.manager with sessions := sessions }
      history := if id = 0 then watched.history else .opened id :: watched.history }
  | .issueTicket id token =>
    { manager := (watched.manager.issueTicket id token).2
      history := if (watched.manager.sessions.find id).isSome then
          .issued id token watched.manager.now :: watched.history
        else watched.history }
  | .redeemTicket token =>
    { manager := (watched.manager.redeemTicket token).2
      history := .redeemed token :: watched.history }
  | .close id =>
    { manager := watched.manager.close id
      history := .closed id :: watched.history }
  | .advance elapsed =>
    { watched with manager := { watched.manager with now := watched.manager.now + elapsed } }

def start (maxSessions ticketTtlSeconds : Nat) : WatchedTickets where
  manager := { ticketTtlSeconds := ticketTtlSeconds, sessions := { maxSessions := maxSessions } }

/-- The generator does not answer with a token that could still be redeemed. -/
def FreshToken (watched : WatchedTickets) : TicketCall → Prop
  | .issueTicket _ token => ∀ state ∈ watched.manager.tickets[token]?,
      state.expiresAt < watched.manager.now
  | _ => True

/-- The counter of session ids has not come back to 0. -/
def IdsLeft (watched : WatchedTickets) : TicketCall → Prop
  | .open _ => watched.manager.sessions.nextSessionValue ≠ 0
  | _ => True

/-- The ids that were given out, the last one first. -/
def openedIds (watched : WatchedTickets) : List SessionId :=
  watched.history.filterMap fun event =>
    match event with
    | .opened id => some id
    | _ => none

/-- Neither used up nor revoked nor issued again. -/
def Unspent (id : SessionId) (token : ByteString) (event : TicketEvent) : Prop :=
  event ≠ .redeemed token ∧ event ≠ .closed id ∧ ∀ other time, event ≠ .issued other token time

/-- A ticket admits only to the session it was last issued to, in its lifetime, once, and
not after that session was closed; closing a session leaves the tickets of others alone. -/
structure TicketsSound (watched : WatchedTickets) : Prop where
  redeems : ∀ token info, (watched.manager.redeemTicket token).1 = some info →
    Since (fun event => ∃ time, event = .issued info.id token time ∧
        watched.manager.now ≤ time + watched.manager.lifetime)
      (Unspent info.id token) watched.history
  others : ∀ id token info, info.id ≠ id →
    (((watched.step (.close id)).manager.redeemTicket token).1 = some info ↔
      (watched.manager.redeemTicket token).1 = some info)

section Invariant

variable {watched : WatchedTickets}

theorem lookup_revoke (tickets : Tickets) (id : SessionId) (token : ByteString)
    (state : TicketState) :
    (tickets.revoke id)[token]? = some state ↔
      tickets[token]? = some state ∧ state.session ≠ id := by
  rw [Tickets.revoke, Std.ExtTreeMap.getElem?_filter']
  simp [Option.filter_eq_some_iff]

/-- The record of a ticket in the history: how it came to be, with nothing since then that
would have ended it. -/
def Backed (history : List TicketEvent) (lifetime : Nat) (token : ByteString)
    (state : TicketState) : Prop :=
  Since (fun event => ∃ time, event = .issued state.session token time ∧
    state.expiresAt = time + lifetime) (Unspent state.session token) history

structure TicketsInv (watched : WatchedTickets) : Prop where
  named : ∀ id info, watched.manager.sessions.find id = some info → info.id = id
  backed : ∀ (token : ByteString) (state : TicketState),
    watched.manager.tickets[token]? = some state → state.expiresAt < watched.manager.now ∨
      Backed watched.history watched.manager.lifetime token state

theorem open_cases (sessions : SessionManager) (principal : Principal) :
    sessions.open principal = (0, sessions) ∨
      sessions.open principal = (sessions.nextSessionValue, { sessions with
        nextSessionValue := sessions.nextSessionValue + 1
        sessions := sessions.sessions.insertIfNew sessions.nextSessionValue
          ⟨sessions.nextSessionValue, principal⟩ }) := by
  unfold SessionManager.open
  split
  · exact .inl rfl
  · exact .inr rfl

theorem open_named {sessions : SessionManager} (principal : Principal)
    (named : ∀ id info, sessions.find id = some info → info.id = id) :
    ∀ id info, (sessions.open principal).2.find id = some info → info.id = id := by
  intro id info found
  obtain same | same := open_cases sessions principal
  · rw [same] at found
    exact named id info found
  · rw [same, SessionManager.find, lookup_insertIfNew_or] at found
    obtain old | ⟨-, fresh⟩ := Option.or_eq_some_iff.mp found
    · exact named id info old
    · split at fresh
      · rename_i own
        rw [← Option.some.inj fresh, own]
      · cases fresh

theorem TicketsInv.step (inv : TicketsInv watched) {call : TicketCall}
    (fresh : FreshToken watched call) : TicketsInv (watched.step call) := by
  cases call with
  | «open» principal =>
    refine ⟨open_named principal inv.named, fun token state held => ?_⟩
    refine (inv.backed token state held).imp_right fun backed => ?_
    simp only [WatchedTickets.step]
    split
    · exact backed
    · exact backed.later ⟨by simp, by simp, by simp⟩
  | issueTicket id token =>
    refine ⟨inv.named, fun other state held => ?_⟩
    simp only [WatchedTickets.step, TicketManager.issueTicket, Tickets.issue] at held ⊢
    cases known : watched.manager.sessions.find id with
    | none =>
      rw [known] at held
      simpa using inv.backed other state held
    | some info =>
      rw [known] at held
      simp only [Option.isSome_some, if_true, lookup_insertIfNew_or] at held ⊢
      obtain old | ⟨-, issued⟩ := Option.or_eq_some_iff.mp held
      · by_cases same : other = token
        · exact .inl (fresh state (same ▸ old))
        · refine (inv.backed other state old).imp_right fun backed => backed.later ?_
          exact ⟨by simp, by simp, by simp [Ne.symm same]⟩
      · split at issued
        · rename_i same
          obtain rfl := Option.some.inj issued
          exact .inr (.now ⟨watched.manager.now, by rw [same], rfl⟩)
        · cases issued
  | redeemTicket token =>
    refine ⟨inv.named, fun other state held => ?_⟩
    have kept : other ≠ token ∧ watched.manager.tickets[other]? = some state := by
      simp only [WatchedTickets.step, TicketManager.redeemTicket, Tickets.redeem] at held
      cases known : watched.manager.tickets[token]? with
      | none =>
        rw [known] at held
        refine ⟨fun same => ?_, held⟩
        rw [same, known] at held
        cases held
      | some ticket =>
        rw [known] at held
        simp only [lookup_erase] at held
        split at held
        · cases held
        · exact ⟨‹_›, held⟩
    refine (inv.backed other state kept.2).imp_right fun backed => backed.later ?_
    exact ⟨by simp [Ne.symm kept.1], by simp, by simp⟩
  | close id =>
    refine ⟨fun other info found => ?_, fun token state held => ?_⟩
    · simp only [WatchedTickets.step, TicketManager.close, SessionManager.close,
        SessionManager.find, lookup_erase] at found
      split at found
      · cases found
      · exact inv.named other info found
    · obtain ⟨old, other⟩ := (lookup_revoke watched.manager.tickets id token state).mp held
      refine (inv.backed token state old).imp_right fun backed => backed.later ?_
      exact ⟨by simp, by simp [Ne.symm other], by simp⟩
  | advance elapsed =>
    refine ⟨inv.named, fun token state held => ?_⟩
    refine (inv.backed token state held).imp_left fun ended => ?_
    exact ended.trans_le (Nat.le_add_right _ _)

theorem inv_start (maxSessions ticketTtlSeconds : Nat) :
    TicketsInv (start maxSessions ticketTtlSeconds) := by
  refine ⟨fun id info found => ?_, fun token state held => ?_⟩
  · simp [start, SessionManager.find] at found
  · simp [start] at held

/-- What a redeemed ticket was worth. -/
theorem redeemTicket_eq_some {token : ByteString} {info : SessionInfo} :
    (watched.manager.redeemTicket token).1 = some info ↔
      ∃ state, watched.manager.tickets[token]? = some state ∧
        watched.manager.now ≤ state.expiresAt ∧
        watched.manager.sessions.find state.session = some info := by
  simp only [TicketManager.redeemTicket, Tickets.redeem]
  cases held : watched.manager.tickets[token]? with
  | none => simp
  | some state =>
    by_cases ended : state.expiresAt < watched.manager.now
    · simp [ended]
    · simp [ended, Nat.not_lt.mp ended]

theorem TicketsInv.sound (inv : TicketsInv watched) : TicketsSound watched := by
  constructor
  · intro token info redeemed
    obtain ⟨state, held, alive, found⟩ := redeemTicket_eq_some.mp redeemed
    have own := inv.named state.session info found
    have backed := (inv.backed token state held).resolve_left (Nat.not_lt.mpr alive)
    rw [own]
    refine backed.mono ?_
    rintro event ⟨time, rfl, expires⟩
    exact ⟨time, rfl, expires ▸ alive⟩
  · intro id token info other
    rw [redeemTicket_eq_some, redeemTicket_eq_some]
    refine exists_congr fun state => ?_
    simp only [WatchedTickets.step, TicketManager.close, lookup_revoke, SessionManager.close,
      SessionManager.find, lookup_erase]
    constructor
    · rintro ⟨⟨held, apart⟩, alive, found⟩
      rw [if_neg apart] at found
      exact ⟨held, alive, found⟩
    · rintro ⟨held, alive, found⟩
      have own := inv.named state.session info found
      have apart : state.session ≠ id := own ▸ other
      rw [if_neg apart]
      exact ⟨⟨held, apart⟩, alive, found⟩

/-- The ids given out are distinct and below the counter, until it has run through. -/
structure IdsInv (watched : WatchedTickets) : Prop where
  distinct : watched.openedIds.Nodup
  below : watched.manager.sessions.nextSessionValue = 0 ∨
    ∀ id ∈ watched.openedIds, id < watched.manager.sessions.nextSessionValue

theorem openedIds_opened (manager : TicketManager) (id : SessionId)
    (history : List TicketEvent) :
    openedIds ⟨manager, .opened id :: history⟩ = id :: openedIds ⟨manager, history⟩ :=
  rfl

theorem id_lt_succ {id : SessionId} (left : id + 1 ≠ 0) : id < id + 1 := by
  have bound := id.toNat_lt
  have nonzero : (id + 1).toNat ≠ 0 := fun zero => left (UInt64.toNat_inj.mp zero)
  rw [UInt64.lt_iff_toNat_lt]
  simp only [UInt64.toNat_add, UInt64.toNat_one] at nonzero ⊢
  omega

theorem IdsInv.step (inv : IdsInv watched) {call : TicketCall} (left : IdsLeft watched call) :
    IdsInv (watched.step call) := by
  cases call with
  | «open» principal =>
    obtain same | same := open_cases watched.manager.sessions principal
    · simp only [WatchedTickets.step, same]
      exact inv
    · have later := inv.below.resolve_left left
      have new : watched.manager.sessions.nextSessionValue ∉ watched.openedIds := fun member =>
        UInt64.lt_irrefl _ (later _ member)
      simp only [WatchedTickets.step, same, if_neg left]
      refine ⟨List.nodup_cons.mpr ⟨new, inv.distinct⟩, or_iff_not_imp_left.mpr fun nonzero => ?_⟩
      have counted := id_lt_succ nonzero
      rw [openedIds_opened, List.forall_mem_cons]
      exact ⟨counted, fun id member => UInt64.lt_trans (later id member) counted⟩
  | issueTicket id token =>
    simp only [WatchedTickets.step]
    split
    · exact ⟨inv.distinct, inv.below⟩
    · exact ⟨inv.distinct, inv.below⟩
  | redeemTicket token => exact ⟨inv.distinct, inv.below⟩
  | close id => exact ⟨inv.distinct, inv.below⟩
  | advance elapsed => exact ⟨inv.distinct, inv.below⟩

end Invariant

section Results

/-- One call as a step between states. -/
abbrev Calls (before : WatchedTickets) (call : TicketCall) (after : WatchedTickets) : Prop :=
  before.step call = after

/-- In every interleaving a ticket admits once, to the session it was issued to, within its
lifetime and not after the close; and as long as the counter of ids has not run through, no
id is given out twice. -/
theorem stream_tickets_one_time {maxSessions ticketTtlSeconds : Nat} {calls : List TicketCall}
    {finish : WatchedTickets}
    (run : GuardedRun Calls FreshToken (start maxSessions ticketTtlSeconds) calls finish) :
    TicketsSound finish ∧
      (GuardedRun Calls IdsLeft (start maxSessions ticketTtlSeconds) calls finish →
        finish.openedIds.Nodup) := by
  constructor
  · refine (run.invariant (inv_start maxSessions ticketTtlSeconds) ?_).sound
    rintro before call _ fresh rfl inv
    exact inv.step fresh
  · intro counted
    have initially : IdsInv (start maxSessions ticketTtlSeconds) :=
      ⟨List.nodup_nil, .inr (by simp [start, openedIds])⟩
    refine (counted.invariant initially ?_).distinct
    rintro before call _ left rfl inv
    exact inv.step left

/-- A session is opened and gets a ticket; a second passes. -/
def ticketCalls : List TicketCall :=
  [.open ⟨[1], false⟩, .issueTicket 1 [65], .advance 1000000000]

theorem stream_tickets_one_time_fresh :
    ((ticketCalls.foldl step (start 8 30)).manager.redeemTicket [65]).1 = some ⟨1, ⟨[1], false⟩⟩ ∧
      TicketsSound (ticketCalls.foldl step (start 8 30)) ∧
      (ticketCalls.foldl step (start 8 30)).openedIds.Nodup := by
  have unused : FreshToken ((start 8 30).step (.open ⟨[1], false⟩)) (.issueTicket 1 [65]) := by
    intro state held
    simp [step, start, SessionManager.open] at held
  have law := @stream_tickets_one_time 8 30 ticketCalls _
    (.cons trivial rfl (.cons unused rfl (.cons trivial rfl (.nil _))))
  refine ⟨by decide +kernel, law.1, law.2 ?_⟩
  have left : IdsLeft (start 8 30) (.open ⟨[1], false⟩) := show (1 : UInt64) ≠ 0 by decide
  exact .cons left rfl (.cons trivial rfl (.cons trivial rfl (.nil _)))

/-- A session that is opened while no other is, and closed again. -/
theorem round_sessions {watched : WatchedTickets}
    (room : 0 < watched.manager.sessions.maxSessions)
    (empty : watched.manager.sessions.sessions = ∅) :
    ((watched.step (.open ⟨[], false⟩)).step
      (.close watched.manager.sessions.nextSessionValue)).manager.sessions =
      { watched.manager.sessions with
        nextSessionValue := watched.manager.sessions.nextSessionValue + 1 } := by
  simp only [step, TicketManager.close, SessionManager.open, SessionManager.close, empty,
    Std.ExtTreeMap.size_empty, if_neg (Nat.not_le.mpr room), SessionManager.mk.injEq, true_and,
    and_true]
  refine Std.ExtTreeMap.ext_getElem? fun id => ?_
  rw [lookup_erase, lookup_insertIfNew_or]
  split
  · simp
  · simp

theorem rounds_run (count : Nat) (watched : WatchedTickets)
    (room : 0 < watched.manager.sessions.maxSessions)
    (empty : watched.manager.sessions.sessions = ∅) :
    ∃ calls finish, GuardedRun Calls FreshToken watched calls finish ∧
      finish.manager.sessions = { watched.manager.sessions with
        nextSessionValue := watched.manager.sessions.nextSessionValue + UInt64.ofNat count } ∧
      ∃ newer, finish.history = newer ++ watched.history := by
  induction count generalizing watched with
  | zero => exact ⟨[], watched, .nil watched, by simp, [], rfl⟩
  | succ count ih =>
    have sessions := round_sessions room empty
    obtain ⟨calls, finish, run, same, newer, history⟩ := ih
      ((watched.step (.open ⟨[], false⟩)).step (.close watched.manager.sessions.nextSessionValue))
      (by rw [sessions]; exact room) (by rw [sessions]; exact empty)
    refine ⟨.open ⟨[], false⟩ :: .close watched.manager.sessions.nextSessionValue :: calls,
      finish, .cons trivial rfl (.cons trivial rfl run), ?_, ?_⟩
    · rw [same, sessions]
      simp only [SessionManager.mk.injEq, true_and, and_true]
      rw [UInt64.add_assoc, UInt64.add_comm 1, ← UInt64.ofNat_one, ← UInt64.ofNat_add]
    · rw [history]
      simp only [step]
      split
      · exact ⟨newer ++ [_], by rw [List.append_assoc]; rfl⟩
      · exact ⟨newer ++ [_, _], by rw [List.append_assoc]; rfl⟩

/-- After `2 ^ 64 - 1` more sessions the counter comes back to an id it has given out. -/
theorem session_id_comes_back :
    ¬ ∀ (maxSessions ticketTtlSeconds : Nat) (calls : List TicketCall) (finish : WatchedTickets),
      GuardedRun Calls FreshToken (start maxSessions ticketTtlSeconds) calls finish →
        TicketsSound finish ∧ finish.openedIds.Nodup := by
  intro claim
  have first : GuardedRun Calls FreshToken (start 1 30) [.open ⟨[], false⟩, .close 1] _ :=
    .cons trivial rfl (.cons trivial rfl (.nil _))
  have sessions := @round_sessions (start 1 30) (by decide) rfl
  obtain ⟨calls, finish, rounds, same, newer, history⟩ := rounds_run (2 ^ 64 - 1) _
    (by rw [sessions]; decide) (by rw [sessions]; rfl)
  have last : GuardedRun Calls FreshToken finish [.open ⟨[], false⟩]
      (finish.step (.open ⟨[], false⟩)) := .cons trivial rfl (.nil _)
  have distinct := (claim 1 30 _ _ ((first.append rounds).append last)).2
  have counter : finish.manager.sessions = { maxSessions := 1 } := by
    rw [same, sessions]
    rfl
  have again : (finish.step (.open ⟨[], false⟩)).openedIds = 1 :: finish.openedIds := by
    simp only [step, counter]
    rfl
  have before : 1 ∈ finish.openedIds := by
    rw [openedIds, history, List.filterMap_append]
    exact List.mem_append_right _ (by decide)
  rw [again] at distinct
  exact (List.nodup_cons.mp distinct).1 before

end Results

end WatchedTickets

end GeoWorld.Gateway
