import Mathlib
import GeoWorld.Library.NumberedQueue
import GeoWorld.WorldModel.Object

/-!
The event bus: events are numbered when they are scheduled and leave when their tick has
come, by tick, by falling priority and by number. The subscriptions of a bus are not
stored with its events and are left out.
-/

namespace GeoWorld.Rules

open WorldModel Library

/-- `rules::Event`; the priority is an `int`. -/
structure Event where
  sequence : UInt64 := 0
  targetTick : UInt64 := 0
  priority : Int32 := 0
  type : ByteString := []
  subject : WorldId := 0
  payload : PropertyBag := ∅
  deriving DecidableEq

structure EventBusSnapshot where
  nextSequence : UInt64 := 1
  pending : List Event := []
  deriving DecidableEq

/-- What an `EventBus` stores, and what its snapshot copies. -/
abbrev EventBus := EventBusSnapshot

/-- The comparison `drain` sorts by. -/
def Event.less (left right : Event) : Bool :=
  if left.targetTick ≠ right.targetTick then
    left.targetTick < right.targetTick
  else if left.priority ≠ right.priority then
    right.priority < left.priority
  else
    left.sequence < right.sequence

namespace EventBus

def schedule (bus : EventBus) (event : Event) : UInt64 × EventBus :=
  (bus.nextSequence, {
    nextSequence := bus.nextSequence + 1
    pending := bus.pending ++ [{ event with sequence := bus.nextSequence }] })

def publish (bus : EventBus) (targetTick : UInt64) (priority : Int32) (type : ByteString)
    (subject : WorldId) (payload : PropertyBag) : UInt64 × EventBus :=
  bus.schedule ⟨0, targetTick, priority, type, subject, payload⟩

/-- A stable sort leaves an event in front of those that are not less. -/
def ordered (bus : EventBus) : List Event :=
  bus.pending.insertionSort fun left right => !right.less left

def drain (bus : EventBus) (tick : UInt64) : List Event × EventBus :=
  (bus.ordered.filter fun event => event.targetTick ≤ tick,
    { bus with pending := bus.ordered.filter fun event => !decide (event.targetTick ≤ tick) })

/-- `none` is the answer false, which leaves the bus as it was. -/
def restore (snapshot : EventBusSnapshot) : Option EventBus :=
  if snapshot.nextSequence = 0 then
    none
  else
    let sorted := byNumber Event.sequence snapshot.pending
    if numberedFrom Event.sequence (fun event => !event.type.isEmpty) snapshot.nextSequence 0
        sorted then
      some { snapshot with pending := sorted }
    else
      none

end EventBus

section Order

/-- The place of an event in the order of `drain`. -/
def Event.place (event : Event) : ℕ ×ₗ ℤ ×ₗ ℕ :=
  toLex (event.targetTick.toNat, toLex (-event.priority.toInt, event.sequence.toNat))

theorem Event.less_iff (left right : Event) : left.less right ↔ left.place < right.place := by
  have tick : left.targetTick = right.targetTick ↔
      left.targetTick.toNat = right.targetTick.toNat := UInt64.toNat_inj.symm
  have priority : left.priority = right.priority ↔
      left.priority.toInt = right.priority.toInt := Int32.toInt_inj.symm
  unfold Event.less Event.place
  simp only [Prod.Lex.toLex_lt_toLex, neg_lt_neg_iff, neg_inj, ne_eq, tick, priority]
  split_ifs with ticks priorities <;>
    simp [*, UInt64.lt_iff_toNat_lt, Int32.lt_iff_toInt_lt]

theorem Event.not_less_iff (left right : Event) : !right.less left ↔ left.place ≤ right.place := by
  rw [← not_lt, ← Event.less_iff, Bool.not_eq_true', Bool.not_eq_true]

theorem Event.not_less_total : Std.Total fun left right : Event => (!right.less left) = true :=
  ⟨fun left right => by simpa only [Event.not_less_iff] using le_total left.place right.place⟩

theorem Event.not_less_trans : IsTrans Event fun left right => (!right.less left) = true :=
  ⟨fun one two three => by simpa only [Event.not_less_iff] using le_trans⟩

theorem Event.tick_le_of_place_le {left right : Event} (le : left.place ≤ right.place) :
    left.targetTick ≤ right.targetTick := by
  rw [UInt64.le_iff_toNat_le]
  exact (Prod.Lex.monotone_fst _ _ le :)

end Order

namespace EventBus

theorem ordered_perm (bus : EventBus) : bus.ordered.Perm bus.pending :=
  List.perm_insertionSort _ _

theorem ordered_ascending (bus : EventBus) :
    bus.ordered.Pairwise fun left right => left.place ≤ right.place := by
  have total := Event.not_less_total
  have transitive := Event.not_less_trans
  exact (List.pairwise_insertionSort _ bus.pending).imp fun before =>
    (Event.not_less_iff _ _).mp before

/-- The order of a longer bus depends on the order of the bus. -/
theorem ordered_concat_congr {one other : EventBus} (same : one.ordered = other.ordered)
    {nextSequence : UInt64} (event : Event) :
    EventBus.ordered ⟨nextSequence, one.pending ++ [event]⟩ =
      EventBus.ordered ⟨nextSequence, other.pending ++ [event]⟩ := by
  have total := Event.not_less_total
  have transitive := Event.not_less_trans
  exact insertionSort_concat_congr same event

/-- Events whose numbers name them may be listed in any order. -/
theorem ordered_congr {one other : EventBus} (perm : one.pending.Perm other.pending)
    (unique : ∀ first ∈ one.pending, ∀ second ∈ one.pending,
      first.sequence = second.sequence → first = second) : one.ordered = other.ordered := by
  have total := Event.not_less_total
  have transitive := Event.not_less_trans
  refine insertionSort_congr perm fun first member second member' before after => ?_
  have place : first.place = second.place :=
    le_antisymm ((Event.not_less_iff _ _).mp before) ((Event.not_less_iff _ _).mp after)
  have number : first.sequence.toNat = second.sequence.toNat :=
    congrArg (fun place => (ofLex (ofLex place).2).2) place
  exact unique first member second member' (UInt64.toNat_inj.mp number)

theorem ordered_of_ascending {bus : EventBus}
    (ascending : bus.pending.Pairwise fun left right => left.place ≤ right.place) :
    bus.ordered = bus.pending :=
  List.Pairwise.insertionSort_eq
    (ascending.imp fun before => (Event.not_less_iff _ _).mpr before)

theorem drain_ascending (bus : EventBus) (tick : UInt64) :
    (bus.drain tick).1.Pairwise fun left right => left.place ≤ right.place :=
  bus.ordered_ascending.filter _

/-- An ascending list is what is due, in front of what is not. -/
theorem due_append {events : List Event} {tick : UInt64}
    (ascending : events.Pairwise fun left right => left.place ≤ right.place) :
    (events.filter fun event => event.targetTick ≤ tick) ++
      (events.filter fun event => !decide (event.targetTick ≤ tick)) = events := by
  induction events with
  | nil => rfl
  | cons event rest ih =>
    obtain ⟨first, ascending⟩ := List.pairwise_cons.mp ascending
    by_cases due : event.targetTick ≤ tick
    · rw [List.filter_cons_of_pos (by simpa using due),
        List.filter_cons_of_neg (by simpa using due), List.cons_append, ih ascending]
    · have none_due : rest.filter (fun event => event.targetTick ≤ tick) = [] := by
        refine List.filter_eq_nil_iff.mpr fun other member => ?_
        rw [decide_eq_true_eq]
        intro other_due
        exact due (UInt64.le_trans (Event.tick_le_of_place_le (first other member)) other_due)
      rw [← ih ascending, none_due]
      simp [due]

/-- A drain at an earlier tick takes a front part of what a later one would take. -/
theorem drain_drain (bus : EventBus) {first last : UInt64} (le : first ≤ last) :
    (bus.drain first).1 ++ ((bus.drain first).2.drain last).1 = (bus.drain last).1 ∧
      ((bus.drain first).2.drain last).2 = (bus.drain last).2 := by
  have ascending := bus.ordered_ascending
  have left : (bus.drain first).2.ordered = (bus.drain first).2.pending :=
    ordered_of_ascending (ascending.filter _)
  have later : ∀ event : Event, event.targetTick ≤ first → event.targetTick ≤ last :=
    fun event due => UInt64.le_trans due le
  constructor
  · change bus.ordered.filter _ ++ (bus.drain first).2.ordered.filter _ = bus.ordered.filter _
    have front : (bus.ordered.filter fun event => event.targetTick ≤ last).filter
        (fun event => event.targetTick ≤ first) =
        bus.ordered.filter fun event => event.targetTick ≤ first := by
      rw [List.filter_filter]
      exact List.filter_congr fun event _ => by simpa using later event
    rw [left, ← @due_append _ first (ascending.filter fun event => event.targetTick ≤ last),
      front, List.filter_comm]
    rfl
  · change EventBusSnapshot.mk _ ((bus.drain first).2.ordered.filter _) =
      EventBusSnapshot.mk _ (bus.ordered.filter _)
    rw [left]
    change EventBusSnapshot.mk _ ((bus.ordered.filter _).filter _) = _
    rw [List.filter_filter]
    congr 1
    refine List.filter_congr fun event _ => ?_
    by_cases due : event.targetTick ≤ first <;> simp [due, later event]

end EventBus

section Calls

inductive BusCall where
  | publish (targetTick : UInt64) (priority : Int32) (type : ByteString) (subject : WorldId)
      (payload : PropertyBag)
  | drain (tick : UInt64)

/-- The events a call returns, and the bus after it. -/
def EventBus.call (bus : EventBus) : BusCall → List Event × EventBus
  | .publish targetTick priority type subject payload =>
    ([], (bus.publish targetTick priority type subject payload).2)
  | .drain tick => bus.drain tick

def EventBus.after (bus : EventBus) (calls : List BusCall) : EventBus :=
  calls.foldl (fun bus call => (bus.call call).2) bus

/-- What the calls return, one after another. -/
def EventBus.returned (bus : EventBus) : List BusCall → List (List Event)
  | [] => []
  | call :: rest => (bus.call call).1 :: (bus.call call).2.returned rest

/-- The events the calls publish, numbered from `next` on, each with the calls made since. -/
def published (next : UInt64) : List BusCall → List (Event × List BusCall)
  | [] => []
  | .publish targetTick priority type subject payload :: since =>
    (⟨next, targetTick, priority, type, subject, payload⟩, since) :: published (next + 1) since
  | .drain _ :: since => published next since

/-- Some of the calls is a drain whose tick has reached the event. -/
def reached (event : Event) : List BusCall → Bool
  | [] => false
  | .drain tick :: rest => decide (event.targetTick ≤ tick) || reached event rest
  | .publish .. :: rest => reached event rest

/-- The published events that no drain has reached since. -/
def waiting (next : UInt64) (calls : List BusCall) : List Event :=
  ((published next calls).filter fun entry => !reached entry.1 entry.2).map Prod.fst

namespace EventBus

theorem waiting_publish (event : Event) (since : List BusCall)
    (rest : List (Event × List BusCall)) :
    (((event, since) :: rest).filter fun entry => !reached entry.1 entry.2).map Prod.fst =
      [event].filter (fun event => !reached event since) ++
        (rest.filter fun entry => !reached entry.1 entry.2).map Prod.fst := by
  by_cases before : reached event since <;> simp [before]

/-- What waits is what waited before or was published, and has not been reached since. -/
theorem after_pending (bus : EventBus) (calls : List BusCall) :
    (bus.after calls).pending.Perm
      (bus.pending.filter (fun event => !reached event calls) ++
        waiting bus.nextSequence calls) := by
  induction calls generalizing bus with
  | nil => simp [after, waiting, published, reached]
  | cons call rest ih =>
    refine (ih (bus.call call).2).trans ?_
    cases call with
    | publish targetTick priority type subject payload =>
      change ((bus.pending ++ [_]).filter _ ++ waiting (bus.nextSequence + 1) rest).Perm _
      rw [List.filter_append, List.append_assoc, waiting, waiting, published, waiting_publish]
      rfl
    | drain tick =>
      refine List.Perm.append_right _ ?_
      change ((bus.ordered.filter _).filter _).Perm _
      rw [List.filter_filter]
      refine (bus.ordered_perm.filter _).trans (List.Perm.of_eq ?_)
      refine List.filter_congr fun event _ => ?_
      rw [reached, Bool.not_or, Bool.and_comm]

/-- Nothing is lost and nothing is returned twice. -/
theorem returned_pending (bus : EventBus) (calls : List BusCall) :
    ((bus.returned calls).flatten ++ (bus.after calls).pending).Perm
      (bus.pending ++ (published bus.nextSequence calls).map Prod.fst) := by
  induction calls generalizing bus with
  | nil => simp [returned, after, published]
  | cons call rest ih =>
    rw [returned, List.flatten_cons, List.append_assoc]
    refine ((ih (bus.call call).2).append_left (bus.call call).1).trans ?_
    cases call with
    | publish targetTick priority type subject payload =>
      change ([] ++ ((bus.pending ++ [_]) ++ _)).Perm _
      rw [List.nil_append, List.append_assoc, published]
      rfl
    | drain tick =>
      rw [← List.append_assoc]
      refine List.Perm.append_right _ ?_
      exact (List.filter_append_perm _ bus.ordered).trans bus.ordered_perm

theorem after_append (bus : EventBus) (calls more : List BusCall) :
    bus.after (calls ++ more) = (bus.after calls).after more :=
  List.foldl_append

/-- What the calls return, in order, each exactly once. -/
structure DeliversOnce (calls : List BusCall) : Prop where
  /-- A drain returns the events it is the first to reach. -/
  first : ∀ before tick since, calls = before ++ .drain tick :: since →
    ((after {} before).drain tick).1.Perm
      ((waiting 1 before).filter fun event => event.targetTick ≤ tick)
  ordered : ∀ before tick since, calls = before ++ .drain tick :: since →
    ((after {} before).drain tick).1.Pairwise fun left right => left.place ≤ right.place
  /-- The returned events and the ones still waiting are the published ones. -/
  once : ((returned {} calls).flatten ++ waiting 1 calls).Perm ((published 1 calls).map Prod.fst)
  split : ∀ first last : UInt64, first ≤ last →
    ((after {} calls).drain first).1 ++ (((after {} calls).drain first).2.drain last).1 =
      ((after {} calls).drain last).1

theorem waiting_perm (calls : List BusCall) :
    (after {} calls).pending.Perm (waiting 1 calls) :=
  after_pending {} calls

theorem calls_deliver_once (calls : List BusCall) : DeliversOnce calls where
  first before _ _ _ := ((ordered_perm _).trans (waiting_perm before)).filter _
  ordered _ _ _ _ := drain_ascending _ _
  once := ((waiting_perm calls).symm.append_left _).trans (returned_pending {} calls)
  split _ _ le := (drain_drain _ le).1

end EventBus

end Calls

end GeoWorld.Rules
