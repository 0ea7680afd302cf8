import Mathlib
import GeoWorld.Rules.EventBus
import GeoWorld.Rules.Expression
import GeoWorld.Simulation.CommandBuffer

/-!
The rule engine: a table of rules by falling priority and by id, which turns due events
into commands. Every change of the table leaves it in that order without an id twice, so
the table is known from the set of its rules and the commands do not depend on the order
in which the rules were registered.
-/

namespace GeoWorld.Rules

open WorldModel Library Simulation

structure SetPropertyAction where
  target : WorldId
  key : ByteString
  value : Value
  deriving DecidableEq

/-- The variant of actions has one alternative. -/
inductive RuleAction where
  | setProperty (action : SetPropertyAction)
  deriving DecidableEq

structure Rule where
  id : ByteString
  version : UInt32 := 0
  priority : Int32 := 0
  eventType : ByteString
  condition : Expression := []
  actions : List RuleAction := []
  deriving DecidableEq

inductive RuleRegistrationResult where
  | registered
  | invalidRule
  | duplicateId
  deriving DecidableEq

structure DecisionTable where
  rows : List Rule := []
  deriving DecidableEq

structure RuleEvaluationReport where
  eventsProcessed : Nat := 0
  rulesFired : Nat := 0
  commandsEnqueued : Nat := 0
  deriving DecidableEq

structure RuleEngine where
  events : EventBus := {}
  table : DecisionTable := {}

/-- The comparison `insert` sorts by. -/
def Rule.before (left right : Rule) : Bool :=
  if left.priority ≠ right.priority then right.priority < left.priority else left.id < right.id

namespace DecisionTable

def insert (table : DecisionTable) (rule : Rule) : RuleRegistrationResult × DecisionTable :=
  if rule.id.isEmpty || rule.version == 0 || rule.eventType.isEmpty || !rule.condition.valid then
    (.invalidRule, table)
  else if table.rows.any fun existing => existing.id == rule.id then
    (.duplicateId, table)
  else
    (.registered,
      ⟨(table.rows ++ [rule]).insertionSort fun left right => !right.before left⟩)

def erase (table : DecisionTable) (id : ByteString) : Bool × DecisionTable :=
  if table.rows.any fun rule => rule.id == id then
    (true, ⟨table.rows.eraseP fun rule => rule.id == id⟩)
  else
    (false, table)

end DecisionTable

namespace RuleEngine

def registerRule (engine : RuleEngine) (rule : Rule) : RuleRegistrationResult × RuleEngine :=
  let (result, table) := engine.table.insert rule
  (result, { engine with table := table })

def removeRule (engine : RuleEngine) (id : ByteString) : Bool × RuleEngine :=
  let (erased, table) := engine.table.erase id
  (erased, { engine with table := table })

def publish (engine : RuleEngine) (targetTick : UInt64) (priority : Int32) (type : ByteString)
    (subject : WorldId) (payload : PropertyBag) : UInt64 × RuleEngine :=
  let (sequence, events) := engine.events.publish targetTick priority type subject payload
  (sequence, { engine with events := events })

/-- The command of an action; a target of 0 stands for the subject of the event. -/
def actionCommand (event : Event) : RuleAction → CommandPayload
  | .setProperty action =>
    .setProperty (if action.target.valid then action.target else event.subject) action.key
      action.value

/-- The report and the buffer, as the loops of `evaluate` carry them. -/
abbrev Evaluation := RuleEvaluationReport × CommandBuffer

def runAction (tick : UInt64) (event : Event) (state : Evaluation) (action : RuleAction) :
    Evaluation :=
  ({ state.1 with commandsEnqueued := state.1.commandsEnqueued + 1 },
    (state.2.enqueue tick (actionCommand event action) {}).2)

def evaluateRule (tick : UInt64) (event : Event) (state : Evaluation) (rule : Rule) :
    Evaluation :=
  if rule.eventType ≠ event.type ∨ !rule.condition.evaluate event.payload then
    state
  else
    rule.actions.foldl (runAction tick event)
      ({ state.1 with rulesFired := state.1.rulesFired + 1 }, state.2)

def evaluateEvent (tick : UInt64) (table : DecisionTable) (state : Evaluation) (event : Event) :
    Evaluation :=
  table.rows.foldl (evaluateRule tick event) state

def evaluate (engine : RuleEngine) (tick : UInt64) (commands : CommandBuffer) :
    Evaluation × RuleEngine :=
  let (due, events) := engine.events.drain tick
  (due.foldl (evaluateEvent tick engine.table) ({ eventsProcessed := due.length }, commands),
    { engine with events := events })

end RuleEngine

section TableOrder

theorem Rule.before_iff (left right : Rule) :
    left.before right ↔ right.priority.toInt < left.priority.toInt ∨
      right.priority.toInt = left.priority.toInt ∧ left.id < right.id := by
  have same : left.priority = right.priority ↔ right.priority.toInt = left.priority.toInt :=
    Int32.toInt_inj.symm.trans eq_comm
  unfold Rule.before
  by_cases equal : left.priority = right.priority
  · simp [equal]
  · have apart := mt same.mpr equal
    simp [equal, apart, Int32.lt_iff_toInt_lt]

theorem Rule.before_asymm {left right : Rule} (first : left.before right) :
    ¬ right.before left := by
  rw [Rule.before_iff] at first ⊢
  rintro (higher | ⟨same, earlier⟩)
  · omega
  · rcases first with higher | ⟨_, later⟩
    · omega
    · exact List.lt_asymm earlier later

/-- The relation a stable sort puts the table in. -/
def Rule.notAfter (left right : Rule) : Prop := (!right.before left) = true

instance : DecidableRel Rule.notAfter := fun _ _ => inferInstanceAs (Decidable (_ = true))

theorem Rule.notAfter_iff (left right : Rule) :
    left.notAfter right ↔ right.priority.toInt < left.priority.toInt ∨
      right.priority.toInt = left.priority.toInt ∧ left.id ≤ right.id := by
  rw [notAfter, Bool.not_eq_true', ← Bool.not_eq_true, before_iff, ← List.not_lt]
  by_cases later : right.id < left.id <;> simp [later] <;> omega

instance : Std.Total Rule.notAfter where
  total left right := by
    rw [Rule.notAfter_iff, Rule.notAfter_iff]
    rcases lt_trichotomy left.priority.toInt right.priority.toInt with lower | same | higher
    · exact .inr (.inl lower)
    · obtain earlier | later := List.le_total left.id right.id
      · exact .inl (.inr ⟨same.symm, earlier⟩)
      · exact .inr (.inr ⟨same, later⟩)
    · exact .inl (.inl higher)

instance : IsTrans Rule Rule.notAfter where
  trans one two three first second := by
    rw [Rule.notAfter_iff] at first second ⊢
    rcases first with higher | ⟨same, earlier⟩ <;> rcases second with lower | ⟨equal, later⟩
    · exact .inl (by omega)
    · exact .inl (by omega)
    · exact .inl (by omega)
    · exact .inr ⟨by omega, List.le_trans earlier later⟩

theorem Rule.before_of_notAfter {left right : Rule} (sorted : left.notAfter right)
    (apart : left.id ≠ right.id) : left.before right := by
  rw [Rule.notAfter_iff] at sorted
  rw [Rule.before_iff]
  rcases sorted with higher | ⟨same, earlier⟩
  · exact .inl higher
  · refine .inr ⟨same, ?_⟩
    by_contra late
    exact apart (List.le_antisymm earlier (List.not_lt.mp late))

namespace DecisionTable

/-- What every change of the table restores. -/
structure InOrder (table : DecisionTable) : Prop where
  ordered : table.rows.Pairwise fun left right => left.before right
  distinct : (table.rows.map Rule.id).Nodup

theorem inOrder_empty : InOrder {} := ⟨List.Pairwise.nil, List.nodup_nil⟩

theorem InOrder.insert {table : DecisionTable} (inOrder : table.InOrder) (rule : Rule) :
    (table.insert rule).2.InOrder := by
  unfold DecisionTable.insert
  split_ifs with invalid taken
  · exact inOrder
  · exact inOrder
  · have fresh : ∀ existing ∈ table.rows, existing.id ≠ rule.id := by simpa using taken
    have perm := List.perm_insertionSort (fun left right : Rule => !right.before left)
      (table.rows ++ [rule])
    have distinct : ((table.rows ++ [rule]).map Rule.id).Nodup := by
      rw [List.map_append, List.nodup_append]
      refine ⟨inOrder.distinct, List.nodup_singleton _, ?_⟩
      intro id inside other last
      obtain ⟨existing, member, rfl⟩ := List.mem_map.mp inside
      rw [List.map_singleton, List.mem_singleton] at last
      exact last ▸ fresh existing member
    have distinct := (perm.map Rule.id).nodup_iff.mpr distinct
    refine ⟨?_, distinct⟩
    have sorted := List.pairwise_insertionSort Rule.notAfter (table.rows ++ [rule])
    exact (sorted.and (List.pairwise_map.mp distinct)).imp fun both =>
      Rule.before_of_notAfter both.1 both.2

theorem InOrder.erase {table : DecisionTable} (inOrder : table.InOrder) (id : ByteString) :
    (table.erase id).2.InOrder := by
  unfold DecisionTable.erase
  split_ifs with there
  · have part := table.rows.eraseP_sublist (p := fun rule => rule.id == id)
    exact ⟨inOrder.ordered.sublist part, inOrder.distinct.sublist (part.map Rule.id)⟩
  · exact inOrder

/-- A table in order is known from the set of its rules. -/
theorem InOrder.eq_of_same_rules {first second : DecisionTable} (one : first.InOrder)
    (two : second.InOrder) (same : ∀ rule, rule ∈ first.rows ↔ rule ∈ second.rows) :
    first = second := by
  have perm : first.rows.Perm second.rows :=
    (List.perm_ext_iff_of_nodup one.distinct.of_map two.distinct.of_map).mpr same
  have rows : first.rows = second.rows :=
    perm.eq_of_pairwise (fun _ _ _ _ before after => absurd after (Rule.before_asymm before))
      one.ordered two.ordered
  cases first
  cases second
  exact congrArg DecisionTable.mk rows

end DecisionTable

end TableOrder

section Evaluation

/-- The rules that fire for an event, in the order of the table. -/
def DecisionTable.fired (table : DecisionTable) (event : Event) : List Rule :=
  table.rows.filter fun rule =>
    rule.eventType == event.type && rule.condition.evaluate event.payload

namespace RuleEngine

/-- The commands an event causes: those of each rule that fires, one rule after another. -/
def firedCommands (table : DecisionTable) (event : Event) : List CommandPayload :=
  (table.fired event).flatMap fun rule => rule.actions.map (actionCommand event)

def enqueueAll (tick : UInt64) (commands : CommandBuffer) (payloads : List CommandPayload) :
    CommandBuffer :=
  payloads.foldl (fun commands payload => (commands.enqueue tick payload {}).2) commands

theorem enqueueAll_append (tick : UInt64) (commands : CommandBuffer)
    (first second : List CommandPayload) :
    enqueueAll tick commands (first ++ second) =
      enqueueAll tick (enqueueAll tick commands first) second :=
  List.foldl_append

theorem foldl_runAction (tick : UInt64) (event : Event) (state : Evaluation)
    (actions : List RuleAction) :
    actions.foldl (runAction tick event) state =
      ({ state.1 with commandsEnqueued := state.1.commandsEnqueued + actions.length },
        enqueueAll tick state.2 (actions.map (actionCommand event))) := by
  induction actions generalizing state with
  | nil => rfl
  | cons action rest ih =>
    rw [List.foldl_cons, ih, List.length_cons, Nat.add_comm rest.length, ← Nat.add_assoc]
    rfl

theorem evaluateEvent_eq (tick : UInt64) (table : DecisionTable) (state : Evaluation)
    (event : Event) :
    evaluateEvent tick table state event =
      ({ state.1 with
          rulesFired := state.1.rulesFired + (table.fired event).length
          commandsEnqueued := state.1.commandsEnqueued + (firedCommands table event).length },
        enqueueAll tick state.2 (firedCommands table event)) := by
  obtain ⟨rows⟩ := table
  unfold evaluateEvent firedCommands DecisionTable.fired
  induction rows generalizing state with
  | nil => rfl
  | cons rule rest ih =>
    rw [List.foldl_cons, ih, evaluateRule]
    by_cases fires : rule.eventType = event.type ∧ rule.condition.evaluate event.payload
    · rw [if_neg (by simp [fires]), foldl_runAction, List.filter_cons_of_pos (by simp [fires]),
        List.flatMap_cons, enqueueAll_append]
      simp [Nat.add_assoc, Nat.add_comm]
    · rw [if_pos (by simpa [imp_iff_not_or] using fires),
        List.filter_cons_of_neg (by simpa using fires)]

/-- What `evaluate` reports and enqueues, event after event. -/
theorem evaluate_eq (engine : RuleEngine) (tick : UInt64) (commands : CommandBuffer) :
    (engine.evaluate tick commands).1 =
      let due := (engine.events.drain tick).1
      let payloads := due.flatMap (firedCommands engine.table)
      (⟨due.length, (due.flatMap engine.table.fired).length, payloads.length⟩,
        enqueueAll tick commands payloads) := by
  have folded : ∀ (events : List Event) (state : Evaluation),
      events.foldl (evaluateEvent tick engine.table) state =
        ({ state.1 with
            rulesFired := state.1.rulesFired + (events.flatMap engine.table.fired).length
            commandsEnqueued := state.1.commandsEnqueued +
              (events.flatMap (firedCommands engine.table)).length },
          enqueueAll tick state.2 (events.flatMap (firedCommands engine.table))) := by
    intro events
    induction events with
    | nil => exact fun _ => rfl
    | cons event rest ih =>
      intro state
      rw [List.foldl_cons, ih, evaluateEvent_eq, List.flatMap_cons, List.flatMap_cons,
        enqueueAll_append]
      simp [Nat.add_assoc]
  exact (folded _ _).trans (by simp only [Nat.zero_add]; rfl)

end RuleEngine

end Evaluation

section Rounds

/-- A call that changes the rules. -/
inductive RuleChange where
  | registerRule (rule : Rule)
  | removeRule (id : ByteString)
  deriving DecidableEq

/-- What is asked of an engine up to an `evaluate`; changes of the rules and publications
touch different parts of the engine. -/
structure Round where
  changes : List RuleChange := []
  publications : List Event := []
  tick : UInt64

namespace RuleEngine

def change (engine : RuleEngine) : RuleChange → RuleEngine
  | .registerRule rule => (engine.registerRule rule).2
  | .removeRule id => (engine.removeRule id).2

def changeAll (engine : RuleEngine) (changes : List RuleChange) : RuleEngine :=
  changes.foldl change engine

def publishAll (engine : RuleEngine) (publications : List Event) : RuleEngine :=
  publications.foldl (fun engine event =>
    (engine.publish event.targetTick event.priority event.type event.subject event.payload).2)
    engine

/-- The engine a round calls `evaluate` on. -/
def prepare (engine : RuleEngine) (round : Round) : RuleEngine :=
  (engine.changeAll round.changes).publishAll round.publications

/-- The engines the rounds call `evaluate` on. -/
def prepared (engine : RuleEngine) : List Round → List RuleEngine
  | [] => []
  | round :: rest =>
    engine.prepare round :: ((engine.prepare round).evaluate round.tick {}).2.prepared rest

/-- The reports of the rounds, and the commands in the buffer after each. -/
def served (engine : RuleEngine) (commands : CommandBuffer) : List Round → List Evaluation
  | [] => []
  | round :: rest =>
    let answer := (engine.prepare round).evaluate round.tick commands
    answer.1 :: answer.2.served answer.1.2 rest

theorem changeAll_events (engine : RuleEngine) (changes : List RuleChange) :
    (engine.changeAll changes).events = engine.events := by
  induction changes generalizing engine with
  | nil => rfl
  | cons change rest ih =>
    refine (ih (engine.change change)).trans ?_
    cases change <;> rfl

theorem changeAll_inOrder {engine : RuleEngine} (inOrder : engine.table.InOrder)
    (changes : List RuleChange) : (engine.changeAll changes).table.InOrder := by
  induction changes generalizing engine with
  | nil => exact inOrder
  | cons change rest ih =>
    refine @ih (engine.change change) ?_
    cases change with
    | registerRule rule => exact inOrder.insert rule
    | removeRule id => exact inOrder.erase id

theorem publishAll_table (engine : RuleEngine) (publications : List Event) :
    (engine.publishAll publications).table = engine.table := by
  induction publications generalizing engine with
  | nil => rfl
  | cons event rest ih => exact ih _

theorem publishAll_events {one other : RuleEngine} (same : one.events = other.events)
    (publications : List Event) :
    (one.publishAll publications).events = (other.publishAll publications).events := by
  induction publications generalizing one other with
  | nil => exact same
  | cons event rest ih =>
    refine ih ?_
    change (one.events.publish _ _ _ _ _).2 = (other.events.publish _ _ _ _ _).2
    rw [same]

theorem prepare_inOrder {engine : RuleEngine} (inOrder : engine.table.InOrder) (round : Round) :
    (engine.prepare round).table.InOrder := by
  rw [prepare, publishAll_table]
  exact changeAll_inOrder inOrder round.changes

theorem prepared_inOrder {engine : RuleEngine} (inOrder : engine.table.InOrder)
    {rounds : List Round} {before : RuleEngine} (member : before ∈ engine.prepared rounds) :
    before.table.InOrder := by
  induction rounds generalizing engine with
  | nil => cases member
  | cons round rest ih =>
    rw [prepared, List.mem_cons] at member
    obtain rfl | later := member
    · exact prepare_inOrder inOrder round
    · exact @ih ((engine.prepare round).evaluate round.tick {}).2 (prepare_inOrder inOrder round)
        later

/-- Two engines with the same rules at every `evaluate`. -/
def SameRules (one other : List RuleEngine) : Prop :=
  List.Forall₂ (fun left right => ∀ rule, rule ∈ left.table.rows ↔ rule ∈ right.table.rows)
    one other

/-- The publications and the ticks of rounds. -/
def requests (rounds : List Round) : List (List Event × UInt64) :=
  rounds.map fun round => (round.publications, round.tick)

theorem served_eq {one other : RuleEngine} (left : one.table.InOrder)
    (right : other.table.InOrder) (events : one.events = other.events)
    {first second : List Round} (same : requests first = requests second)
    (rules : SameRules (one.prepared first) (other.prepared second)) (commands : CommandBuffer) :
    one.served commands first = other.served commands second := by
  induction first generalizing one other second commands with
  | nil =>
    cases second with
    | nil => rfl
    | cons round rest => cases same
  | cons round rest ih =>
    cases second with
    | nil => cases same
    | cons round' rest' =>
      obtain ⟨same_round, same_rest⟩ := List.cons.inj same
      obtain ⟨publications, tick⟩ := Prod.mk.inj same_round
      obtain ⟨now, later⟩ := List.forall₂_cons.mp rules
      have left := prepare_inOrder left round
      have right := prepare_inOrder right round'
      have engines : one.prepare round = other.prepare round' := by
        have tables := left.eq_of_same_rules right now
        have bus : (one.prepare round).events = (other.prepare round').events := by
          rw [prepare, prepare, publications]
          refine publishAll_events ?_ round'.publications
          rw [changeAll_events, changeAll_events, events]
        generalize one.prepare round = prepared_one at tables bus
        generalize other.prepare round' = prepared_other at tables bus
        cases prepared_one
        cases prepared_other
        exact congrArg₂ RuleEngine.mk bus tables
      rw [engines, tick] at later
      rw [served, served, engines, tick]
      have left_over : ((other.prepare round').evaluate round'.tick {}).2.table.InOrder := right
      exact congrArg _ (ih left_over left_over rfl same_rest later _)

/-- Rounds that see the same rules and the same requests answer and enqueue alike, and for
every event the rules fire by falling priority and by id. -/
theorem rounds_ignore_registration_order {first second : List Round}
    (same : requests first = requests second)
    (rules : SameRules (prepared {} first) (prepared {} second)) :
    (∀ commands, served {} commands first = served {} commands second) ∧
      (∀ engine ∈ prepared {} first, ∀ event,
        (engine.table.fired event).Pairwise fun left right => left.before right) ∧
      ∀ engine ∈ prepared {} first, ∀ tick commands,
        (engine.evaluate tick commands).1.2 =
          enqueueAll tick commands
            ((engine.events.drain tick).1.flatMap (firedCommands engine.table)) := by
  have empty := DecisionTable.inOrder_empty
  refine ⟨served_eq empty empty rfl same rules, fun engine member event => ?_,
    fun engine _ tick commands => congrArg Prod.snd (engine.evaluate_eq tick commands)⟩
  exact (prepared_inOrder empty member).ordered.filter _

/-- Two rules of one priority for the event type 7, and an event of that type. -/
def coolRule : Rule := ⟨[1], 1, 0, [7], [], [.setProperty ⟨5, [1], .boolean true⟩]⟩

def warnRule : Rule := ⟨[2], 1, 0, [7], [], [.setProperty ⟨0, [2], .boolean true⟩]⟩

def alarmRound (changes : List RuleChange) : Round :=
  ⟨changes, [⟨0, 4, 1, [7], 9, ∅⟩], 4⟩

theorem alarm_round_either_order :
    served {} {} [alarmRound [.registerRule coolRule, .registerRule warnRule]] =
      served {} {} [alarmRound [.registerRule warnRule, .registerRule coolRule,
        .registerRule warnRule]] := by
  refine (rounds_ignore_registration_order rfl ?_).1 {}
  have rows : (prepare {} (alarmRound [.registerRule coolRule, .registerRule warnRule])).table =
      (prepare {} (alarmRound [.registerRule warnRule, .registerRule coolRule,
        .registerRule warnRule])).table := by decide +kernel
  exact List.Forall₂.cons (fun rule => by rw [rows]) List.Forall₂.nil

end RuleEngine

end Rounds

end GeoWorld.Rules
