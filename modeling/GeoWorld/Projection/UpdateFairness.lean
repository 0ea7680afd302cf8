import Mathlib
import GeoWorld.Library.ServiceRounds
import GeoWorld.Projection.KeyframeSchedule

/-!
Who is left out of a delta that has more updates than it may carry. Updates of one priority are
kept in the order of their feature ids; waiting does not enter into it.
-/

namespace GeoWorld.Projection

open WorldModel Library ConnectionProjection ProjectionEngine

/-- The entities whose state is in the frame. -/
def StateFrame.sent : StateFrame → List WorldId
  | .keyframe content => content.entities.map EntityEnter.wid
  | .delta content => content.enters.map EntityEnter.wid ++ content.updates.map EntityUpdate.wid

namespace BuiltFrame

/-- The updates of a delta before any is left out. -/
def candidates (built : BuiltFrame) : List EntityUpdate :=
  if built.frame.isKeyframe then []
  else (built.engine.scanDelta built.world built.tick built.slot.throttlePending
    built.plan).updates

def quota (built : BuiltFrame) : Nat :=
  built.engine.config.maxUpdatesPerFrame

end BuiltFrame

/-- When the connection was last sent the state of an entity. -/
def lastSent (earlier : List BuiltFrame) (wid : WorldId) : WithBot Nat :=
  lastServed BuiltFrame.time (fun built => built.frame.sent) earlier wid

/-- Of two updates of equal priority the kept one has waited at least as long as the dropped. -/
def KeepsLongestWaiting (earlier : List BuiltFrame) (built : BuiltFrame) : Prop :=
  ∀ kept ∈ built.candidates, kept ∈ built.frame.updates →
    ∀ dropped ∈ built.candidates, dropped ∉ built.frame.updates →
      kept.entity.metadata.priority = dropped.entity.metadata.priority →
        lastSent earlier kept.wid ≤ lastSent earlier dropped.wid

/-- Among candidates of equal priority on either side of the quota, the one with the smaller
feature id has waited at least as long. -/
def FidsFollowWaiting (earlier : List BuiltFrame) (built : BuiltFrame) : Prop :=
  ∀ first ∈ built.candidates, ∀ second ∈ built.candidates,
    first.entity.metadata.priority = second.entity.metadata.priority → first.fid < second.fid →
    rank trimBefore built.candidates first < built.quota →
    built.quota ≤ rank trimBefore built.candidates second →
      lastSent earlier first.wid ≤ lastSent earlier second.wid

/-- More updates of one priority, all of them among `items`, than the delta may carry. -/
structure Contended (items : Finset WorldId) (built : BuiltFrame) : Prop where
  saturated : built.quota < built.candidates.length
  among : ∀ update ∈ built.candidates, update.wid ∈ items
  level : ∀ first ∈ built.candidates, ∀ second ∈ built.candidates,
    first.entity.metadata.priority = second.entity.metadata.priority

/-- The entity has an update to send and it is dropped. -/
def Dropped (wid : WorldId) (built : BuiltFrame) : Prop :=
  wid ∈ built.candidates.map EntityUpdate.wid ∧ wid ∉ built.frame.updates.map EntityUpdate.wid

section Build

variable {built : BuiltFrame}

/-- What the trimming of a build kept, among what its candidate loop found. -/
structure TrimmedBuild (built : BuiltFrame) : Prop where
  fids : ∀ left ∈ built.candidates, ∀ right ∈ built.candidates, left.fid = right.fid → left = right
  wids : (built.candidates.map EntityUpdate.wid).Nodup
  kept_iff : ∀ update, update ∈ built.frame.updates ↔ update ∈ built.candidates ∧
    rank trimBefore built.candidates update < built.quota
  kept_length : built.quota < built.candidates.length → built.frame.updates.length = built.quota
  kept_wids : (built.frame.updates.map EntityUpdate.wid).Nodup
  sent_iff : ∀ wid ∈ built.candidates.map EntityUpdate.wid,
    wid ∈ built.frame.sent ↔ wid ∈ built.frame.updates.map EntityUpdate.wid

theorem trimmedBuild (genuine : FrameLog.Genuine built) : TrimmedBuild built := by
  obtain ⟨frame, sent, shape⟩ := Option.map_eq_some_iff.mp genuine.sent
  have content : built.frame = frame := by rw [← shape]
  cases frame with
  | keyframe keyframe =>
    have none : built.candidates = [] := by
      rw [BuiltFrame.candidates, content]
      rfl
    have no_updates : built.frame.updates = [] := by
      rw [content]
      rfl
    refine ⟨?_, ?_, ?_, ?_, ?_, ?_⟩ <;> simp [none, no_updates]
  | delta content_delta =>
    have delta : built.frame = .delta content_delta := content
    have sent_eq : (built.engine.buildFrame built.world built.tick built.slot).1 =
        some (.delta content_delta) := sent
    obtain ⟨distinct, -, -⟩ := genuine.ready.plan_sound built.world built.tick
    obtain ⟨_, -, inv⟩ := genuine.ready.connection_inv
    have build := deltaBuild genuine.ready sent_eq
    have wellFormed := buildFrame_delta genuine.ready sent_eq
    have apart := loopWids_nodup built.engine built.slot.throttlePending distinct
    have sound := widAction_sound genuine.ready.global_inv.hashes built.slot.connection
      (built.engine.planFrame built.world built.tick built.slot).visible built.tick
    have candidates : built.candidates = (built.engine.scanDelta built.world built.tick
        built.slot.throttlePending
        (built.engine.planFrame built.world built.tick built.slot)).updates := by
      rw [BuiltFrame.candidates, delta]
      rfl
    have entries := build.loop.updates_eq
    rw [← candidates] at entries
    have kept : ∀ update, update ∈ built.frame.updates ↔ update ∈ built.candidates ∧
        rank trimBefore built.candidates update < built.quota := by
      intro update
      have trimmed := @mem_trimUpdates_iff_rank built.engine _ _ _ _ _ _ _ build.loop apart sound
        inv.acked_injective update
      rw [← candidates] at trimmed
      rw [delta, StateFrame.updates, build.content]
      exact (List.mem_insertionSort _).trans trimmed
    obtain ⟨-, own, -⟩ := List.nodup_append.mp wellFormed.distinct
    refine ⟨?_, ?_, kept, ?_, ?_, ?_⟩
    · intro left leftIn right rightIn same
      rw [entries] at leftIn rightIn
      exact updates_fid_injective sound inv.acked_injective leftIn rightIn same
    · rw [entries]
      exact nodup_map_filterMap (fun _ _ found => WidAction.updateEntry_wid found) apart
    · intro saturated
      rw [delta, StateFrame.updates, build.content]
      simp only [sealDelta, List.length_insertionSort]
      have crowded : (built.engine.scanDelta built.world built.tick built.slot.throttlePending
          (built.engine.planFrame built.world built.tick built.slot)).updates.length >
            built.engine.config.maxUpdatesPerFrame := candidates ▸ saturated
      rw [trimUpdates, if_pos crowded]
      simp only [keptUpdates, List.length_take, List.length_insertionSort]
      exact Nat.min_eq_left crowded.le
    · rw [delta]
      exact own
    · intro wid member
      rw [delta, StateFrame.sent, List.mem_append, StateFrame.updates]
      refine or_iff_right fun entered => ?_
      obtain ⟨enter, inside, rfl⟩ := List.mem_map.mp entered
      obtain ⟨update, candidate, same⟩ := List.mem_map.mp member
      rw [entries] at candidate
      obtain ⟨entry, acked, -⟩ := mem_updates sound candidate
      rw [same, wellFormed.enter_unacked enter inside] at acked
      cases acked

/-- The longest waiting are kept exactly when feature ids follow the waiting. -/
theorem keepsLongestWaiting_iff (genuine : FrameLog.Genuine built) (earlier : List BuiltFrame) :
    KeepsLongestWaiting earlier built ↔ FidsFollowWaiting earlier built := by
  have trimmed := trimmedBuild genuine
  constructor
  · intro keeps first firstIn second secondIn level _ early late
    refine keeps first firstIn ((trimmed.kept_iff first).mpr ⟨firstIn, early⟩) second secondIn
      (fun kept => ?_) level
    exact absurd ((trimmed.kept_iff second).mp kept).2 (not_lt.mpr late)
  · intro follows kept keptIn keeps dropped droppedIn drops level
    have early := ((trimmed.kept_iff kept).mp keeps).2
    have late : built.quota ≤ rank trimBefore built.candidates dropped := by
      by_contra room
      exact drops ((trimmed.kept_iff dropped).mpr ⟨droppedIn, not_le.mp room⟩)
    refine follows kept keptIn dropped droppedIn level (lt_of_not_ge fun behind => ?_) early late
    have before : trimBefore dropped kept := by
      rw [trimBefore, if_neg (not_not.mpr level.symm)]
      exact behind
    have ranks := rank_le_of_related before fun other otherIn first second =>
      trimmed.fids other otherIn dropped droppedIn (fid_eq_of_trimBefore first second)
    omega

/-- A contended delta passes over an entity it drops. -/
theorem passesOver_of_dropped (genuine : FrameLog.Genuine built) {earlier : List BuiltFrame}
    {items : Finset WorldId} {wid : WorldId} (contended : Contended items built)
    (dropped : Dropped wid built) (follows : FidsFollowWaiting earlier built) :
    PassesOver BuiltFrame.time (fun built => built.frame.sent)
      (fun built => built.frame.updates.map EntityUpdate.wid) wid earlier built := by
  have trimmed := trimmedBuild genuine
  have picks : ∀ update ∈ built.frame.updates, update ∈ built.candidates := fun update kept =>
    ((trimmed.kept_iff update).mp kept).1
  obtain ⟨candidate, drops⟩ := dropped
  refine ⟨fun sends => drops ((trimmed.sent_iff wid candidate).mp sends), ?_, ?_⟩
  · intro other kept
    obtain ⟨update, inside, rfl⟩ := List.mem_map.mp kept
    exact (trimmed.sent_iff _ (List.mem_map_of_mem (picks update inside))).mpr kept
  · intro other kept
    obtain ⟨update, inside, rfl⟩ := List.mem_map.mp kept
    obtain ⟨own, ownIn, rfl⟩ := List.mem_map.mp candidate
    exact (keepsLongestWaiting_iff genuine earlier).mpr follows update (picks update inside) inside
      own ownIn (fun kept => drops (List.mem_map_of_mem kept))
      (contended.level update (picks update inside) own ownIn)

end Build

def Ascending (log : FrameLog) : Prop :=
  log.built.Pairwise fun first second => first.time < second.time

/-- Trimming does not starve an entity: whoever is kept has waited as long as whoever is dropped,
and while ticks ascend an entity is passed over for fewer frames than there are contenders. -/
structure TrimsFairly (log : FrameLog) : Prop where
  longest : ∀ earlier built later, log.built = earlier ++ built :: later →
    KeepsLongestWaiting earlier built
  served : Ascending log → ∀ earlier passing later,
    log.built = earlier ++ (passing ++ later) → ∀ (items : Finset WorldId) (wid : WorldId) (quota : Nat), wid ∈ items →
    (∀ built ∈ passing, built.quota = quota ∧ Contended items built ∧ Dropped wid built) →
      passing.length * quota < items.card

/-- Feature ids follow the waiting in every delta. -/
def EveryDeltaFollows (log : FrameLog) : Prop :=
  ∀ earlier built later, log.built = earlier ++ built :: later → FidsFollowWaiting earlier built

section Run

variable {config : ProjectionConfig} {policy : ProjectionPolicy} {id : ConnectionId}
  {events : List EngineEvent} {log : FrameLog}

/-- In every run trimming is fair exactly when feature ids follow the waiting in every delta. -/
theorem trims_fairly_iff (run : AnyRun (FrameLog.Step id) (.initial config policy) events log) :
    TrimsFairly log ↔ EveryDeltaFollows log := by
  have genuine := FrameLog.genuine_run run
  constructor
  · intro fair earlier built later split
    exact (keepsLongestWaiting_iff (genuine built (by simp [split])) earlier).mp
      (fair.longest earlier built later split)
  · intro follows
    refine ⟨fun earlier built later split => ?_, ?_⟩
    · exact (keepsLongestWaiting_iff (genuine built (by simp [split])) earlier).mpr
        (follows earlier built later split)
    · intro ascending earlier passing later split items wid quota member contended
      have inside : ∀ built ∈ passing, built ∈ log.built := fun built member => by
        simp [split, member]
      have times : (earlier ++ passing).Pairwise fun first second => first.time < second.time := by
        rw [Ascending, split, ← List.append_assoc] at ascending
        exact (List.pairwise_append.mp ascending).1
      have passes : ∀ before built after, passing = before ++ built :: after →
          PassesOver BuiltFrame.time (fun built => built.frame.sent)
            (fun built => built.frame.updates.map EntityUpdate.wid) wid (earlier ++ before)
            built := by
        intro before built after inner
        have here : built ∈ passing := by simp [inner]
        obtain ⟨-, contends, drops⟩ := contended built here
        refine passesOver_of_dropped (genuine built (inside built here)) contends drops ?_
        exact follows (earlier ++ before) built (after ++ later) (by simp [split, inner])
      refine passed_over_bounded times passes (fun built here => ?_) (fun built here => ?_)
        (fun built here other kept => ?_) member
      · exact (trimmedBuild (genuine built (inside built here))).kept_wids
      · obtain ⟨same, contends, -⟩ := contended built here
        rw [List.length_map, ← same]
        exact ((trimmedBuild (genuine built (inside built here))).kept_length
          contends.saturated).ge
      · obtain ⟨-, contends, -⟩ := contended built here
        obtain ⟨update, keeps, rfl⟩ := List.mem_map.mp kept
        exact contends.among update
          (((trimmedBuild (genuine built (inside built here))).kept_iff update).mp keeps).1

/-- One update in a frame. -/
def oneUpdate : ProjectionConfig :=
  { originConfig with maxUpdatesPerFrame := 1 }

/-- Both objects have changed once more. -/
def touchBoth (world : World) : World :=
  ((world.setProperty 1 [97] (.integer 5)).2.setProperty 2 [97] (.integer 5)).2

/-- Every frame is acknowledged before both objects change again. -/
def contendedEvents : List EngineEvent :=
  [.addConnection 7 originArea, .onProjection originWorldBoth 1, .acknowledge 7 1,
    .onProjection (touchBoth originWorldBoth) 2, .acknowledge 7 2,
    .onProjection (touchBoth (touchBoth originWorldBoth)) 3]

/-- The last frame drops an update that has waited longer than one it keeps. -/
def starves (log : FrameLog) : Bool :=
  (log.built.getLast?).any fun built => built.candidates.any fun kept =>
    built.candidates.any fun dropped =>
      decide (kept ∈ built.frame.updates ∧ dropped ∉ built.frame.updates ∧
        kept.entity.metadata.priority = dropped.entity.metadata.priority ∧
        lastSent log.built.dropLast dropped.wid < lastSent log.built.dropLast kept.wid)

theorem contended_computed :
    (runLabels (FrameLog.step 7) (.initial oneUpdate {}) contendedEvents).map
      (fun log => (log.built.map fun built => built.frame.sent, starves log)) =
      some ([[1, 2], [1], [1]], true) := by
  decide +kernel

theorem trims_fairly_iff_contended : ∃ log : FrameLog,
    (log.built.map fun built => built.frame.sent) = [[1, 2], [1], [1]] ∧
      (TrimsFairly log ↔ EveryDeltaFollows log) := by
  obtain ⟨log, computed, outcome⟩ := Option.map_eq_some_iff.mp contended_computed
  exact ⟨log, congrArg Prod.fst outcome, trims_fairly_iff
    (GuardedRun.of_runLabels computed fun _ _ => trivial)⟩

/-- Of two entities that change all the time only the first is ever sent. -/
theorem second_entity_starves : ¬ ∀ (config : ProjectionConfig) (policy : ProjectionPolicy)
    (id : ConnectionId) (events : List EngineEvent) (log : FrameLog),
    AnyRun (FrameLog.Step id) (.initial config policy) events log → TrimsFairly log := by
  intro always
  obtain ⟨log, computed, outcome⟩ := Option.map_eq_some_iff.mp contended_computed
  have fair := always oneUpdate {} 7 _ log (GuardedRun.of_runLabels computed fun _ _ => trivial)
  have starving : starves log = true := congrArg Prod.snd outcome
  obtain ⟨built, last, check⟩ := (Option.any_eq_true _ _).mp starving
  simp only [List.any_eq_true, decide_eq_true_eq] at check
  obtain ⟨kept, keptIn, dropped, droppedIn, keeps, drops, level, longer⟩ := check
  refine absurd (fair.longest log.built.dropLast built [] ?_ kept keptIn keeps dropped droppedIn
    drops level) (not_le_of_gt longer)
  exact (List.dropLast_append_getLast? built last).symm

end Run

end GeoWorld.Projection
