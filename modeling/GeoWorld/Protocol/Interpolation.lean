import Mathlib
import GeoWorld.Library.EditScript
import GeoWorld.Library.WriteList
import GeoWorld.Protocol.EntityHash

/-!
The two things a client makes of its frames: the replica, and the snapshots it interpolates
positions from. A snapshot that is not later than the newest one is not retained, so what the
snapshots say of a frame depends on the times of those before it.
-/

namespace GeoWorld.Protocol.Interpolation

open WorldModel Library

/-- A frame that both of them are given. -/
inductive Observed where
  | keyframe (frame : WireKeyframe)
  | delta (frame : WireDelta)
  deriving DecidableEq

def Observed.simulationTimeUs : Observed → Int64
  | .keyframe frame => frame.simulationTimeUs
  | .delta frame => frame.simulationTimeUs

section Maps

variable {α : Type}

/-- The entries of a keyframe, with what is kept of an entity. -/
def keyframeWrites (kept : FeatureId → WireEntity → α) (keyframe : WireKeyframe) :
    List (WorldId × α) :=
  keyframe.entities.map fun enter => (enter.wid, kept enter.fid enter.entity)

def deltaWrites (kept : FeatureId → WireEntity → α) (delta : WireDelta) : List (WorldId × α) :=
  (delta.enters.map fun enter => (enter.wid, kept enter.fid enter.entity)) ++
    delta.updates.map fun update => (update.wid, kept update.fid update.entity)

/-- A delta erases its leaves and then writes its enters and updates. -/
def applyDelta (kept : FeatureId → WireEntity → α) (entities : WidMap α) (delta : WireDelta) :
    WidMap α :=
  (deltaWrites kept delta).foldl (fun acc write => acc.insert write.1 write.2)
    ((delta.leaves.map WireLeave.wid).foldl (fun acc wid => acc.erase wid) entities)

end Maps

/-- `ReplicaAccumulator`, by its `entities_`. -/
abbrev ReplicaAccumulator := WidMap (FeatureId × UInt64)

def replicaEntry (fid : FeatureId) (entity : WireEntity) : FeatureId × UInt64 :=
  (fid, wireEntityHash entity)

def ReplicaAccumulator.apply (replica : ReplicaAccumulator) : Observed → ReplicaAccumulator
  | .keyframe frame => (keyframeWrites replicaEntry frame).foldl
      (fun acc write => acc.insert write.1 write.2) ∅
  | .delta frame => applyDelta replicaEntry replica frame

structure Snapshot where
  tick : UInt64
  simulationTimeUs : Int64
  positions : WidMap WireVec3

structure InterpolationBuffer where
  delayUs : Int64
  snapshots : List Snapshot := []

/-- What `sample` computes for an entity. `between` is, on each axis and in doubles,
`older + (newer - older) * (elapsed / span)`. -/
inductive Sampled where
  | absent
  | position (position : WireVec3)
  | between (older newer : WireVec3) (elapsed span : Int64)
  deriving DecidableEq

def Sampled.ofLookup : Option WireVec3 → Sampled
  | none => .absent
  | some found => .position found

namespace InterpolationBuffer

def create (delayUs : Int64) : InterpolationBuffer where
  delayUs := if delayUs < 0 then 0 else delayUs

/-- The loop of `retain`: snapshots go from the front while the next one is not later than the
time of rendering. -/
def evict (render : Int64) : List Snapshot → List Snapshot
  | first :: second :: rest =>
    if second.simulationTimeUs ≤ render then evict render (second :: rest)
    else first :: second :: rest
  | snapshots => snapshots

/-- Differences of times wrap around. -/
def renderTimeUs (buffer : InterpolationBuffer) : Int64 :=
  match buffer.snapshots.getLast? with
  | none => 0
  | some newest => newest.simulationTimeUs - buffer.delayUs

def retain (buffer : InterpolationBuffer) (snapshot : Snapshot) : InterpolationBuffer :=
  if buffer.snapshots.getLast?.any fun newest =>
      decide (snapshot.simulationTimeUs ≤ newest.simulationTimeUs) then
    buffer
  else
    let buffer := { buffer with snapshots := buffer.snapshots ++ [snapshot] }
    { buffer with snapshots := evict buffer.renderTimeUs buffer.snapshots }

/-- The positions of the newest snapshot, none without one. -/
def newestPositions (buffer : InterpolationBuffer) : WidMap WireVec3 :=
  (buffer.snapshots.getLast?.map Snapshot.positions).getD ∅

def keptPosition (_ : FeatureId) (entity : WireEntity) : WireVec3 :=
  entity.position

def observe (buffer : InterpolationBuffer) : Observed → InterpolationBuffer
  | .keyframe frame => buffer.retain {
      tick := frame.tick
      simulationTimeUs := frame.simulationTimeUs
      positions := (keyframeWrites keptPosition frame).foldl
        (fun acc write => acc.insertIfNew write.1 write.2) ∅ }
  | .delta frame => buffer.retain {
      tick := frame.tick
      simulationTimeUs := frame.simulationTimeUs
      positions := applyDelta keptPosition buffer.newestPositions frame }

/-- The loop that looks for the first snapshot later than a time, and the one before it;
`none` reads past the end. -/
def bracket (timeUs : Int64) : List Snapshot → Option (Snapshot × Snapshot)
  | older :: newer :: rest =>
    if newer.simulationTimeUs ≤ timeUs then bracket timeUs (newer :: rest)
    else some (older, newer)
  | _ => none

def sample (buffer : InterpolationBuffer) (wid : WorldId) (timeUs : Int64) : Option Sampled :=
  match buffer.snapshots.head?, buffer.snapshots.getLast? with
  | some oldest, some newest =>
    if timeUs ≤ oldest.simulationTimeUs then
      some (.ofLookup oldest.positions[wid]?)
    else if newest.simulationTimeUs ≤ timeUs then
      some (.ofLookup newest.positions[wid]?)
    else
      (bracket timeUs buffer.snapshots).map fun (older, newer) =>
        match older.positions[wid]?, newer.positions[wid]? with
        | some older_position, some newer_position =>
          .between older_position newer_position (timeUs - older.simulationTimeUs)
            (newer.simulationTimeUs - older.simulationTimeUs)
        | some older_position, none => .position older_position
        | none, found => .ofLookup found
  | _, _ => some .absent

end InterpolationBuffer

/-! Frames are listed with the newest first. -/

def replicaOf (frames : List Observed) : ReplicaAccumulator :=
  frames.foldr (fun frame replica => replica.apply frame) ∅

def bufferOf (delayUs : Int64) (frames : List Observed) : InterpolationBuffer :=
  frames.foldr (fun frame buffer => buffer.observe frame) (.create delayUs)

/-- Later than every frame before it. -/
def Later (frame : Observed) (before : List Observed) : Prop :=
  ∀ earlier ∈ before, earlier.simulationTimeUs < frame.simulationTimeUs

instance (frame : Observed) (before : List Observed) : Decidable (Later frame before) :=
  inferInstanceAs (Decidable (∀ earlier ∈ before, _ < _))

/-- The frames that are later than every one before them. -/
def laterFrames : List Observed → List Observed
  | [] => []
  | frame :: before =>
    if Later frame before then frame :: laterFrames before else laterFrames before

/-- The last keyframe and everything after it is later than every frame before it. -/
def Unbroken : List Observed → Prop
  | [] => True
  | frame :: before => Later frame before ∧ ((∃ keyframe, frame = .keyframe keyframe) ∨
      Unbroken before)

/-- The positions that a frame gives to entities, in order. -/
def Observed.written : Observed → List (WorldId × WireVec3)
  | .keyframe frame => keyframeWrites InterpolationBuffer.keptPosition frame
  | .delta frame => deltaWrites InterpolationBuffer.keptPosition frame

/-- The position of the last enter or update of an entity. -/
def lastWritten (frames : List Observed) (wid : WorldId) : Option WireVec3 :=
  frames.foldr (fun frame before => (lastWrite frame.written wid).or before) none

/-- No keyframe enters an entity twice. -/
def EnteredOnce (frames : List Observed) (wid : WorldId) : Prop :=
  ∀ keyframe, Observed.keyframe keyframe ∈ frames →
    (keyframe.entities.countP fun enter => enter.wid = wid) ≤ 1

/-- The positions of exactly the entities of the replica, each that of its last enter or
update. -/
structure Tracks (positions : WidMap WireVec3) (frames : List Observed) : Prop where
  entities : ∀ wid : WorldId, wid ∈ positions ↔ wid ∈ replicaOf frames
  last : ∀ wid : WorldId, EnteredOnce frames wid → ∀ position,
    positions[wid]? = some position → lastWritten frames wid = some position

section Retaining

variable {buffer : InterpolationBuffer} {snapshot : Snapshot}

theorem evict_suffix (render : Int64) (snapshots : List Snapshot) :
    InterpolationBuffer.evict render snapshots <:+ snapshots := by
  fun_induction InterpolationBuffer.evict render snapshots with
  | case1 first second rest early ih => exact ih.trans (List.suffix_cons _ _)
  | case2 first second rest late => exact List.suffix_rfl
  | case3 snapshots few => exact List.suffix_rfl

theorem getLast_evict (render : Int64) (snapshots : List Snapshot) :
    (InterpolationBuffer.evict render snapshots).getLast? = snapshots.getLast? := by
  fun_induction InterpolationBuffer.evict render snapshots with
  | case1 first second rest early ih => rw [ih, List.getLast?_cons_cons]
  | case2 first second rest late => rfl
  | case3 snapshots few => rfl

theorem retain_late (late : ∃ newest ∈ buffer.snapshots.getLast?,
    snapshot.simulationTimeUs ≤ newest.simulationTimeUs) : buffer.retain snapshot = buffer := by
  obtain ⟨newest, last, notLater⟩ := late
  rw [InterpolationBuffer.retain, Option.mem_def.mp last]
  simp [notLater]

/-- A later snapshot becomes the newest, behind what is left of the others. -/
theorem retain_later (later : ∀ newest ∈ buffer.snapshots.getLast?,
    newest.simulationTimeUs < snapshot.simulationTimeUs) :
    (buffer.retain snapshot).snapshots <:+ buffer.snapshots ++ [snapshot] ∧
      (buffer.retain snapshot).snapshots.getLast? = some snapshot := by
  have kept : buffer.snapshots.getLast?.any (fun newest =>
      decide (snapshot.simulationTimeUs ≤ newest.simulationTimeUs)) = false := by
    cases last : buffer.snapshots.getLast? with
    | none => rfl
    | some newest => simpa using later newest last
  rw [InterpolationBuffer.retain, kept]
  refine ⟨evict_suffix _ _, ?_⟩
  simp only [Bool.false_eq_true, if_false]
  rw [getLast_evict, List.getLast?_concat]

end Retaining

/-- The positions after a frame, from those before it. -/
def Observed.place (positions : WidMap WireVec3) : Observed → WidMap WireVec3
  | .keyframe frame => (keyframeWrites InterpolationBuffer.keptPosition frame).foldl
      (fun acc write => acc.insertIfNew write.1 write.2) ∅
  | .delta frame => applyDelta InterpolationBuffer.keptPosition positions frame

def positionsOf (frames : List Observed) : WidMap WireVec3 :=
  frames.foldr (fun frame positions => frame.place positions) ∅

section Buffers

theorem before_newest {snapshots : List Snapshot} (ascending : snapshots.Pairwise fun older newer =>
    older.simulationTimeUs < newer.simulationTimeUs) {older : Snapshot} (held : older ∈ snapshots) :
    ∃ newest ∈ snapshots.getLast?, older.simulationTimeUs ≤ newest.simulationTimeUs := by
  have last := List.getLast?_eq_some_getLast (List.ne_nil_of_mem held)
  generalize snapshots.getLast (List.ne_nil_of_mem held) = newest at last
  obtain ⟨front, rfl⟩ := List.getLast?_eq_some_iff.mp last
  refine ⟨newest, last, ?_⟩
  obtain earlier | same := List.mem_append.mp held
  · exact Int64.le_of_lt ((List.pairwise_append.mp ascending).2.2 older earlier newest
      List.mem_cons_self)
  · rw [List.mem_singleton.mp same]
    exact Int64.le_refl _

/-- The snapshots ascend, the newest is as late as any frame, and it is what the later frames
make of no positions. -/
structure BufferInv (buffer : InterpolationBuffer) (frames : List Observed) : Prop where
  ascending : buffer.snapshots.Pairwise fun older newer =>
    older.simulationTimeUs < newer.simulationTimeUs
  latest : ∀ frame ∈ frames, ∃ newest ∈ buffer.snapshots.getLast?,
    frame.simulationTimeUs ≤ newest.simulationTimeUs
  observed : ∀ newest ∈ buffer.snapshots.getLast?, ∃ frame ∈ frames,
    newest.simulationTimeUs = frame.simulationTimeUs
  positions : buffer.newestPositions = positionsOf (laterFrames frames)

variable {buffer : InterpolationBuffer} {frames : List Observed}

theorem observe_eq (buffer : InterpolationBuffer) (frame : Observed) :
    ∃ tick, buffer.observe frame = buffer.retain
      ⟨tick, frame.simulationTimeUs, frame.place buffer.newestPositions⟩ := by
  cases frame with
  | keyframe frame => exact ⟨frame.tick, rfl⟩
  | delta frame => exact ⟨frame.tick, rfl⟩

theorem BufferInv.observe (inv : BufferInv buffer frames) (frame : Observed) :
    BufferInv (buffer.observe frame) (frame :: frames) := by
  obtain ⟨tick, retained⟩ := observe_eq buffer frame
  by_cases later : Later frame frames
  · have newer : ∀ newest ∈ buffer.snapshots.getLast?,
        newest.simulationTimeUs < frame.simulationTimeUs := by
      intro newest last
      obtain ⟨earlier, member, same⟩ := inv.observed newest last
      rw [same]
      exact later earlier member
    obtain ⟨suffix, last⟩ := @retain_later buffer
      ⟨tick, frame.simulationTimeUs, frame.place buffer.newestPositions⟩ newer
    rw [← retained] at suffix last
    refine ⟨?_, fun other member => ⟨_, last, ?_⟩, fun newest found => ?_, ?_⟩
    · refine List.Pairwise.sublist suffix.sublist ?_
      refine List.pairwise_append.mpr ⟨inv.ascending, List.pairwise_singleton _ _, ?_⟩
      intro older held newest single
      obtain rfl := List.mem_singleton.mp single
      obtain ⟨last, found, above⟩ := before_newest inv.ascending held
      exact Int64.lt_of_le_of_lt above (newer last found)
    · obtain rfl | earlier := List.mem_cons.mp member
      · exact Int64.le_refl _
      · exact Int64.le_of_lt (later other earlier)
    · rw [last] at found
      obtain rfl := Option.some.inj found
      exact ⟨frame, List.mem_cons_self, rfl⟩
    · rw [InterpolationBuffer.newestPositions, last, laterFrames, if_pos later]
      simp [positionsOf, inv.positions]
  · have late : ∃ newest ∈ buffer.snapshots.getLast?,
        frame.simulationTimeUs ≤ newest.simulationTimeUs := by
      simp only [Later, not_forall, Int64.not_lt] at later
      obtain ⟨earlier, member, notLater⟩ := later
      obtain ⟨newest, last, above⟩ := inv.latest earlier member
      exact ⟨newest, last, Int64.le_trans notLater above⟩
    have same := @retain_late buffer
      ⟨tick, frame.simulationTimeUs, frame.place buffer.newestPositions⟩ late
    rw [retained, same]
    refine ⟨inv.ascending, fun other member => ?_, fun newest last => ?_, ?_⟩
    · obtain rfl | earlier := List.mem_cons.mp member
      · exact late
      · exact inv.latest other earlier
    · obtain ⟨earlier, member, same⟩ := inv.observed newest last
      exact ⟨earlier, List.mem_cons_of_mem _ member, same⟩
    · rw [inv.positions, laterFrames, if_neg later]

theorem inv_create (delayUs : Int64) : BufferInv (.create delayUs) [] := by
  refine ⟨List.Pairwise.nil, ?_, ?_, rfl⟩
  · intro frame member
    cases member
  · intro newest last
    cases last

theorem bufferOf_inv (delayUs : Int64) (frames : List Observed) :
    BufferInv (bufferOf delayUs frames) frames := by
  induction frames with
  | nil => exact inv_create delayUs
  | cons frame before ih => exact ih.observe frame

end Buffers

section Sampling

/-- The loop finds two snapshots, in order, before it comes to the end. -/
theorem bracket_found {timeUs : Int64} {older newer : Snapshot} {rest : List Snapshot}
    (ascending : (older :: newer :: rest).Pairwise fun older newer =>
      older.simulationTimeUs < newer.simulationTimeUs)
    (early : ∀ newest ∈ (newer :: rest).getLast?, timeUs < newest.simulationTimeUs) :
    ∃ first second, InterpolationBuffer.bracket timeUs (older :: newer :: rest) =
      some (first, second) ∧ first.simulationTimeUs < second.simulationTimeUs := by
  induction rest generalizing older newer with
  | nil =>
    have later := early newer rfl
    refine ⟨older, newer, ?_, (List.pairwise_cons.mp ascending).1 newer List.mem_cons_self⟩
    rw [InterpolationBuffer.bracket, if_neg (Int64.not_le.mpr later)]
  | cons next rest ih =>
    rw [InterpolationBuffer.bracket]
    split
    · refine ih (List.pairwise_cons.mp ascending).2 ?_
      rwa [List.getLast?_cons_cons] at early
    · exact ⟨older, newer, rfl, (List.pairwise_cons.mp ascending).1 newer List.mem_cons_self⟩

theorem span_ne_zero {older newer : Int64} (ordered : older < newer) : newer - older ≠ 0 := by
  intro zero
  rw [Int64.sub_eq_iff_eq_add, Int64.zero_add] at zero
  exact Int64.lt_irrefl (zero ▸ ordered)

/-- A sample reads no snapshot past the end, and divides by no span of zero. -/
theorem sample_defined {buffer : InterpolationBuffer}
    (ascending : buffer.snapshots.Pairwise fun older newer =>
      older.simulationTimeUs < newer.simulationTimeUs) (wid : WorldId) (timeUs : Int64) :
    ∃ sampled, buffer.sample wid timeUs = some sampled ∧
      ∀ older newer elapsed span, sampled = .between older newer elapsed span → span ≠ 0 := by
  have looked (found : Option WireVec3) : ∀ older newer elapsed span,
      Sampled.ofLookup found = .between older newer elapsed span → span ≠ 0 := by
    intro older newer elapsed span same
    cases found <;> cases same
  unfold InterpolationBuffer.sample
  split
  · rename_i oldest newest first last
    split
    · exact ⟨_, rfl, looked _⟩
    split
    · exact ⟨_, rfl, looked _⟩
    · rename_i after before
      obtain ⟨rest, listed⟩ := List.head?_eq_some_iff.mp first
      rw [listed] at ascending last
      cases rest with
      | nil =>
        obtain rfl := Option.some.inj last
        exact absurd (Int64.le_of_lt (Int64.not_le.mp after)) before
      | cons next rest =>
        rw [List.getLast?_cons_cons] at last
        obtain ⟨one, two, found, ordered⟩ := bracket_found ascending fun other final => by
          rw [← Option.some.inj (last.symm.trans final)]
          exact Int64.not_le.mp before
        rw [listed, found]
        refine ⟨_, rfl, fun older newer elapsed span same => ?_⟩
        dsimp only at same
        split at same
        · obtain ⟨-, -, -, rfl⟩ := Sampled.between.inj same
          exact span_ne_zero ordered
        · cases same
        · exact looked _ older newer elapsed span same
  · refine ⟨.absent, rfl, ?_⟩
    intro older newer elapsed span same
    cases same

end Sampling

section Tracking

theorem keyframeWrites_wids {α : Type} (kept : FeatureId → WireEntity → α)
    (keyframe : WireKeyframe) :
    (keyframeWrites kept keyframe).map Prod.fst = keyframe.entities.map WireEnter.wid := by
  simp [keyframeWrites, Function.comp_def]

theorem deltaWrites_wids {α : Type} (kept : FeatureId → WireEntity → α) (delta : WireDelta) :
    (deltaWrites kept delta).map Prod.fst =
      delta.enters.map WireEnter.wid ++ delta.updates.map WireUpdate.wid := by
  simp [deltaWrites, Function.comp_def]

theorem lookup_applyDelta {α : Type} (kept : FeatureId → WireEntity → α) (entities : WidMap α)
    (delta : WireDelta) (wid : WorldId) :
    (applyDelta kept entities delta)[wid]? = (lastWrite (deltaWrites kept delta) wid).or
      (if wid ∈ delta.leaves.map WireLeave.wid then none else entities[wid]?) := by
  rw [applyDelta, lookup_writes, lookup_foldl_erase]

/-- Which entities there are after a delta does not depend on what is kept of them. -/
theorem mem_applyDelta {α : Type} (kept : FeatureId → WireEntity → α) (entities : WidMap α)
    (delta : WireDelta) (wid : WorldId) :
    wid ∈ applyDelta kept entities delta ↔
      wid ∈ delta.enters.map WireEnter.wid ++ delta.updates.map WireUpdate.wid ∨
        wid ∉ delta.leaves.map WireLeave.wid ∧ wid ∈ entities := by
  rw [Std.ExtTreeMap.mem_iff_isSome_getElem?, lookup_applyDelta, Option.isSome_or,
    Bool.or_eq_true, lastWrite_isSome, deltaWrites_wids, Std.ExtTreeMap.mem_iff_isSome_getElem?]
  refine or_congr_right ?_
  split
  · simp_all
  · simp_all

theorem EnteredOnce.earlier {frame : Observed} {frames : List Observed} {wid : WorldId}
    (once : EnteredOnce (frame :: frames) wid) : EnteredOnce frames wid :=
  fun keyframe member => once keyframe (List.mem_cons_of_mem _ member)

theorem EnteredOnce.writes {keyframe : WireKeyframe} {frames : List Observed} {wid : WorldId}
    (once : EnteredOnce (.keyframe keyframe :: frames) wid) :
    ((keyframeWrites InterpolationBuffer.keptPosition keyframe).countP fun write =>
      write.1 = wid) ≤ 1 := by
  rw [keyframeWrites, List.countP_map]
  exact once keyframe List.mem_cons_self

/-- The positions of all frames are those of the replica. -/
theorem positionsOf_tracks (frames : List Observed) : Tracks (positionsOf frames) frames := by
  induction frames with
  | nil =>
    refine ⟨fun wid => .rfl, fun wid _ position found => ?_⟩
    simp [positionsOf] at found
  | cons frame frames ih =>
    refine ⟨fun wid => ?_, fun wid once position found => ?_⟩
    · cases frame with
      | keyframe keyframe =>
        rw [Std.ExtTreeMap.mem_iff_isSome_getElem?, Std.ExtTreeMap.mem_iff_isSome_getElem?]
        simp only [positionsOf, replicaOf, List.foldr_cons, Observed.place,
          ReplicaAccumulator.apply, lookup_first_writes, lookup_writes, Std.ExtTreeMap.getElem?_empty,
          Option.none_or, Option.or_none, firstWrite_isSome, lastWrite_isSome, keyframeWrites_wids]
      | delta delta =>
        refine (mem_applyDelta _ _ delta wid).trans ((mem_applyDelta _ _ delta wid).trans ?_).symm
        exact or_congr_right (and_congr_right fun _ => (ih.entities wid).symm)
    · have earlier := ih.last wid once.earlier position
      cases frame with
      | keyframe keyframe =>
        simp only [positionsOf, List.foldr_cons, Observed.place, lookup_first_writes,
          Std.ExtTreeMap.getElem?_empty, Option.none_or] at found
        rw [firstWrite_eq_lastWrite once.writes] at found
        simp [lastWritten, Observed.written, found]
      | delta delta =>
        simp only [positionsOf, List.foldr_cons, Observed.place, lookup_applyDelta] at found
        simp only [lastWritten, List.foldr_cons, Observed.written]
        cases own : lastWrite (deltaWrites InterpolationBuffer.keptPosition delta) wid with
        | some latest => simpa [own] using found
        | none =>
          rw [own, Option.none_or] at found
          split at found
          · cases found
          · exact earlier found

/-- With nothing discarded since the last keyframe the later frames make what all make. -/
theorem positionsOf_laterFrames {frames : List Observed} (unbroken : Unbroken frames) :
    positionsOf (laterFrames frames) = positionsOf frames := by
  induction frames with
  | nil => rfl
  | cons frame frames ih =>
    obtain ⟨later, ⟨keyframe, rfl⟩ | before⟩ := unbroken
    · rw [laterFrames, if_pos later]
      rfl
    · rw [laterFrames, if_pos later]
      exact congrArg frame.place (ih before)

end Tracking

section Results

/-- The times of the snapshots ascend strictly and no sample divides by zero or reads past the
end; the newest snapshot tracks the replica of the frames that are later than every one before
them, and that of all frames when none since the last keyframe is discarded. -/
theorem interpolation_tracks_replica (delayUs : Int64) (frames : List Observed) :
    ((bufferOf delayUs frames).snapshots.Pairwise fun older newer =>
        older.simulationTimeUs < newer.simulationTimeUs) ∧
      (∀ (wid : WorldId) (timeUs : Int64), ∃ sampled,
        (bufferOf delayUs frames).sample wid timeUs = some sampled ∧
          ∀ older newer elapsed span, sampled = .between older newer elapsed span → span ≠ 0) ∧
      Tracks (bufferOf delayUs frames).newestPositions (laterFrames frames) ∧
      (Unbroken frames → Tracks (bufferOf delayUs frames).newestPositions frames) := by
  have inv := bufferOf_inv delayUs frames
  refine ⟨inv.ascending, sample_defined inv.ascending, ?_, fun unbroken => ?_⟩
  · rw [inv.positions]
    exact positionsOf_tracks (laterFrames frames)
  · rw [inv.positions, positionsOf_laterFrames unbroken]
    exact positionsOf_tracks frames

/-- An entity without properties at the origin. -/
def originEntity (wid : WorldId) : WireEntity where
  wid := wid
  fid := 1
  version := 1
  position := ⟨0, 0, 0⟩
  semanticType := []
  geometryRef := []
  lifecycle := .active
  properties := ∅
  state := ∅
  relations := []
  capabilities := []
  frequency := .onChange
  priority := 0
  visibilityTags := []

def headerAt (simulationTimeUs : Int64) : WireHeader where
  streamEpoch := 1
  streamSequence := 1
  snapshotId := 1
  baselineSnapshotId := 0
  tick := 1
  simulationTimeUs := simulationTimeUs

/-- A keyframe with one entity. -/
def keyframeAt (simulationTimeUs : Int64) (wid : WorldId) : Observed :=
  .keyframe { headerAt simulationTimeUs with entities := [⟨wid, 1, originEntity wid⟩] }

/-- A server starts again at an earlier time; a later delta meets the snapshot from before. -/
def restartFrames : List Observed :=
  [.delta { headerAt 200 with enters := [], updates := [], leaves := [] },
    keyframeAt 10 2, keyframeAt 100 1]

theorem restart_keeps_stale_entities : ¬ ∀ (delayUs : Int64) (frame : Observed)
    (before : List Observed), Later frame before →
      Tracks (bufferOf delayUs (frame :: before)).newestPositions (frame :: before) := by
  intro claim
  have tracks := claim 0 (.delta { headerAt 200 with enters := [], updates := [], leaves := [] })
    [keyframeAt 10 2, keyframeAt 100 1] (by decide +kernel)
  have stale : (1 : WorldId) ∈ (bufferOf 0 restartFrames).newestPositions := by decide +kernel
  have gone : ¬ (1 : WorldId) ∈ replicaOf restartFrames := by decide +kernel
  exact gone ((tracks.entities 1).mp stale)

end Results

end GeoWorld.Protocol.Interpolation
