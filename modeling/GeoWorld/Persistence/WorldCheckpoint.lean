import Mathlib
import GeoWorld.Persistence.WorldProvider

/-!
The payload of a world depends on its objects and counters only, and restoring it gives
them back in any world, as long as no version or revision has wrapped around to zero:
the reader refuses counters that no object was ever given.
-/

namespace GeoWorld.Persistence

open WorldModel Library ByteReader WorldCheckpointProvider

/-- The operations between two restores that leave the version to the store. -/
def isEdit : WorldOp → Bool
  | .update _ _ => false
  | .restore _ _ _ => false
  | _ => true

/-- What edits and freezes make of an empty world. -/
def edited (build : StorageBuild) (generation : Nat) (ops : List WorldOp) : World :=
  (runOps (HeldWorld.step build) (HeldWorld.initial generation) ops).2.world

/-- Freezing a world and encoding the snapshot. -/
def checkpointPayload (build : StorageBuild) (traversal : Traversal) (world : World) :
    ByteString :=
  let frozen := freezeSnapshot build world
  (encode traversal frozen.2.heap frozen.1).payload

structure WorldWithinLimits (world : World) : Prop where
  size : world.size ≤ maxWorldObjects
  objects : ∀ object ∈ world.contents, worldLimits.AllowsObject object

/-- The same objects under the same ids, and counters with the same 64 bits. -/
structure SameState (left right : World) : Prop where
  objects : ∀ id, left.find id = right.find id
  nextRevision : left.nextRevision = right.nextRevision
  eraseRevision : UInt64.ofNat left.eraseRevision = UInt64.ofNat right.eraseRevision

/-- The checkpoint of a world: it restores into any world, other worlds with the same state
have the same, and a payload that is refused changes nothing. -/
structure CheckpointSound (build : StorageBuild) (traversal : Traversal) (world : World) :
    Prop where
  restores : ∀ target : World, ∃ restored,
    restore target (checkpointPayload build traversal world) worldSchemaVersion =
      (.none, restored) ∧ SameState restored world
  canonical : ∀ (otherBuild : StorageBuild) (otherTraversal : Traversal) (generation : Nat)
    (ops : List WorldOp), (∀ op ∈ ops, isEdit op) →
      SameState (edited otherBuild generation ops) world →
      checkpointPayload otherBuild otherTraversal (edited otherBuild generation ops) =
        checkpointPayload build traversal world
  refused : ∀ (target : World) (payload : ByteString) (schemaVersion : UInt32),
    (restore target payload schemaVersion).1 ≠ .none →
      (restore target payload schemaVersion).2 = target

/-- Every stored object has a version and a revision that was given out. -/
def WorldCountersIntact (world : World) : Prop :=
  ∀ object ∈ world.contents, CountersIntact world.nextRevision object

/-- The counter that an operation advances is not at its last value. -/
def countsOn (nextRevision : UInt64) (find : WorldId → Option WorldObject) : WorldOp → Prop
  | .insert _ => nextRevision + 1 ≠ 0
  | .setProperty id _ _ => ∀ object ∈ find id, object.version + 1 ≠ 0
  | .addRelation source _ => ∀ object ∈ find source, object.version + 1 ≠ 0
  | _ => True

instance (nextRevision : UInt64) (find : WorldId → Option WorldObject) :
    (op : WorldOp) → Decidable (countsOn nextRevision find op)
  | .insert _ => inferInstanceAs (Decidable (nextRevision + 1 ≠ 0))
  | .setProperty id _ _ => inferInstanceAs (Decidable (∀ object ∈ find id, object.version + 1 ≠ 0))
  | .addRelation source _ =>
    inferInstanceAs (Decidable (∀ object ∈ find source, object.version + 1 ≠ 0))
  | .erase _ | .update _ _ | .restore _ _ _ | .freezeSnapshot => isTrue trivial

def CountsThroughout (build : StorageBuild) : HeldWorld → List WorldOp → Prop
  | _, [] => True
  | held, op :: ops =>
    countsOn held.world.nextRevision held.world.find op ∧
      CountsThroughout build (held.step build op).2 ops

instance decidableCountsThroughout (build : StorageBuild) :
    (held : HeldWorld) → (ops : List WorldOp) → Decidable (CountsThroughout build held ops)
  | _, [] => isTrue trivial
  | held, op :: ops =>
    have := decidableCountsThroughout build (held.step build op).2 ops
    inferInstanceAs (Decidable (countsOn held.world.nextRevision held.world.find op ∧
      CountsThroughout build (held.step build op).2 ops))

section Reached

/-- A world whose table is sound, with the snapshots that share its blocks. -/
structure SoundStore (held : HeldWorld) : Prop where
  blocks : CowInv held
  table : WorldInv held.world

theorem step_world (build : StorageBuild) (held : HeldWorld) (op : WorldOp) :
    (held.step build op).2.world = held.world.perform build op := by
  cases op <;> rfl

theorem isEdit_keepsIds {op : WorldOp} (edit : isEdit op) : op.KeepsIds := by
  cases op <;> trivial

theorem SoundStore.step {held : HeldWorld} (sound : SoundStore held) (build : StorageBuild)
    {op : WorldOp} (keeps : op.KeepsIds) : SoundStore (held.step build op).2 := by
  refine ⟨(step_refines sound.blocks build op).inv, ?_⟩
  rw [step_world]
  exact (perform_spec build sound.table keeps).1

theorem SoundStore.run {held : HeldWorld} (sound : SoundStore held) (build : StorageBuild)
    {ops : List WorldOp} (keep : ∀ op ∈ ops, op.KeepsIds) :
    SoundStore (runOps (HeldWorld.step build) held ops).2 := by
  induction ops generalizing held with
  | nil => exact sound
  | cons op ops ih =>
    rw [List.forall_mem_cons] at keep
    exact ih (sound.step build keep.1) keep.2

theorem soundStore_initial (generation : Nat) : SoundStore (HeldWorld.initial generation) :=
  ⟨cowInv_initial generation, worldInv_empty.of_table rfl rfl rfl⟩

theorem soundStore_reached (build : StorageBuild) (generation : Nat) {ops : List WorldOp}
    (keep : ∀ op ∈ ops, op.KeepsIds) :
    SoundStore (runOps (HeldWorld.step build) (HeldWorld.initial generation) ops).2 :=
  (soundStore_initial generation).run build keep

theorem soundStore_edited (build : StorageBuild) (generation : Nat) {ops : List WorldOp}
    (edits : ∀ op ∈ ops, isEdit op) :
    SoundStore (runOps (HeldWorld.step build) (HeldWorld.initial generation) ops).2 :=
  soundStore_reached build generation fun op member => isEdit_keepsIds (edits op member)

end Reached

section Payload

/-- The objects of a world as its value lists them. -/
theorem contents_eq (world : World) : world.contents = world.value.objects.toList.map Prod.snd := by
  rw [World.value, denote, Std.ExtTreeMap.toList_filterMap, List.map_filterMap, World.contents]
  refine List.filterMap_congr fun entry _ => ?_
  cases world.heap[entry.2.object]? <;> rfl

/-- A freeze shares or copies blocks; what it holds is the world of that moment. -/
theorem freezeSnapshot_value {held : HeldWorld} (inv : CowInv held) (build : StorageBuild) :
    Stored (freezeSnapshot build held.world).2.heap (freezeSnapshot build held.world).2.nextAddress
        (freezeSnapshot build held.world).1.objects ∧
      (freezeSnapshot build held.world).1.value (freezeSnapshot build held.world).2.heap =
        held.world.value := by
  obtain ⟨-, value, inv'⟩ := step_refines inv build .freezeSnapshot
  refine ⟨inv'.frozen _ (List.mem_append_right _ (List.mem_singleton.mpr rfl)), ?_⟩
  have snapshots := congrArg ValueHistory.snapshots value
  simp only [HeldWorld.step, HeldWorld.value, ValueHistory.step, List.map_append,
    List.map_cons, List.map_nil] at snapshots
  have last := congrArg List.getLast? snapshots
  simpa using last

theorem denote_size {heap : Std.ExtTreeMap Address WorldObject compare} {bound : Address}
    {objects : WidMap ObjectEntry} (stored : Stored heap bound objects) :
    (denote heap objects).size = objects.size := by
  rw [← Std.ExtTreeMap.length_toList, ← Std.ExtTreeMap.length_toList, denote,
    Std.ExtTreeMap.toList_filterMap, List.filterMap_length_eq_length]
  intro entry member
  have block := (stored entry.1 entry.2
    (Std.ExtTreeMap.mem_toList_iff_getElem?_eq_some.mp member)).2
  rwa [Option.isSome_map]

/-- What a payload holds, whatever blocks and orders it was made from. -/
def canonicalPayload (world : World) : ByteString :=
  PayloadWriter.u64 (UInt64.ofNat world.contents.length) ++
    (world.contents.flatMap writeObject ++ (PayloadWriter.u64 world.nextRevision ++
    PayloadWriter.u64 (UInt64.ofNat world.eraseRevision)))

/-- Sorting what any traversal visits gives the contents. -/
theorem sorted_contents {world : World} (inv : WorldInv world) {visited : List WorldObject}
    (perm : visited.Perm world.contents) :
    visited.insertionSort (fun left right => left.id ≤ right.id) = world.contents := by
  have ordered := World.contents_ascending inv
  have total : Std.Total fun left right : WorldObject => left.id ≤ right.id :=
    ⟨fun left right => UInt64.le_total left.id right.id⟩
  have transitive : IsTrans WorldObject fun left right => left.id ≤ right.id :=
    ⟨fun _ _ _ => UInt64.le_trans⟩
  refine List.Perm.eq_of_pairwise (fun left right member member' before after => ?_)
    (List.pairwise_insertionSort _ visited) (ordered.imp fun before => UInt64.le_of_lt before)
    ((List.perm_insertionSort _ visited).trans perm)
  have listed := perm.subset ((List.perm_insertionSort _ visited).subset member)
  have same := UInt64.le_antisymm before after
  have found := (World.mem_contents inv left).mp listed
  rw [same, (World.mem_contents inv right).mp member'] at found
  exact (Option.some.inj found).symm

theorem checkpointPayload_eq {held : HeldWorld} (sound : SoundStore held) (build : StorageBuild)
    (traversal : Traversal) :
    checkpointPayload build traversal held.world = canonicalPayload held.world := by
  obtain ⟨stored, value⟩ := freezeSnapshot_value sound.blocks build
  have objects := congrArg ValueWorld.objects value
  have perm : ((traversal.visit (freezeSnapshot build held.world).1.objects).filterMap fun entry =>
      (freezeSnapshot build held.world).2.heap[entry.2.object]?).Perm held.world.contents := by
    rw [contents_eq, ← objects]
    refine ((traversal.complete _).filterMap _).trans (List.Perm.of_eq ?_)
    simp only [FrozenStorage.value]
    rw [denote, Std.ExtTreeMap.toList_filterMap, List.map_filterMap]
    refine List.filterMap_congr fun entry _ => ?_
    cases (freezeSnapshot build held.world).2.heap[entry.2.object]? <;> rfl
  have size : (freezeSnapshot build held.world).1.objects.size = held.world.contents.length := by
    rw [contents_eq, List.length_map, Std.ExtTreeMap.length_toList, ← objects]
    exact (denote_size stored).symm
  have nextRevision : (freezeSnapshot build held.world).1.nextRevision =
      held.world.nextRevision := congrArg ValueWorld.nextRevision value
  have eraseRevision : (freezeSnapshot build held.world).1.eraseRevision =
      held.world.eraseRevision := congrArg ValueWorld.eraseRevision value
  simp only [checkpointPayload, encode, canonicalPayload, sorted_contents sound.table perm, size,
    nextRevision, eraseRevision]

theorem canonicalPayload_congr {left right : World} (same : SameState left right) :
    canonicalPayload left = canonicalPayload right := by
  have objects : left.value.objects = right.value.objects := by
    refine Std.ExtTreeMap.ext_getElem? fun id => ?_
    have found := same.objects id
    rw [find_eq_value ⟨left, []⟩, find_eq_value ⟨right, []⟩] at found
    exact found
  rw [canonicalPayload, canonicalPayload, contents_eq, contents_eq, objects, same.nextRevision,
    same.eraseRevision]

end Payload

section Restore

/-- Restoring puts every listed object under its id, in any world. -/
theorem restoreSnapshot_find (target : World) (snapshot : WorldSnapshot) (id : WorldId) :
    (restoreSnapshot target snapshot).find id =
      (snapshot.objects.foldl (fun m object => m.insert object.id object)
        (∅ : WidMap WorldObject))[id]? := by
  have emptied : CowInv ⟨{ target with objects := ∅ }, []⟩ :=
    ⟨by simp [Stored], by simp, by simp, by simp, by simp⟩
  have value := (restore_refines emptied .persistent snapshot.objects snapshot.nextRevision
    snapshot.eraseRevision.toNat).value_eq
  rw [find_eq_value ⟨restoreSnapshot target snapshot, []⟩]
  exact congrArg (fun history : ValueHistory => history.current.objects[id]?) value

theorem mem_of_restored {objects : List WorldObject} {id : WorldId} {object : WorldObject}
    (start : WidMap WorldObject)
    (found : (objects.foldl (fun m object => m.insert object.id object) start)[id]? =
      some object) : object ∈ objects ∨ start[id]? = some object := by
  induction objects generalizing start with
  | nil => exact .inr found
  | cons head objects ih =>
    obtain later | before := ih _ found
    · exact .inl (List.mem_cons_of_mem _ later)
    · rw [lookup_insert] at before
      split at before
      · obtain rfl := Option.some.inj before
        exact .inl List.mem_cons_self
      · exact .inr before

/-- Objects that stand under their own ids are put back where they stood. -/
theorem foldl_insert_values {objects : WidMap WorldObject}
    (named : ∀ (id : WorldId) (object : WorldObject), objects[id]? = some object →
      object.id = id) :
    (objects.toList.map Prod.snd).foldl (fun m object => m.insert object.id object)
      (∅ : WidMap WorldObject) = objects := by
  have own : ∀ (m : WidMap WorldObject), ∀ entry ∈ objects.toList,
      m.insert entry.2.id entry.2 = m.insert entry.1 entry.2 := by
    intro m entry member
    rw [named entry.1 entry.2 (Std.ExtTreeMap.mem_toList_iff_getElem?_eq_some.mp member)]
  rw [List.foldl_map, List.foldl_ext _ _ _ own, foldl_insert_toList]

theorem restored_contents {world : World} (inv : WorldInv world) (id : WorldId) :
    (world.contents.foldl (fun m object => m.insert object.id object)
      (∅ : WidMap WorldObject))[id]? = world.find id := by
  have named : ∀ (id : WorldId) (object : WorldObject),
      world.value.objects[id]? = some object → object.id = id := by
    intro id object stored
    exact World.find_id inv ((find_eq_value ⟨world, []⟩ id).trans stored)
  rw [contents_eq, foldl_insert_values named, find_eq_value ⟨world, []⟩]
  rfl

theorem sameState_restored {world : World} (inv : WorldInv world) (target : World) :
    SameState (restoreSnapshot target ⟨world.contents, world.nextRevision,
      UInt64.ofNat world.eraseRevision⟩) world := by
  refine ⟨fun id => ?_, rfl, ?_⟩
  · rw [restoreSnapshot_find]
    exact restored_contents inv id
  · exact UInt64.ofNat_toNat

/-- A refused payload leaves the world alone. -/
theorem restore_refused {target : World} {payload : ByteString} {schemaVersion : UInt32}
    (refused : (restore target payload schemaVersion).1 ≠ .none) :
    (restore target payload schemaVersion).2 = target := by
  unfold restore at refused ⊢
  split
  · rfl
  · rename_i version
    rw [if_neg version] at refused
    split
    · rfl
    · rename_i snapshot read
      rw [read] at refused
      exact absurd rfl refused

theorem restores_intact {world : World} (inv : WorldInv world) (limits : WorldWithinLimits world)
    (intact : WorldCountersIntact world) (target : World) : ∃ restored,
      restore target (canonicalPayload world) worldSchemaVersion = (.none, restored) ∧
        SameState restored world := by
  have few : world.contents.length ≤ maxWorldObjects :=
    (List.length_filterMap_le _ _).trans (by
      rw [Std.ExtTreeMap.length_toList]
      exact limits.size)
  have read := (@reads_snapshot _ _ (UInt64.ofNat world.eraseRevision) few
    limits.objects intact (fun object member =>
      World.find_valid inv ((World.mem_contents inv object).mp member))
    (World.contents_ascending inv)).readAll
  refine ⟨_, ?_, sameState_restored inv target⟩
  rw [restore, if_neg (not_not.mpr rfl), canonicalPayload, read]

/-- The objects of any payload that restores to the state of a world are counted. -/
theorem intact_of_restores {world : World} (inv : WorldInv world) {target restored : World}
    {payload : ByteString}
    (accepted : restore target payload worldSchemaVersion = (.none, restored))
    (same : SameState restored world) : WorldCountersIntact world := by
  rw [restore, if_neg (not_not.mpr rfl)] at accepted
  split at accepted
  · cases accepted
  · rename_i snapshot read
    have counted := ensures_snapshot.readAll read
    obtain rfl := (Prod.mk.inj accepted).2
    intro object member
    have found := (same.objects object.id).trans ((World.mem_contents inv object).mp member)
    rw [restoreSnapshot_find] at found
    obtain listed | absent := mem_of_restored ∅ found
    · rw [← same.nextRevision]
      exact counted object listed
    · simp at absent

theorem checkpointSound_iff {build : StorageBuild} {generation : Nat} {ops : List WorldOp}
    (edits : ∀ op ∈ ops, isEdit op) (traversal : Traversal)
    (limits : WorldWithinLimits (edited build generation ops)) :
    CheckpointSound build traversal (edited build generation ops) ↔
      WorldCountersIntact (edited build generation ops) := by
  have store := soundStore_edited build generation edits
  have payload := checkpointPayload_eq store build traversal
  constructor
  · intro sound
    obtain ⟨restored, accepted, same⟩ := sound.restores {}
    exact intact_of_restores store.table accepted same
  · intro intact
    refine ⟨fun target => ?_, ?_, fun target bytes version => restore_refused⟩
    · obtain ⟨restored, accepted, same⟩ := restores_intact store.table limits intact target
      refine ⟨restored, ?_, same⟩
      rwa [← payload] at accepted
    · intro otherBuild otherTraversal otherGeneration others edits' same
      have store' := soundStore_edited otherBuild otherGeneration edits'
      rw [edited] at same ⊢
      rw [checkpointPayload_eq store' otherBuild otherTraversal, canonicalPayload_congr same]
      exact payload.symm

end Restore

section Counting

variable {build : StorageBuild} {held : HeldWorld}

/-- The counters of the objects a map holds. -/
def MapIntact (world : ValueWorld) : Prop :=
  ∀ (id : WorldId) (object : WorldObject), world.objects[id]? = some object →
    CountersIntact world.nextRevision object

theorem intact_iff {world : World} (inv : WorldInv world) :
    WorldCountersIntact world ↔ MapIntact world.value := by
  constructor
  · intro intact id object found
    have same : world.find id = some object := (find_eq_value ⟨world, []⟩ id).trans found
    have named := World.find_id inv same
    exact intact object ((World.mem_contents inv object).mpr (by rwa [named]))
  · intro intact object member
    have found := (World.mem_contents inv object).mp member
    rw [find_eq_value ⟨world, []⟩] at found
    exact intact object.id object found

theorem revision_lt_succ {revision : UInt64} (counts : revision + 1 ≠ 0) :
    revision < revision + 1 := by
  have bound := revision.toNat_lt
  have nonzero : (revision + 1).toNat ≠ 0 := fun zero => counts (UInt64.toNat_inj.mp zero)
  rw [UInt64.lt_iff_toNat_lt]
  simp only [UInt64.toNat_add, UInt64.toNat_one] at nonzero ⊢
  omega

theorem CountersIntact.later {revision later : UInt64} {object : WorldObject}
    (intact : CountersIntact revision object) (le : revision ≤ later) :
    CountersIntact later object :=
  ⟨intact.version, intact.revision, UInt64.le_trans intact.given le⟩

theorem mapIntact_insert {world : ValueWorld} (intact : MapIntact world) {id : WorldId}
    {object : WorldObject} (counted : CountersIntact world.nextRevision object) :
    MapIntact { world with objects := world.objects.insert id object } := by
  intro other found stored
  rw [lookup_insert] at stored
  split at stored
  · obtain rfl := Option.some.inj stored
    exact counted
  · exact intact other found stored

/-- One edit whose counter does not wrap around. -/
theorem mapIntact_step {history : ValueHistory} (intact : MapIntact history.current) {op : WorldOp}
    (edit : isEdit op)
    (counts : countsOn history.current.nextRevision (fun id => history.current.objects[id]?) op) :
    MapIntact (history.step op).2.current := by
  cases op with
  | insert object =>
    have given := UInt64.le_of_lt (revision_lt_succ counts)
    simp only [ValueHistory.step, ValueWorld.insert]
    split
    · exact intact
    · rename_i accepted
      have later : MapIntact { history.current with
          nextRevision := history.current.nextRevision + 1 } :=
        fun id found stored => (intact id found stored).later given
      split
      · exact later
      · refine mapIntact_insert later ⟨?_, counts, UInt64.le_refl _⟩
        rintro zero
        simp [show object.version = 0 from zero] at accepted
  | erase id =>
    simp only [ValueHistory.step, ValueWorld.erase]
    split
    · intro other found stored
      rw [lookup_erase] at stored
      split at stored
      · cases stored
      · exact intact other found stored
    · exact intact
  | update id mutation => cases edit
  | setProperty id key value =>
    simp only [ValueHistory.step, ValueWorld.setProperty]
    split
    · exact intact
    · rename_i object found
      split
      · exact intact
      · have before := intact id object found
        exact mapIntact_insert intact ⟨counts object found, before.revision, before.given⟩
  | addRelation source relation =>
    simp only [ValueHistory.step, ValueWorld.addRelation]
    split
    · exact intact
    · split
      · exact intact
      · rename_i object found
        have before := intact source object found
        exact mapIntact_insert intact ⟨counts object found, before.revision, before.given⟩
  | restore objects nextRevision eraseRevision => cases edit
  | freezeSnapshot => exact intact

theorem mapIntact_run (sound : SoundStore held) (intact : MapIntact held.world.value)
    {ops : List WorldOp} (edits : ∀ op ∈ ops, isEdit op)
    (counts : CountsThroughout build held ops) :
    MapIntact (runOps (HeldWorld.step build) held ops).2.world.value := by
  induction ops generalizing held with
  | nil => exact intact
  | cons op ops ih =>
    rw [List.forall_mem_cons] at edits
    have looks : held.world.find = fun id => held.value.current.objects[id]? :=
      funext (find_eq_value held)
    have counted : countsOn held.world.nextRevision held.world.find op := counts.1
    rw [looks] at counted
    have value := (step_refines sound.blocks build op).value_eq
    have current : (held.step build op).2.world.value = (held.value.step op).2.current :=
      congrArg ValueHistory.current value
    have next : MapIntact (held.step build op).2.world.value := by
      rw [current]
      exact mapIntact_step intact edits.1 counted
    exact ih (sound.step build (isEdit_keepsIds edits.1)) next edits.2 counts.2

theorem intact_of_counting {generation : Nat} {ops : List WorldOp}
    (edits : ∀ op ∈ ops, isEdit op)
    (counts : CountsThroughout build (HeldWorld.initial generation) ops) :
    WorldCountersIntact (edited build generation ops) := by
  have store := soundStore_initial generation
  have start : MapIntact (HeldWorld.initial generation).world.value := by
    have empty : (HeldWorld.initial generation).world.value = {} :=
      congrArg ValueHistory.current (value_initial generation)
    rw [empty]
    intro id object found
    simp at found
  exact (intact_iff (soundStore_edited build generation edits).table).mpr
    (mapIntact_run store start edits counts)

end Counting

/-- A world that edits have built is restored from its checkpoint exactly when every version
and revision in it was given out, which is so as long as no counter has wrapped around. -/
theorem world_checkpoint_round_trips_iff (build : StorageBuild) (traversal : Traversal)
    (generation : Nat) (ops : List WorldOp) (edits : ∀ op ∈ ops, isEdit op)
    (limits : WorldWithinLimits (edited build generation ops)) :
    (CheckpointSound build traversal (edited build generation ops) ↔
      WorldCountersIntact (edited build generation ops)) ∧
    (CountsThroughout build (HeldWorld.initial generation) ops →
      WorldCountersIntact (edited build generation ops)) :=
  ⟨checkpointSound_iff edits traversal limits, intact_of_counting edits⟩

/-- Two related objects, a property, and a snapshot between the edits. -/
def relatedOps : List WorldOp :=
  [.insert { id := 7, semanticType := [114], capabilities := [[99], []] },
    .insert {
      id := 3
      properties := (∅ : PropertyBag).insert [] (.real 1)
      lifecycle := .active },
    .addRelation 3 ⟨7, [116], (∅ : PropertyBag).insert [98] (.boolean true)⟩,
    .freezeSnapshot,
    .setProperty 7 [107] (.text [118])]

theorem world_checkpoint_round_trips_related :
    CheckpointSound .copying .descending (edited .copying 1 relatedOps) ∧
      WorldCountersIntact (edited .copying 1 relatedOps) := by
  have counts : CountsThroughout .copying (HeldWorld.initial 1) relatedOps := by decide +kernel
  have law := world_checkpoint_round_trips_iff .copying .descending 1 relatedOps (by decide)
    ⟨by decide +kernel, by decide +kernel⟩
  exact ⟨law.1.mpr (law.2 counts), law.2 counts⟩

/-- An object at the last version. -/
def lastVersionOps : List WorldOp :=
  [.insert { id := 1, version := 18446744073709551615 }, .setProperty 1 [107] (.integer 1)]

/-- A property set on an object at the last version makes its checkpoint unreadable. -/
theorem last_version_not_restored :
    ¬ ∀ (build : StorageBuild) (traversal : Traversal) (generation : Nat) (ops : List WorldOp),
      (∀ op ∈ ops, isEdit op) → WorldWithinLimits (edited build generation ops) →
        CheckpointSound build traversal (edited build generation ops) := by
  intro claim
  have sound := claim .persistent .ascending 1 lastVersionOps (by decide)
    ⟨by decide +kernel, by decide +kernel⟩
  obtain ⟨restored, accepted, -⟩ := sound.restores {}
  have refused : (restore {} (checkpointPayload .persistent .ascending
      (edited .persistent 1 lastVersionOps)) worldSchemaVersion).1 = .checkpointInvalid := by
    decide +kernel
  rw [accepted] at refused
  cases refused

end GeoWorld.Persistence
