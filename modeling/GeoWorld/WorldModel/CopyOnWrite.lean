import Mathlib
import GeoWorld.WorldModel.WorldInvariant

/-!
The world as a plain map of values. A value world has no blocks and no generations: a
snapshot is a copy of the map. The world with shared blocks refines it, because a block
is written in place only while no snapshot holds it, and both storage builds compute the
results of the value world.
-/

namespace GeoWorld.WorldModel

open Library

/-- What the store is for: a map from ids to objects and two counters. -/
structure ValueWorld where
  objects : WidMap WorldObject := ∅
  nextRevision : UInt64 := 0
  eraseRevision : Nat := 0

namespace ValueWorld

def insert (world : ValueWorld) (object : WorldObject) : Bool × ValueWorld :=
  if !object.id.valid || object.version == 0 then
    (false, world)
  else
    let revision := world.nextRevision + 1
    let world := { world with nextRevision := revision }
    if world.objects.contains object.id then
      (false, world)
    else
      (true, { world with
        objects := world.objects.insert object.id { object with revision := revision } })

def erase (world : ValueWorld) (id : WorldId) : Bool × ValueWorld :=
  if world.objects.contains id then
    (true, { world with
      objects := world.objects.erase id
      eraseRevision := world.eraseRevision + 1 })
  else
    (false, world)

def update (world : ValueWorld) (id : WorldId) (mutation : Option (WorldObject → WorldObject)) :
    Bool × ValueWorld :=
  match world.objects[id]?, mutation with
  | some object, some mutate =>
    (true, { world with objects := world.objects.insert id (mutate object) })
  | _, _ => (false, world)

def setProperty (world : ValueWorld) (id : WorldId) (key : ByteString) (value : Value) :
    Bool × ValueWorld :=
  match world.objects[id]? with
  | none => (false, world)
  | some object =>
    if object.lifecycle = .retired then
      (false, world)
    else
      (true, { world with objects := world.objects.insert id { object with
        properties := object.properties.insert key value
        version := object.version + 1 } })

def addRelation (world : ValueWorld) (source : WorldId) (relation : Relation) :
    Bool × ValueWorld :=
  if (world.objects[relation.target]?).isNone || relation.type.isEmpty then
    (false, world)
  else
    match world.objects[source]? with
    | none => (false, world)
    | some object =>
      (true, { world with objects := world.objects.insert source { object with
        relations := object.relations ++ [relation]
        version := object.version + 1 } })

def restore (objects : List WorldObject) (nextRevision : UInt64) (eraseRevision : Nat) :
    ValueWorld where
  objects := objects.foldl (fun m object => m.insert object.id object) ∅
  nextRevision := nextRevision
  eraseRevision := eraseRevision

end ValueWorld

/-- A value world and the snapshots taken of it. -/
structure ValueHistory where
  current : ValueWorld := {}
  snapshots : List ValueWorld := []

def ValueHistory.step (history : ValueHistory) : WorldOp → Bool × ValueHistory
  | .insert object => let (ok, world) := history.current.insert object
    (ok, { history with current := world })
  | .erase id => let (ok, world) := history.current.erase id
    (ok, { history with current := world })
  | .update id mutation => let (ok, world) := history.current.update id mutation
    (ok, { history with current := world })
  | .setProperty id key value => let (ok, world) := history.current.setProperty id key value
    (ok, { history with current := world })
  | .addRelation source relation => let (ok, world) := history.current.addRelation source relation
    (ok, { history with current := world })
  | .restore objects nextRevision eraseRevision =>
    (true, { history with current := ValueWorld.restore objects nextRevision eraseRevision })
  | .freezeSnapshot => (true, { history with snapshots := history.snapshots ++ [history.current] })

/-- A world and the snapshots of it that are still held. -/
structure HeldWorld where
  world : World
  snapshots : List FrozenStorage := []

def HeldWorld.step (build : StorageBuild) (held : HeldWorld) : WorldOp → Bool × HeldWorld
  | .insert object => let (ok, world) := held.world.insert object
    (ok, { held with world := world })
  | .erase id => let (ok, world) := held.world.erase id
    (ok, { held with world := world })
  | .update id mutation => let (ok, world) := held.world.update id mutation
    (ok, { held with world := world })
  | .setProperty id key value => let (ok, world) := held.world.setProperty id key value
    (ok, { held with world := world })
  | .addRelation source relation => let (ok, world) := held.world.addRelation source relation
    (ok, { held with world := world })
  | .restore objects nextRevision eraseRevision =>
    (true, { held with world := held.world.restore objects nextRevision eraseRevision })
  | .freezeSnapshot => let (frozen, world) := freezeSnapshot build held.world
    (true, { world := world, snapshots := held.snapshots ++ [frozen] })

/-- Runs operations and collects what they return. -/
def runOps {σ : Type} (step : σ → WorldOp → Bool × σ) : σ → List WorldOp → List Bool × σ
  | state, [] => ([], state)
  | state, op :: ops =>
    let (result, next) := step state op
    let (results, last) := runOps step next ops
    (result :: results, last)

/-- The objects an entry table denotes over a heap. -/
def denote (heap : Std.ExtTreeMap Address WorldObject compare) (objects : WidMap ObjectEntry) :
    WidMap WorldObject :=
  objects.filterMap fun _ entry => heap[entry.object]?

theorem denote_getElem? (heap : Std.ExtTreeMap Address WorldObject compare)
    (objects : WidMap ObjectEntry) (id : WorldId) :
    (denote heap objects)[id]? = objects[id]?.bind fun entry => heap[entry.object]? := by
  rw [denote, Std.ExtTreeMap.getElem?_filterMap']

def World.value (world : World) : ValueWorld where
  objects := denote world.heap world.objects
  nextRevision := world.nextRevision
  eraseRevision := world.eraseRevision

def FrozenStorage.value (heap : Std.ExtTreeMap Address WorldObject compare)
    (frozen : FrozenStorage) : ValueWorld where
  objects := denote heap frozen.objects
  nextRevision := frozen.nextRevision
  eraseRevision := frozen.eraseRevision

def HeldWorld.value (held : HeldWorld) : ValueHistory where
  current := held.world.value
  snapshots := held.snapshots.map (FrozenStorage.value held.world.heap)

/-- Every address a table names is below `bound` and holds a block. -/
def Stored (heap : Std.ExtTreeMap Address WorldObject compare) (bound : Address)
    (objects : WidMap ObjectEntry) : Prop :=
  ∀ (id : WorldId) (entry : ObjectEntry), objects[id]? = some entry →
    entry.object < bound ∧ (heap[entry.object]?).isSome

/-- The ownership invariant: an entry of the current generation is alone on its block. -/
structure CowInv (held : HeldWorld) : Prop where
  live : Stored held.world.heap held.world.nextAddress held.world.objects
  frozen : ∀ storage ∈ held.snapshots,
    Stored held.world.heap held.world.nextAddress storage.objects
  apart : ∀ (id other : WorldId) (entry entry' : ObjectEntry),
    held.world.objects[id]? = some entry → held.world.objects[other]? = some entry' →
      entry.object = entry'.object → id = other
  generation_le : ∀ (id : WorldId) (entry : ObjectEntry),
    held.world.objects[id]? = some entry → entry.cowGeneration ≤ held.world.cowGeneration
  owned : ∀ storage ∈ held.snapshots, ∀ (id other : WorldId) (entry entry' : ObjectEntry),
    storage.objects[id]? = some entry → held.world.objects[other]? = some entry' →
      entry'.cowGeneration = held.world.cowGeneration → entry'.object ≠ entry.object

section Heap

variable {heap : Std.ExtTreeMap Address WorldObject compare} {objects : WidMap ObjectEntry}
variable {bound : Address}

theorem Stored.mono (stored : Stored heap bound objects) {address : Address}
    (object : WorldObject) {bound' : Address} (le : bound ≤ bound') :
    Stored (heap.insert address object) bound' objects := by
  intro id entry found
  obtain ⟨below, block⟩ := stored id entry found
  refine ⟨below.trans_le le, ?_⟩
  rw [lookup_insert]
  split
  · rfl
  · exact block

/-- Writing a block no entry names does not show. -/
theorem denote_insert_of_ne {address : Address} (object : WorldObject)
    (elsewhere : ∀ (id : WorldId) (entry : ObjectEntry), objects[id]? = some entry →
      entry.object ≠ address) :
    denote (heap.insert address object) objects = denote heap objects := by
  refine Std.ExtTreeMap.ext_getElem? fun id => ?_
  rw [denote_getElem?, denote_getElem?]
  cases found : objects[id]? with
  | none => rfl
  | some entry => exact lookup_insert_ne heap (elsewhere id entry found) object

/-- Writing the block of one id shows at that id only. -/
theorem denote_insert_of_apart {id : WorldId} {entry : ObjectEntry} (object : WorldObject)
    (stored : objects[id]? = some entry)
    (apart : ∀ (other : WorldId) (entry' : ObjectEntry), objects[other]? = some entry' →
      entry'.object = entry.object → other = id) :
    denote (heap.insert entry.object object) objects = (denote heap objects).insert id object := by
  refine Std.ExtTreeMap.ext_getElem? fun other => ?_
  rw [denote_getElem?, lookup_insert, denote_getElem?]
  by_cases same : other = id
  · rw [if_pos same, same, stored]
    exact lookup_insert_self heap entry.object object
  · rw [if_neg same]
    cases found : objects[other]? with
    | none => rfl
    | some entry' =>
      exact lookup_insert_ne heap (fun equal => same (apart other entry' found equal)) object

/-- Storing an object in a fresh block. -/
theorem denote_setEntry (stored : Stored heap bound objects) (id : WorldId)
    (object : WorldObject) (generation : Nat) :
    denote (heap.insert bound object) (objects.insert id ⟨bound, generation⟩) =
      (denote heap objects).insert id object := by
  refine Std.ExtTreeMap.ext_getElem? fun other => ?_
  rw [denote_getElem?, lookup_insert, lookup_insert, denote_getElem?]
  by_cases same : other = id
  · rw [if_pos same, if_pos same]
    exact lookup_insert_self heap bound object
  · rw [if_neg same, if_neg same]
    cases found : objects[other]? with
    | none => rfl
    | some entry => exact lookup_insert_ne heap (stored other entry found).1.ne object

theorem denote_contains (stored : Stored heap bound objects) (id : WorldId) :
    (denote heap objects).contains id = objects.contains id := by
  rw [Std.ExtTreeMap.contains_eq_isSome_getElem?, Std.ExtTreeMap.contains_eq_isSome_getElem?,
    denote_getElem?]
  cases found : objects[id]? with
  | none => rfl
  | some entry => exact (stored id entry found).2

theorem denote_erase (id : WorldId) :
    denote heap (objects.erase id) = (denote heap objects).erase id := by
  refine Std.ExtTreeMap.ext_getElem? fun other => ?_
  rw [denote_getElem?, lookup_erase, lookup_erase, denote_getElem?]
  split <;> rfl

theorem denote_map (generation : Nat) :
    denote heap (objects.map fun _ entry => { entry with cowGeneration := generation }) =
      denote heap objects := by
  refine Std.ExtTreeMap.ext_getElem? fun id => ?_
  rw [denote_getElem?, denote_getElem?, Std.ExtTreeMap.getElem?_map]
  cases objects[id]? <;> rfl

end Heap

section Steps

variable {held : HeldWorld}

theorem find_eq_value (held : HeldWorld) (id : WorldId) :
    held.world.find id = held.value.current.objects[id]? :=
  (denote_getElem? _ _ id).symm

/-- Counters other than the generation play no part. -/
theorem CowInv.congr (inv : CowInv held) {after : World} (heap : after.heap = held.world.heap)
    (next : after.nextAddress = held.world.nextAddress)
    (objects : after.objects = held.world.objects)
    (generation : after.cowGeneration = held.world.cowGeneration) :
    CowInv { held with world := after } := by
  refine ⟨?_, ?_, ?_, ?_, ?_⟩
  · simp only [heap, next, objects]
    exact inv.live
  · simp only [heap, next]
    exact inv.frozen
  · simp only [objects]
    exact inv.apart
  · simp only [objects, generation]
    exact inv.generation_le
  · simp only [objects, generation]
    exact inv.owned

theorem cowInv_setEntry (inv : CowInv held) (id : WorldId) (object : WorldObject) :
    CowInv { held with world := held.world.setEntry id object } := by
  have entries : ∀ (other : WorldId) (entry : ObjectEntry),
      (held.world.setEntry id object).objects[other]? = some entry →
        (other = id ∧ entry = ⟨held.world.nextAddress, held.world.cowGeneration⟩) ∨
        held.world.objects[other]? = some entry := by
    intro other entry found
    simp only [World.setEntry, lookup_insert] at found
    split at found
    · next same => exact .inl ⟨same, (Option.some.inj found).symm⟩
    · exact .inr found
  refine ⟨?_, fun storage member => (inv.frozen storage member).mono object (Nat.le_succ _),
    ?_, ?_, ?_⟩
  · intro other entry found
    obtain ⟨-, rfl⟩ | old := entries other entry found
    · exact ⟨Nat.lt_succ_self _, by simp [World.setEntry]⟩
    · exact inv.live.mono object (Nat.le_succ _) other entry old
  · intro first second entry entry' found found' equal
    obtain ⟨same, rfl⟩ | old := entries first entry found
    · obtain ⟨same', -⟩ | old' := entries second entry' found'
      · rw [same, same']
      · exact absurd equal.symm (inv.live second entry' old').1.ne
    · obtain ⟨-, rfl⟩ | old' := entries second entry' found'
      · exact absurd equal (inv.live first entry old).1.ne
      · exact inv.apart first second entry entry' old old' equal
  · intro other entry found
    obtain ⟨-, rfl⟩ | old := entries other entry found
    · exact le_rfl
    · exact inv.generation_le other entry old
  · intro storage member first second entry entry' found found' current
    obtain ⟨-, rfl⟩ | old := entries second entry' found'
    · exact (inv.frozen storage member first entry found).1.ne'
    · exact inv.owned storage member first second entry entry' found old current

theorem value_setEntry (inv : CowInv held) (id : WorldId) (object : WorldObject) :
    HeldWorld.value { held with world := held.world.setEntry id object } =
      { held.value with current := { held.value.current with
        objects := held.value.current.objects.insert id object } } := by
  have frozen : held.snapshots.map (FrozenStorage.value
      (held.world.heap.insert held.world.nextAddress object)) = held.value.snapshots := by
    refine List.map_congr_left fun storage member => ?_
    rw [FrozenStorage.value, denote_insert_of_ne object fun other entry found =>
      (inv.frozen storage member other entry found).1.ne, FrozenStorage.value]
  rw [HeldWorld.value, World.value, World.setEntry]
  simp only [denote_setEntry inv.live, frozen]
  rfl

/-- An in-place write to a block that its entry owns. -/
theorem writeInPlace_spec (inv : CowInv held) {id : WorldId} {entry : ObjectEntry}
    (stored : held.world.objects[id]? = some entry)
    (current : entry.cowGeneration = held.world.cowGeneration) (object : WorldObject) :
    CowInv { held with world := held.world.writeInPlace entry.object object } ∧
      HeldWorld.value { held with world := held.world.writeInPlace entry.object object } =
        { held.value with current := { held.value.current with
          objects := held.value.current.objects.insert id object } } := by
  refine ⟨⟨inv.live.mono object le_rfl, fun storage member =>
    (inv.frozen storage member).mono object le_rfl, inv.apart, inv.generation_le, inv.owned⟩, ?_⟩
  have live := @denote_insert_of_apart held.world.heap _ _ _ object stored
    fun other entry' found equal => inv.apart other id entry' entry found stored equal
  have frozen : held.snapshots.map (FrozenStorage.value
      (held.world.heap.insert entry.object object)) = held.value.snapshots := by
    refine List.map_congr_left fun storage member => ?_
    rw [FrozenStorage.value, denote_insert_of_ne object fun other entry' found =>
      (inv.owned storage member other id entry' entry found stored current).symm,
      FrozenStorage.value]
  rw [HeldWorld.value, World.value, World.writeInPlace]
  simp only [live, frozen]
  rfl

/-- The writable block of an id: its object, and the right to write it in place. -/
theorem writableFind_value (inv : CowInv held) (id : WorldId) :
    CowInv { held with world := (held.world.writableFind id).2 } ∧
      HeldWorld.value { held with world := (held.world.writableFind id).2 } = held.value ∧
      (match (held.world.writableFind id).1 with
        | none => held.value.current.objects[id]? = none
        | some (address, object) => held.value.current.objects[id]? = some object ∧
          ∃ entry, (held.world.writableFind id).2.objects[id]? = some entry ∧
            entry.object = address ∧
            entry.cowGeneration = (held.world.writableFind id).2.cowGeneration) := by
  rw [← find_eq_value]
  unfold World.writableFind World.find
  cases stored : held.world.objects[id]? with
  | none => exact ⟨inv, rfl, rfl⟩
  | some entry =>
    obtain ⟨object, block⟩ := Option.isSome_iff_exists.mp (inv.live id entry stored).2
    simp only [block, Option.bind_some]
    split
    · next current => exact ⟨inv, rfl, rfl, entry, stored, rfl, current⟩
    · have copied := cowInv_setEntry inv id object
      have value := value_setEntry inv id object
      have unchanged : held.value.current.objects.insert id object =
          held.value.current.objects := by
        refine Std.ExtTreeMap.ext_getElem? fun other => ?_
        rw [lookup_insert]
        split
        · next same => rw [same, ← find_eq_value, World.find, stored, Option.bind_some, block]
        · rfl
      rw [unchanged] at value
      refine ⟨copied.congr rfl rfl rfl rfl, value, rfl, ?_⟩
      exact ⟨⟨held.world.nextAddress, held.world.cowGeneration⟩, lookup_insert_self _ _ _,
        rfl, rfl⟩

/-- A step of the shared store is a step of the value world. -/
structure StepRefines (held : HeldWorld) (result : Bool × HeldWorld)
    (expected : Bool × ValueHistory) : Prop where
  result_eq : result.1 = expected.1
  value_eq : result.2.value = expected.2
  inv : CowInv result.2

theorem StepRefines.refl (inv : CowInv held) (ok : Bool) :
    StepRefines held (ok, held) (ok, held.value) :=
  ⟨rfl, rfl, inv⟩

theorem insert_refines (inv : CowInv held) (build : StorageBuild) (object : WorldObject) :
    StepRefines held (held.step build (.insert object)) (held.value.step (.insert object)) := by
  have counted : CowInv { held with world := { held.world with
      nextRevision := held.world.nextRevision + 1 } } := inv.congr rfl rfl rfl rfl
  have known := denote_contains inv.live object.id
  simp only [HeldWorld.step, ValueHistory.step, World.insert, ValueWorld.insert]
  split
  · exact .refl inv false
  · have same : held.value.current.objects.contains object.id =
        held.world.objects.contains object.id := known
    simp only [same]
    split
    · exact ⟨rfl, rfl, counted⟩
    · exact ⟨rfl, value_setEntry counted _ _, cowInv_setEntry counted _ _⟩

theorem erase_refines (inv : CowInv held) (build : StorageBuild) (id : WorldId) :
    StepRefines held (held.step build (.erase id)) (held.value.step (.erase id)) := by
  have same : held.value.current.objects.contains id = held.world.objects.contains id :=
    denote_contains inv.live id
  have kept : ∀ (other : WorldId) (entry : ObjectEntry),
      (held.world.objects.erase id)[other]? = some entry →
        held.world.objects[other]? = some entry := by
    intro other entry found
    rw [lookup_erase] at found
    split at found
    · cases found
    · exact found
  simp only [HeldWorld.step, ValueHistory.step, World.erase, ValueWorld.erase, same]
  split
  · refine ⟨rfl, ?_, fun other entry found => inv.live other entry (kept other entry found),
      inv.frozen, fun first second entry entry' found found' =>
        inv.apart first second entry entry' (kept _ _ found) (kept _ _ found'),
      fun other entry found => inv.generation_le other entry (kept other entry found),
      fun storage member first second entry entry' found found' =>
        inv.owned storage member first second entry entry' found (kept _ _ found')⟩
    simp only [HeldWorld.value, World.value, denote_erase]
  · exact .refl inv false

theorem update_refines (inv : CowInv held) (build : StorageBuild) (id : WorldId)
    (mutation : Option (WorldObject → WorldObject)) :
    StepRefines held (held.step build (.update id mutation))
      (held.value.step (.update id mutation)) := by
  simp only [HeldWorld.step, ValueHistory.step, World.update, ValueWorld.update, find_eq_value]
  cases held.value.current.objects[id]? with
  | none => exact .refl inv false
  | some object =>
    cases mutation with
    | none => exact .refl inv false
    | some mutate =>
      exact ⟨rfl, value_setEntry inv id (mutate object),
        (cowInv_setEntry inv id (mutate object)).congr rfl rfl rfl rfl⟩

theorem setProperty_refines (inv : CowInv held) (build : StorageBuild) (id : WorldId)
    (key : ByteString) (value : Value) :
    StepRefines held (held.step build (.setProperty id key value))
      (held.value.step (.setProperty id key value)) := by
  obtain ⟨inv', same_value, found⟩ := writableFind_value inv id
  simp only [HeldWorld.step, ValueHistory.step, World.setProperty, ValueWorld.setProperty]
  generalize held.world.writableFind id = target at inv' same_value found ⊢
  obtain ⟨block, world⟩ := target
  cases block with
  | none =>
    simp only at found
    simp only [found]
    exact ⟨rfl, same_value, inv'⟩
  | some block =>
    obtain ⟨address, object⟩ := block
    obtain ⟨at_id, entry, stored, rfl, current⟩ := found
    simp only [at_id]
    split
    · exact ⟨rfl, same_value, inv'⟩
    · obtain ⟨written, value_eq⟩ := writeInPlace_spec inv' stored current { object with
        properties := object.properties.insert key value, version := object.version + 1 }
      rw [same_value] at value_eq
      exact ⟨rfl, value_eq, written⟩

theorem addRelation_refines (inv : CowInv held) (build : StorageBuild) (source : WorldId)
    (relation : Relation) :
    StepRefines held (held.step build (.addRelation source relation))
      (held.value.step (.addRelation source relation)) := by
  obtain ⟨inv', same_value, found⟩ := writableFind_value inv source
  simp only [HeldWorld.step, ValueHistory.step, World.addRelation, ValueWorld.addRelation,
    find_eq_value]
  split
  · exact .refl inv false
  · generalize held.world.writableFind source = target at inv' same_value found ⊢
    obtain ⟨block, world⟩ := target
    cases block with
    | none =>
      simp only at found
      simp only [found]
      exact ⟨rfl, same_value, inv'⟩
    | some block =>
      obtain ⟨address, object⟩ := block
      obtain ⟨at_id, entry, stored, rfl, current⟩ := found
      simp only [at_id]
      obtain ⟨written, value_eq⟩ := writeInPlace_spec inv' stored current { object with
        relations := object.relations ++ [relation], version := object.version + 1 }
      rw [same_value] at value_eq
      exact ⟨rfl, value_eq, written⟩

theorem foldl_setEntry_value (inv : CowInv held) (objects : List WorldObject) :
    CowInv { held with
        world := objects.foldl (fun w object => w.setEntry object.id object) held.world } ∧
      HeldWorld.value { held with
          world := objects.foldl (fun w object => w.setEntry object.id object) held.world } =
        { held.value with current := { held.value.current with
          objects := (objects.foldl (fun m object => m.insert object.id object)
            held.value.current.objects) } } := by
  induction objects generalizing held with
  | nil => exact ⟨inv, rfl⟩
  | cons object rest ih =>
    obtain ⟨inv', value_eq⟩ := ih (cowInv_setEntry inv object.id object)
    rw [value_setEntry inv] at value_eq
    exact ⟨inv', value_eq⟩

theorem restore_refines (inv : CowInv held) (build : StorageBuild) (objects : List WorldObject)
    (nextRevision : UInt64) (eraseRevision : Nat) :
    StepRefines held (held.step build (.restore objects nextRevision eraseRevision))
      (held.value.step (.restore objects nextRevision eraseRevision)) := by
  have emptied : CowInv { held with world := { held.world with objects := ∅ } } :=
    ⟨by simp [Stored], inv.frozen, by simp, by simp, by simp⟩
  obtain ⟨inv', value_eq⟩ := foldl_setEntry_value emptied objects
  have nothing : denote held.world.heap ∅ = ∅ := by
    refine Std.ExtTreeMap.ext_getElem? fun id => ?_
    simp [denote_getElem?]
  refine ⟨rfl, ?_, inv'.congr rfl rfl rfl rfl⟩
  have current := congrArg (fun history => history.current.objects) value_eq
  have snapshots := congrArg ValueHistory.snapshots value_eq
  simp only [HeldWorld.value, World.value, nothing] at current snapshots
  simp only [HeldWorld.value, HeldWorld.step, ValueHistory.step, World.restore, World.value,
    ValueWorld.restore, current, snapshots]

end Steps

section Freeze

variable {held : HeldWorld}

/-- Appending a snapshot of the current table at a new generation. -/
theorem freezeSnapshotPersistent_refines (inv : CowInv held) :
    StepRefines held (held.step .persistent .freezeSnapshot)
      (held.value.step .freezeSnapshot) := by
  have frozen : ∀ storage ∈ held.snapshots ++
      [⟨held.world.objects, held.world.nextRevision, held.world.eraseRevision⟩],
      Stored held.world.heap held.world.nextAddress storage.objects := by
    intro storage member
    obtain old | new := List.mem_append.mp member
    · exact inv.frozen storage old
    · rw [List.mem_singleton.mp new]
      exact inv.live
  simp only [HeldWorld.step, ValueHistory.step, freezeSnapshot, freezeSnapshotPersistent]
  split
  · -- the generations start again: every entry is older than the new generation
    have entries : ∀ (id : WorldId) (entry : ObjectEntry),
        (held.world.objects.map fun _ entry => { entry with cowGeneration := 1 })[id]? =
          some entry → ∃ old, held.world.objects[id]? = some old ∧
            entry = { old with cowGeneration := 1 } := by
      intro id entry found
      rw [Std.ExtTreeMap.getElem?_map] at found
      obtain ⟨old, stored, same⟩ := Option.map_eq_some_iff.mp found
      exact ⟨old, stored, same.symm⟩
    refine ⟨rfl, ?_, ?_, frozen, ?_, ?_, ?_⟩
    · simp only [HeldWorld.value, World.value, denote_map, List.map_append]
      rfl
    · intro id entry found
      obtain ⟨old, stored, rfl⟩ := entries id entry found
      exact inv.live id old stored
    · intro id other entry entry' found found' equal
      obtain ⟨old, stored, rfl⟩ := entries id entry found
      obtain ⟨old', stored', rfl⟩ := entries other entry' found'
      exact inv.apart id other old old' stored stored' equal
    · intro id entry found
      obtain ⟨old, stored, rfl⟩ := entries id entry found
      exact Nat.le_succ 1
    · intro storage member id other entry entry' found found' current
      obtain ⟨old, stored, rfl⟩ := entries other entry' found'
      simp at current
  · refine ⟨rfl, ?_, inv.live, frozen, inv.apart, ?_, ?_⟩
    · simp only [HeldWorld.value, World.value, List.map_append]
      rfl
    · intro id entry found
      exact (inv.generation_le id entry found).trans (Nat.le_succ _)
    · intro storage member id other entry entry' found found' current
      have older := inv.generation_le other entry' found'
      simp only at current
      omega

/-- Copying the blocks of some items into fresh ones. -/
theorem copyBlocks_spec (inv : CowInv held) (items : List (WorldId × ObjectEntry))
    (copied : WidMap ObjectEntry) (world : World)
    (fresh : ∀ (id : WorldId) (entry : ObjectEntry), copied[id]? = some entry →
      held.world.nextAddress ≤ entry.object)
    (live : Stored world.heap world.nextAddress copied)
    (extends_heap : held.world.nextAddress ≤ world.nextAddress)
    (kept : ∀ address < held.world.nextAddress, world.heap[address]? = held.world.heap[address]?)
    (listed : ∀ item ∈ items, held.world.objects[item.1]? = some item.2)
    (same : world = { held.world with heap := world.heap, nextAddress := world.nextAddress }) :
    ∃ after : WidMap ObjectEntry × World,
      items.foldl (fun acc item =>
        match acc.2.heap[item.2.object]? with
        | none => acc
        | some object =>
          (acc.1.insert item.1 ⟨acc.2.nextAddress, 1⟩,
            { acc.2 with
              heap := acc.2.heap.insert acc.2.nextAddress object
              nextAddress := acc.2.nextAddress + 1 })) (copied, world) = after ∧
      (∀ (id : WorldId) (entry : ObjectEntry), after.1[id]? = some entry →
        held.world.nextAddress ≤ entry.object) ∧
      Stored after.2.heap after.2.nextAddress after.1 ∧
      held.world.nextAddress ≤ after.2.nextAddress ∧
      (∀ address < held.world.nextAddress,
        after.2.heap[address]? = held.world.heap[address]?) ∧
      after.2 = { held.world with heap := after.2.heap, nextAddress := after.2.nextAddress } ∧
      denote after.2.heap after.1 = items.foldl (fun m item =>
        match held.world.heap[item.2.object]? with
        | none => m
        | some object => m.insert item.1 object) (denote world.heap copied) := by
  induction items generalizing copied world with
  | nil => exact ⟨_, rfl, fresh, live, extends_heap, kept, same, rfl⟩
  | cons item rest ih =>
    have stored := listed item (by simp)
    have listed' : ∀ other ∈ rest, held.world.objects[other.1]? = some other.2 :=
      fun other later => listed other (by simp [later])
    obtain ⟨below, present⟩ := inv.live item.1 item.2 stored
    obtain ⟨object, block⟩ := Option.isSome_iff_exists.mp present
    have block' : world.heap[item.2.object]? = some object := by rw [kept _ below, block]
    simp only [List.foldl_cons, block, block']
    have written := denote_setEntry live item.1 object 1
    rw [← written]
    refine ih _ _ ?_ ?_ (extends_heap.trans (Nat.le_succ _)) ?_ listed' ?_
    · intro id entry found
      rw [lookup_insert] at found
      split at found
      · obtain rfl := Option.some.inj found
        exact extends_heap
      · exact fresh id entry found
    · intro id entry found
      rw [lookup_insert] at found
      split at found
      · obtain rfl := Option.some.inj found
        exact ⟨Nat.lt_succ_self _, by simp⟩
      · exact live.mono object (Nat.le_succ _) id entry found
    · intro address old
      rw [lookup_insert_ne _ (old.trans_le extends_heap).ne]
      exact kept address old
    · rw [same]

section Collect

variable {f : WorldId × ObjectEntry → Option WorldObject} {items : List (WorldId × ObjectEntry)}

theorem foldl_collect_absent {id : WorldId} (absent : ∀ item ∈ items, item.1 ≠ id)
    (start : WidMap WorldObject) :
    (items.foldl (fun m item => match f item with
      | none => m
      | some object => m.insert item.1 object) start)[id]? = start[id]? := by
  induction items generalizing start with
  | nil => rfl
  | cons item rest ih =>
    have absent' : ∀ other ∈ rest, other.1 ≠ id := fun other later => absent other (by simp [later])
    rw [List.foldl_cons, ih absent']
    split
    · rfl
    · next object _ => exact lookup_insert_ne start (absent item (by simp)).symm object

theorem foldl_collect_member (distinct : (items.map Prod.fst).Nodup)
    {item : WorldId × ObjectEntry} (member : item ∈ items) {object : WorldObject}
    (found : f item = some object) (start : WidMap WorldObject) :
    (items.foldl (fun m item => match f item with
      | none => m
      | some object => m.insert item.1 object) start)[item.1]? = some object := by
  induction items generalizing start with
  | nil => cases member
  | cons head rest ih =>
    have distinct' := List.nodup_cons.mp distinct
    rw [List.foldl_cons]
    obtain rfl | later := List.mem_cons.mp member
    · rw [foldl_collect_absent fun other later same =>
        distinct'.1 (List.mem_map.mpr ⟨other, later, same⟩), found]
      exact lookup_insert_self start item.1 object
    · exact ih distinct'.2 later _

end Collect

theorem freezeSnapshotCopying_refines (inv : CowInv held) :
    StepRefines held (held.step .copying .freezeSnapshot)
      (held.value.step .freezeSnapshot) := by
  have none_copied : Stored held.world.heap held.world.nextAddress ∅ := by simp [Stored]
  obtain ⟨⟨copied, world⟩, computed, fresh, live, extends_heap, kept, same, collected⟩ :=
    copyBlocks_spec inv held.world.objects.toList ∅ held.world (by simp) none_copied le_rfl
      (fun _ _ => rfl)
      (fun item member => Std.ExtTreeMap.mem_toList_iff_getElem?_eq_some.mp member) rfl
  have freeze : held.step .copying .freezeSnapshot =
      (true, { world := world, snapshots := held.snapshots ++
        [⟨copied, held.world.nextRevision, held.world.eraseRevision⟩] }) :=
    congrArg (fun out : WidMap ObjectEntry × World => (true, HeldWorld.mk out.2 (held.snapshots ++
      [FrozenStorage.mk out.1 held.world.nextRevision held.world.eraseRevision]))) computed
  -- old tables read the same blocks in the new heap
  have unmoved : ∀ objects, Stored held.world.heap held.world.nextAddress objects →
      denote world.heap objects = denote held.world.heap objects ∧
        Stored world.heap world.nextAddress objects := by
    intro objects stored
    refine ⟨Std.ExtTreeMap.ext_getElem? fun id => ?_, fun id entry found => ?_⟩
    · rw [denote_getElem?, denote_getElem?]
      cases found : objects[id]? with
      | none => rfl
      | some entry => exact kept _ (stored id entry found).1
    · obtain ⟨below, block⟩ := stored id entry found
      exact ⟨below.trans_le extends_heap, by rw [kept _ below]; exact block⟩
  have copies : denote world.heap copied = denote held.world.heap held.world.objects := by
    have distinct : (held.world.objects.toList.map Prod.fst).Nodup := by
      rw [Std.ExtTreeMap.map_fst_toList_eq_keys]
      exact Std.ExtTreeMap.nodup_keys
    simp only at collected
    rw [collected]
    refine Std.ExtTreeMap.ext_getElem? fun id => ?_
    rw [denote_getElem?]
    cases stored : held.world.objects[id]? with
    | none =>
      rw [foldl_collect_absent]
      · simp [denote_getElem?]
      · rintro item member rfl
        rw [Std.ExtTreeMap.mem_toList_iff_getElem?_eq_some, stored] at member
        cases member
    | some entry =>
      obtain ⟨object, block⟩ := Option.isSome_iff_exists.mp (inv.live id entry stored).2
      have listed : (id, entry) ∈ held.world.objects.toList :=
        Std.ExtTreeMap.mem_toList_iff_getElem?_eq_some.mpr stored
      rw [Option.bind_some, block]
      exact foldl_collect_member (f := fun item => held.world.heap[item.2.object]?) distinct
        listed block _
  rw [freeze]
  simp only at same
  refine ⟨rfl, ?_, ?_, ?_, ?_, ?_, ?_⟩
  · have frozen : held.snapshots.map (FrozenStorage.value world.heap) =
        held.snapshots.map (FrozenStorage.value held.world.heap) := by
      refine List.map_congr_left fun storage member => ?_
      rw [FrozenStorage.value, (unmoved _ (inv.frozen storage member)).1, FrozenStorage.value]
    rw [same]
    simp only [HeldWorld.value, World.value, ValueHistory.step, List.map_append, frozen,
      (unmoved _ inv.live).1, List.map_cons, List.map_nil, FrozenStorage.value, copies]
  · rw [same]
    exact (unmoved _ inv.live).2
  · intro storage member
    obtain old | new := List.mem_append.mp member
    · exact (unmoved _ (inv.frozen storage old)).2
    · rw [List.mem_singleton.mp new]
      exact live
  · rw [same]
    exact inv.apart
  · rw [same]
    exact inv.generation_le
  · rw [same]
    intro storage member id other entry entry' found found' current
    obtain old | new := List.mem_append.mp member
    · exact inv.owned storage old id other entry entry' found found' current
    · rw [List.mem_singleton.mp new] at found
      exact ((inv.live other entry' found').1.trans_le (fresh id entry found)).ne

end Freeze

section Runs

theorem step_refines {held : HeldWorld} (inv : CowInv held) (build : StorageBuild) (op : WorldOp) :
    StepRefines held (held.step build op) (held.value.step op) := by
  cases op with
  | insert object => exact insert_refines inv build object
  | erase id => exact erase_refines inv build id
  | update id mutation => exact update_refines inv build id mutation
  | setProperty id key value => exact setProperty_refines inv build id key value
  | addRelation source relation => exact addRelation_refines inv build source relation
  | restore objects nextRevision eraseRevision =>
    exact restore_refines inv build objects nextRevision eraseRevision
  | freezeSnapshot =>
    cases build with
    | persistent => exact freezeSnapshotPersistent_refines inv
    | copying => exact freezeSnapshotCopying_refines inv

theorem runOps_refines {held : HeldWorld} (inv : CowInv held) (build : StorageBuild)
    (ops : List WorldOp) :
    (runOps (HeldWorld.step build) held ops).1 = (runOps ValueHistory.step held.value ops).1 ∧
      (runOps (HeldWorld.step build) held ops).2.value =
        (runOps ValueHistory.step held.value ops).2 := by
  induction ops generalizing held with
  | nil => exact ⟨rfl, rfl⟩
  | cons op rest ih =>
    obtain ⟨result, value, inv'⟩ := step_refines inv build op
    obtain ⟨results, last⟩ := ih inv'
    rw [value] at results last
    simp only [runOps, result, results, last, and_self]

/-- An empty world whose generation counter stands anywhere. -/
def HeldWorld.initial (generation : Nat) : HeldWorld :=
  { world := { cowGeneration := generation } }

theorem cowInv_initial (generation : Nat) : CowInv (HeldWorld.initial generation) :=
  ⟨by simp [HeldWorld.initial, Stored], by simp [HeldWorld.initial], by simp [HeldWorld.initial],
    by simp [HeldWorld.initial], by simp [HeldWorld.initial]⟩

theorem value_initial (generation : Nat) : (HeldWorld.initial generation).value = {} := by
  have nothing : denote (∅ : Std.ExtTreeMap Address WorldObject compare) ∅ = ∅ := by
    refine Std.ExtTreeMap.ext_getElem? fun id => ?_
    simp [denote_getElem?]
  simp only [HeldWorld.value, HeldWorld.initial, World.value, nothing, List.map_nil]

/-- For every sequence of operations, from any generation, the store with shared blocks
returns what the value world returns, denotes the value world's map and counters, and each
snapshot denotes the map of its moment; so does the store that copies. -/
theorem copy_on_write_refines_value_map (generation : Nat) (ops : List WorldOp) :
    let shared := runOps (HeldWorld.step .persistent) (HeldWorld.initial generation) ops
    let copied := runOps (HeldWorld.step .copying) (HeldWorld.initial 1) ops
    let value := runOps ValueHistory.step {} ops
    shared.1 = value.1 ∧ shared.2.value = value.2 ∧ copied.1 = value.1 ∧
      copied.2.value = value.2 := by
  obtain ⟨results, last⟩ := runOps_refines (cowInv_initial generation) .persistent ops
  obtain ⟨results', last'⟩ := runOps_refines (cowInv_initial 1) .copying ops
  rw [value_initial] at results last results' last'
  exact ⟨results, last, results', last'⟩

end Runs

end GeoWorld.WorldModel
