import Mathlib
import GeoWorld.Library.TreeMap
import GeoWorld.WorldModel.World

/-!
The invariant of the object store over every run of its operations: each entry owns a
block of its own that holds the object stored under that id. The three counters a
reader of raw pointers compares (`stamp`) grow whenever the owned addresses change.
-/

namespace GeoWorld.WorldModel

open Library

structure WorldInv (world : World) : Prop where
  blocks : ∀ (id : WorldId) (entry : ObjectEntry), world.objects[id]? = some entry →
    ∃ object, world.heap[entry.object]? = some object ∧ object.id = id
  apart : ∀ (id other : WorldId) (entry entry' : ObjectEntry),
    world.objects[id]? = some entry → world.objects[other]? = some entry' →
      entry.object = entry'.object → id = other
  below : ∀ (id : WorldId) (entry : ObjectEntry), world.objects[id]? = some entry →
    entry.object < world.nextAddress
  valid : ∀ (id : WorldId) (entry : ObjectEntry), world.objects[id]? = some entry → id.valid

theorem worldInv_empty : WorldInv {} := by
  constructor <;> simp

namespace World

/-- The counters by which a reader of pointers tells that its snapshot is stale, the
one that outweighs the others first. -/
def stamp (world : World) : ℕ ×ₗ ℕ ×ₗ ℕ :=
  toLex (world.storageRevision, toLex (world.eraseRevision, world.size))

/-- The address each id is stored at. -/
def table (world : World) : WidMap Address :=
  world.objects.map fun _ entry => entry.object

theorem addresses_eq (world : World) : world.addresses = world.table.toList.map Prod.snd := by
  rw [addresses, table, Std.ExtTreeMap.toList_map, List.map_map]
  rfl

theorem table_getElem? (world : World) (id : WorldId) :
    world.table[id]? = (world.objects[id]?).map ObjectEntry.object :=
  Std.ExtTreeMap.getElem?_map

/-- Either the stamp grew or nothing a pointer snapshot depends on changed. -/
def Advances (before after : World) : Prop :=
  before.stamp < after.stamp ∨ (after.stamp = before.stamp ∧ after.table = before.table)

theorem advances_refl (world : World) : Advances world world :=
  .inr ⟨rfl, rfl⟩

theorem advances_of_storageRevision {before after : World}
    (grown : before.storageRevision < after.storageRevision) : Advances before after :=
  .inl (Prod.Lex.toLex_lt_toLex.mpr (.inl grown))

end World

section Find

variable {world : World}

theorem World.find_id (inv : WorldInv world) {id : WorldId} {object : WorldObject}
    (found : world.find id = some object) : object.id = id := by
  obtain ⟨entry, stored, block⟩ := Option.bind_eq_some_iff.mp found
  obtain ⟨held, block', same⟩ := inv.blocks id entry stored
  rw [block] at block'
  rwa [Option.some.inj block']

theorem World.find_valid (inv : WorldInv world) {id : WorldId} {object : WorldObject}
    (found : world.find id = some object) : id.valid := by
  obtain ⟨entry, stored, -⟩ := Option.bind_eq_some_iff.mp found
  exact inv.valid id entry stored

end Find

section Preservation

variable {world : World}

/-- Counters and generations play no part in the invariant. -/
theorem WorldInv.of_table (inv : WorldInv world) {after : World} (heap : after.heap = world.heap)
    (next : after.nextAddress = world.nextAddress) (table : after.table = world.table) :
    WorldInv after := by
  have entries : ∀ (id : WorldId) (entry : ObjectEntry), after.objects[id]? = some entry →
      ∃ entry', world.objects[id]? = some entry' ∧ entry'.object = entry.object := by
    intro id entry stored
    have at_id : after.table[id]? = some entry.object := by
      rw [World.table_getElem?, stored, Option.map_some]
    rw [table, World.table_getElem?] at at_id
    exact Option.map_eq_some_iff.mp at_id
  constructor
  · intro id entry stored
    obtain ⟨entry', stored', same⟩ := entries id entry stored
    rw [heap, ← same]
    exact inv.blocks id entry' stored'
  · intro id other entry entry' stored stored' equal
    obtain ⟨first, at_first, same⟩ := entries id entry stored
    obtain ⟨second, at_second, same'⟩ := entries other entry' stored'
    exact inv.apart id other first second at_first at_second (by rw [same, same', equal])
  · intro id entry stored
    obtain ⟨entry', stored', same⟩ := entries id entry stored
    rw [next, ← same]
    exact inv.below id entry' stored'
  · intro id entry stored
    obtain ⟨entry', stored', -⟩ := entries id entry stored
    exact inv.valid id entry' stored'

theorem worldInv_setEntry (inv : WorldInv world) {object : WorldObject} (valid : object.id.valid) :
    WorldInv (world.setEntry object.id object) := by
  have stored_at : ∀ (id : WorldId) (entry : ObjectEntry),
      (world.setEntry object.id object).objects[id]? = some entry →
        (id = object.id ∧ entry.object = world.nextAddress) ∨
        (id ≠ object.id ∧ world.objects[id]? = some entry) := by
    intro id entry stored
    simp only [World.setEntry, lookup_insert] at stored
    split at stored
    · next same =>
      obtain rfl := Option.some.inj stored
      exact .inl ⟨same, rfl⟩
    · next different => exact .inr ⟨different, stored⟩
  constructor
  · intro id entry stored
    obtain ⟨rfl, fresh⟩ | ⟨-, old⟩ := stored_at id entry stored
    · exact ⟨object, by simp [World.setEntry, fresh], rfl⟩
    · have bound := inv.below id entry old
      simp only [World.setEntry, lookup_insert, if_neg bound.ne]
      exact inv.blocks id entry old
  · intro id other entry entry' stored stored' equal
    obtain ⟨same, fresh⟩ | ⟨-, old⟩ := stored_at id entry stored
    · obtain ⟨same', -⟩ | ⟨-, old'⟩ := stored_at other entry' stored'
      · rw [same, same']
      · have bound := inv.below other entry' old'
        exact absurd (equal.symm.trans fresh) bound.ne
    · obtain ⟨-, fresh'⟩ | ⟨-, old'⟩ := stored_at other entry' stored'
      · have bound := inv.below id entry old
        exact absurd (equal.trans fresh') bound.ne
      · exact inv.apart id other entry entry' old old' equal
  · intro id entry stored
    obtain ⟨-, fresh⟩ | ⟨-, old⟩ := stored_at id entry stored
    · rw [fresh]
      exact Nat.lt_succ_self _
    · exact (inv.below id entry old).trans (Nat.lt_succ_self _)
  · intro id entry stored
    obtain ⟨rfl, -⟩ | ⟨-, old⟩ := stored_at id entry stored
    · exact valid
    · exact inv.valid id entry old

/-- Writing an object over the block that already holds an object of its id. -/
theorem worldInv_writeInPlace (inv : WorldInv world) {entry : ObjectEntry} {object : WorldObject}
    (stored : world.objects[object.id]? = some entry) :
    WorldInv (world.writeInPlace entry.object object) := by
  refine ⟨fun id other held => ?_, inv.apart, inv.below, inv.valid⟩
  simp only [World.writeInPlace, lookup_insert]
  by_cases same : other.object = entry.object
  · rw [if_pos same]
    exact ⟨object, rfl, (inv.apart id object.id other entry held stored same).symm⟩
  · rw [if_neg same]
    exact inv.blocks id other held

theorem worldInv_erase (inv : WorldInv world) (id : WorldId) : WorldInv (world.erase id).2 := by
  unfold World.erase
  split
  · have kept : ∀ (other : WorldId) (entry : ObjectEntry),
        (world.objects.erase id)[other]? = some entry → world.objects[other]? = some entry := by
      intro other entry stored
      rw [lookup_erase] at stored
      split at stored
      · cases stored
      · exact stored
    exact ⟨fun other entry stored => inv.blocks other entry (kept other entry stored),
      fun first second entry entry' stored stored' =>
        inv.apart first second entry entry' (kept _ _ stored) (kept _ _ stored'),
      fun other entry stored => inv.below other entry (kept other entry stored),
      fun other entry stored => inv.valid other entry (kept other entry stored)⟩
  · exact inv

theorem worldInv_insert (inv : WorldInv world) (object : WorldObject) :
    WorldInv (world.insert object).2 := by
  unfold World.insert
  split
  · exact inv
  · next accepted =>
    simp only
    have counted : WorldInv { world with nextRevision := world.nextRevision + 1 } :=
      inv.of_table rfl rfl rfl
    split
    · exact counted
    · have valid : object.id.valid := by
        simp only [Bool.or_eq_true, not_or] at accepted
        simpa using accepted.1
      exact @worldInv_setEntry _ counted { object with revision := world.nextRevision + 1 } valid

/-- The block handed out for writing holds the object of its id in the new world. -/
theorem writableFind_spec (inv : WorldInv world) (id : WorldId) :
    WorldInv (world.writableFind id).2 ∧ World.Advances world (world.writableFind id).2 ∧
      ∀ address object, (world.writableFind id).1 = some (address, object) →
        object.id = id ∧ ∃ entry, (world.writableFind id).2.objects[id]? = some entry ∧
          entry.object = address := by
  unfold World.writableFind
  cases stored : world.objects[id]? with
  | none => exact ⟨inv, World.advances_refl world, by simp⟩
  | some entry =>
    obtain ⟨held, block, same⟩ := inv.blocks id entry stored
    simp only [block]
    split
    · refine ⟨inv, World.advances_refl world, ?_⟩
      intro address object found
      simp only [Option.some.injEq, Prod.mk.injEq] at found
      obtain ⟨rfl, rfl⟩ := found
      exact ⟨same, entry, stored, rfl⟩
    · subst same
      have copied := worldInv_setEntry inv (inv.valid _ entry stored)
      refine ⟨copied.of_table rfl rfl rfl, ?_, ?_⟩
      · exact World.advances_of_storageRevision (by simp)
      · intro address object found
        simp only [Option.some.injEq, Prod.mk.injEq] at found
        obtain ⟨rfl, rfl⟩ := found
        exact ⟨rfl, ⟨world.nextAddress, world.cowGeneration⟩, lookup_insert_self _ _ _, rfl⟩

theorem worldInv_foldl_setEntry (inv : WorldInv world) {objects : List WorldObject}
    (valid : ∀ object ∈ objects, object.id.valid) :
    WorldInv (objects.foldl (fun w object => w.setEntry object.id object) world) := by
  induction objects generalizing world with
  | nil => exact inv
  | cons object rest ih =>
    exact ih (worldInv_setEntry inv (valid object (by simp)))
      fun other member => valid other (by simp [member])

end Preservation

/-- The operations of the store. -/
inductive WorldOp where
  | insert (object : WorldObject)
  | erase (id : WorldId)
  | update (id : WorldId) (mutation : Option (WorldObject → WorldObject))
  | setProperty (id : WorldId) (key : ByteString) (value : Value)
  | addRelation (source : WorldId) (relation : Relation)
  | restore (objects : List WorldObject) (nextRevision : UInt64) (eraseRevision : Nat)
  | freezeSnapshot

def World.perform (build : StorageBuild) (world : World) : WorldOp → World
  | .insert object => (world.insert object).2
  | .erase id => (world.erase id).2
  | .update id mutation => (world.update id mutation).2
  | .setProperty id key value => (world.setProperty id key value).2
  | .addRelation source relation => (world.addRelation source relation).2
  | .restore objects nextRevision eraseRevision => world.restore objects nextRevision eraseRevision
  | .freezeSnapshot => (freezeSnapshot build world).2

/-- A mutation keeps the id of the object, and restored objects have valid ids. -/
def WorldOp.KeepsIds : WorldOp → Prop
  | .update _ mutation => ∀ mutate ∈ mutation, ∀ object, (mutate object).id = object.id
  | .restore objects _ _ => ∀ object ∈ objects, object.id.valid
  | _ => True

section Operations

variable {world : World}

theorem advances_insert (world : World) (object : WorldObject) :
    World.Advances world (world.insert object).2 := by
  unfold World.insert
  split
  · exact World.advances_refl world
  · simp only
    split
    · exact .inr ⟨rfl, rfl⟩
    · next absent =>
      have grown : world.size < (world.setEntry object.id object).size := by
        simp only [World.size, World.setEntry, Std.ExtTreeMap.size_insert, if_neg absent]
        omega
      exact .inl (Prod.Lex.toLex_lt_toLex.mpr (.inr ⟨rfl,
        Prod.Lex.toLex_lt_toLex.mpr (.inr ⟨rfl, grown⟩)⟩))

theorem advances_erase (world : World) (id : WorldId) :
    World.Advances world (world.erase id).2 := by
  unfold World.erase
  split
  · exact .inl (Prod.Lex.toLex_lt_toLex.mpr (.inr ⟨rfl,
      Prod.Lex.toLex_lt_toLex.mpr (.inl (Nat.lt_succ_self _))⟩))
  · exact World.advances_refl world

theorem advances_writeInPlace {before after : World} (advances : World.Advances before after)
    (address : Address) (object : WorldObject) :
    World.Advances before (after.writeInPlace address object) :=
  advances

theorem foldl_setEntry_storageRevision (objects : List WorldObject) (world : World) :
    (objects.foldl (fun w object => w.setEntry object.id object) world).storageRevision =
      world.storageRevision := by
  induction objects generalizing world with
  | nil => rfl
  | cons object rest ih => exact ih (world.setEntry object.id object)

/-- The copying build writes the copies to new blocks and leaves the table alone. -/
theorem freezeSnapshotCopying_spec (inv : WorldInv world) :
    WorldInv (freezeSnapshotCopying world).2 ∧
      World.Advances world (freezeSnapshotCopying world).2 := by
  unfold freezeSnapshotCopying
  simp only
  generalize world.objects.toList = items
  suffices ∀ (acc : WidMap ObjectEntry) (copied : World), WorldInv copied →
      World.Advances world copied → WorldInv (items.foldl _ (acc, copied)).2 ∧
        World.Advances world (items.foldl _ (acc, copied)).2 by
    exact this ∅ world inv (World.advances_refl world)
  induction items with
  | nil => exact fun _ copied inv' advances => ⟨inv', advances⟩
  | cons item rest ih =>
    intro acc copied inv' advances
    rw [List.foldl_cons]
    split
    · exact ih _ copied inv' advances
    · next object block =>
      refine ih _ _ ⟨fun id entry stored => ?_, inv'.apart, fun id entry stored => ?_, inv'.valid⟩
        advances
      · have bound := inv'.below id entry stored
        simp only [lookup_insert, if_neg bound.ne]
        exact inv'.blocks id entry stored
      · exact (inv'.below id entry stored).trans (Nat.lt_succ_self _)

theorem freezeSnapshotPersistent_spec (inv : WorldInv world) :
    WorldInv (freezeSnapshotPersistent world).2 ∧
      World.Advances world (freezeSnapshotPersistent world).2 := by
  unfold freezeSnapshotPersistent
  split
  · refine ⟨inv.of_table rfl rfl ?_, World.advances_of_storageRevision (Nat.lt_succ_self _)⟩
    refine Std.ExtTreeMap.ext_getElem? fun id => ?_
    rw [World.table_getElem?, World.table_getElem?, Std.ExtTreeMap.getElem?_map, Option.map_map]
    rfl
  · exact ⟨inv.of_table rfl rfl rfl, .inr ⟨rfl, rfl⟩⟩

/-- Every operation keeps the invariant and advances the stamp when it moves objects. -/
theorem perform_spec (build : StorageBuild) (inv : WorldInv world) {op : WorldOp}
    (keeps : op.KeepsIds) :
    WorldInv (world.perform build op) ∧ World.Advances world (world.perform build op) := by
  cases op with
  | insert object => exact ⟨worldInv_insert inv object, advances_insert world object⟩
  | erase id => exact ⟨worldInv_erase inv id, advances_erase world id⟩
  | update id mutation =>
    simp only [World.perform, World.update]
    split
    · next object mutate found =>
      have same : (mutate object).id = id :=
        (keeps mutate rfl object).trans (World.find_id inv found)
      have valid : (mutate object).id.valid := same ▸ World.find_valid inv found
      have written := worldInv_setEntry inv valid
      rw [same] at written
      exact ⟨written.of_table rfl rfl rfl,
        World.advances_of_storageRevision (Nat.lt_succ_self _)⟩
    · exact ⟨inv, World.advances_refl world⟩
  | setProperty id key value =>
    obtain ⟨inv', advances, block⟩ := writableFind_spec inv id
    simp only [World.perform, World.setProperty]
    split
    · next copied found => exact ⟨by simpa [found] using inv', by simpa [found] using advances⟩
    · next address object copied found =>
      rw [found] at inv' advances block
      obtain ⟨same, entry, stored, rfl⟩ := block address object rfl
      split
      · exact ⟨inv', advances⟩
      · exact ⟨worldInv_writeInPlace inv' (by simpa [same] using stored), advances⟩
  | addRelation source relation =>
    obtain ⟨inv', advances, block⟩ := writableFind_spec inv source
    simp only [World.perform, World.addRelation]
    split
    · exact ⟨inv, World.advances_refl world⟩
    · split
      · next copied found => exact ⟨by simpa [found] using inv', by simpa [found] using advances⟩
      · next address object copied found =>
        rw [found] at inv' advances block
        obtain ⟨same, entry, stored, rfl⟩ := block address object rfl
        exact ⟨worldInv_writeInPlace inv' (by simpa [same] using stored), advances⟩
  | restore objects nextRevision eraseRevision =>
    have emptied : WorldInv { world with objects := ∅ } := by
      constructor <;> simp
    have restored := worldInv_foldl_setEntry emptied keeps
    refine ⟨restored.of_table rfl rfl rfl, World.advances_of_storageRevision ?_⟩
    exact Nat.lt_succ_self _
  | freezeSnapshot =>
    cases build with
    | persistent => exact freezeSnapshotPersistent_spec inv
    | copying => exact freezeSnapshotCopying_spec inv

end Operations

section Traversal

variable {world : World}

namespace World

/-- The objects `for_each_object` visits, by ascending id. -/
def contents (world : World) : List WorldObject :=
  world.objects.toList.filterMap fun entry => world.heap[entry.2.object]?

theorem mem_contents (inv : WorldInv world) (object : WorldObject) :
    object ∈ world.contents ↔ world.find object.id = some object := by
  rw [contents, List.mem_filterMap, find, Option.bind_eq_some_iff]
  constructor
  · rintro ⟨⟨id, entry⟩, listed, block⟩
    have stored := Std.ExtTreeMap.mem_toList_iff_getElem?_eq_some.mp listed
    obtain ⟨held, block', same⟩ := inv.blocks id entry stored
    rw [block] at block'
    obtain rfl := Option.some.inj block'
    exact ⟨entry, by rwa [same], block⟩
  · rintro ⟨entry, stored, block⟩
    exact ⟨(object.id, entry), Std.ExtTreeMap.mem_toList_iff_getElem?_eq_some.mpr stored, block⟩

theorem contents_ascending (inv : WorldInv world) :
    world.contents.Pairwise fun first second => first.id < second.id := by
  have ordered : world.objects.toList.Pairwise fun first second => first.1 < second.1 :=
    Std.ExtTreeMap.ordered_keys_toList.imp fun before => Std.compare_eq_lt.mp before
  have listed : ∀ item ∈ world.objects.toList, ∀ object ∈ world.heap[item.2.object]?,
      object.id = item.1 := by
    intro item member object block
    have stored := Std.ExtTreeMap.mem_toList_iff_getElem?_eq_some.mp member
    obtain ⟨held, block', same⟩ := inv.blocks item.1 item.2 stored
    rw [Option.mem_def, block'] at block
    rwa [← Option.some.inj block]
  refine List.pairwise_filterMap.mpr (ordered.imp_of_mem fun {first second} left right before => ?_)
  intro object block object' block'
  rw [listed first left object block, listed second right object' block']
  exact before

/-- The pointer of an entry may be read, and leads to the object of its id. -/
theorem ownedObject_entry (inv : WorldInv world) {item : WorldId × ObjectEntry}
    (member : item ∈ world.objects.toList) :
    ∃ object, world.ownedObject item.2.object = some object ∧ object.id = item.1 := by
  have stored := Std.ExtTreeMap.mem_toList_iff_getElem?_eq_some.mp member
  obtain ⟨object, block, same⟩ := inv.blocks item.1 item.2 stored
  have listed : item.2.object ∈ world.addresses := List.mem_map.mpr ⟨item, member, rfl⟩
  exact ⟨object, by rw [ownedObject, if_pos listed, block], same⟩

theorem heap_of_ownedObject {address : Address} {object : WorldObject}
    (owned : world.ownedObject address = some object) : world.heap[address]? = some object := by
  unfold ownedObject at owned
  split at owned
  · exact owned
  · cases owned

/-- Reading through every pointer of the current table yields the contents. -/
theorem mapM_ownedObject (inv : WorldInv world) :
    world.addresses.mapM world.ownedObject = some world.contents := by
  suffices ∀ items : List (WorldId × ObjectEntry), items ⊆ world.objects.toList →
      (items.map fun entry => entry.2.object).mapM world.ownedObject =
        some (items.filterMap fun entry => world.heap[entry.2.object]?) from
    this _ (List.Subset.refl _)
  intro items
  induction items with
  | nil => exact fun _ => rfl
  | cons item rest ih =>
    intro subset
    obtain ⟨object, owned, -⟩ := ownedObject_entry inv (subset List.mem_cons_self)
    have block := heap_of_ownedObject owned
    simp [owned, block, ih fun other later => subset (by simp [later])]

end World

end Traversal

end GeoWorld.WorldModel
