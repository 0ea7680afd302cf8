import Mathlib
import GeoWorld.WorldModel.Object

/-!
The object store of the world with copy-on-write blocks.
Objects live in heap blocks named by addresses; an entry of the object table
owns one block and remembers the generation in which the block may still be
written in place. Blocks that frozen snapshots may share are never reclaimed
here, so an address keeps its last contents; whether the world still owns an
address is a separate question (`ownedObject`).
Revision counters that only ever count up are naturals. The counters that
recovery restores from stored bytes and that objects carry keep their 64 bits.
-/

namespace GeoWorld.WorldModel

abbrev Address := Nat

structure ObjectEntry where
  object : Address
  cowGeneration : Nat
  deriving DecidableEq

/-- `World` together with its `Storage`. -/
structure World where
  heap : Std.ExtTreeMap Address WorldObject compare := ∅
  nextAddress : Address := 0
  objects : WidMap ObjectEntry := ∅
  cowGeneration : Nat := 1
  storageRevision : Nat := 0
  nextRevision : UInt64 := 0
  eraseRevision : Nat := 0
  deriving DecidableEq

structure FrozenStorage where
  objects : WidMap ObjectEntry
  nextRevision : UInt64
  eraseRevision : Nat

namespace World

/-- `make_shared` of an object and the entry that owns it, stored under `id`. -/
def setEntry (world : World) (id : WorldId) (object : WorldObject) : World :=
  { world with
    heap := world.heap.insert world.nextAddress object
    nextAddress := world.nextAddress + 1
    objects := world.objects.insert id ⟨world.nextAddress, world.cowGeneration⟩ }

def insert (world : World) (object : WorldObject) : Bool × World :=
  if !object.id.valid || object.version == 0 then
    (false, world)
  else
    let revision := world.nextRevision + 1
    let world := { world with nextRevision := revision }
    if world.objects.contains object.id then
      (false, world)
    else
      (true, world.setEntry object.id { object with revision := revision })

def erase (world : World) (id : WorldId) : Bool × World :=
  if world.objects.contains id then
    (true, { world with
      objects := world.objects.erase id
      eraseRevision := world.eraseRevision + 1 })
  else
    (false, world)

/-- The block of `id` that may be written in place; an entry of an older
generation is first replaced by a private copy. -/
def writableFind (world : World) (id : WorldId) : Option (Address × WorldObject) × World :=
  match world.objects[id]? with
  | none => (none, world)
  | some found =>
    match world.heap[found.object]? with
    | none => (none, world)
    | some object =>
      if found.cowGeneration = world.cowGeneration then
        (some (found.object, object), world)
      else
        let copied := world.setEntry id object
        (some (world.nextAddress, object),
          { copied with storageRevision := world.storageRevision + 1 })

def find (world : World) (id : WorldId) : Option WorldObject :=
  world.objects[id]?.bind fun entry => world.heap[entry.object]?

def writeInPlace (world : World) (address : Address) (object : WorldObject) : World :=
  { world with heap := world.heap.insert address object }

/-- An empty `std::function` is `none`. -/
def update (world : World) (id : WorldId) (mutation : Option (WorldObject → WorldObject)) :
    Bool × World :=
  match world.find id, mutation with
  | some object, some mutate =>
    (true, { world.setEntry id (mutate object) with
      storageRevision := world.storageRevision + 1 })
  | _, _ => (false, world)

def setProperty (world : World) (id : WorldId) (key : ByteString) (value : Value) :
    Bool × World :=
  match world.writableFind id with
  | (none, world) => (false, world)
  | (some (address, object), world) =>
    if object.lifecycle = .retired then
      (false, world)
    else
      (true, world.writeInPlace address { object with
        properties := object.properties.insert key value
        version := object.version + 1 })

def addRelation (world : World) (source : WorldId) (relation : Relation) : Bool × World :=
  if (world.find relation.target).isNone || relation.type.isEmpty then
    (false, world)
  else
    match world.writableFind source with
    | (none, world) => (false, world)
    | (some (address, object), world) =>
      (true, world.writeInPlace address { object with
        relations := object.relations ++ [relation]
        version := object.version + 1 })

def restore (world : World) (objects : List WorldObject) (nextRevision : UInt64)
    (eraseRevision : Nat) : World :=
  let restored := objects.foldl (fun w object => w.setEntry object.id object)
    { world with objects := ∅ }
  { restored with
    storageRevision := world.storageRevision + 1
    nextRevision := nextRevision
    eraseRevision := eraseRevision }

def size (world : World) : Nat :=
  world.objects.size

/-- The addresses `for_each_object` visits. -/
def addresses (world : World) : List Address :=
  world.objects.toList.map fun entry => entry.2.object

/-- What reading through a pointer yields while the world owns its block. -/
def ownedObject (world : World) (address : Address) : Option WorldObject :=
  if address ∈ world.addresses then world.heap[address]? else none

end World

/-- The largest value of the 64-bit generation counter. -/
def maxCowGeneration : Nat := 2 ^ 64 - 1

/-- `freeze_snapshot` in the build with persistent containers: the snapshot
shares every block and the next generation forces later writers to copy. -/
def freezeSnapshotPersistent (world : World) : FrozenStorage × World :=
  let frozen : FrozenStorage := ⟨world.objects, world.nextRevision, world.eraseRevision⟩
  if world.cowGeneration = maxCowGeneration then
    (frozen, { world with
      objects := world.objects.map fun _ entry => { entry with cowGeneration := 1 }
      cowGeneration := 2
      storageRevision := world.storageRevision + 1 })
  else
    (frozen, { world with cowGeneration := world.cowGeneration + 1 })

/-- `freeze_snapshot` in the build with hashed containers: every block is copied. -/
def freezeSnapshotCopying (world : World) : FrozenStorage × World :=
  let copy (acc : WidMap ObjectEntry × World) (item : WorldId × ObjectEntry) :=
    match acc.2.heap[item.2.object]? with
    | none => acc
    | some object =>
      (acc.1.insert item.1 ⟨acc.2.nextAddress, 1⟩,
        { acc.2 with
          heap := acc.2.heap.insert acc.2.nextAddress object
          nextAddress := acc.2.nextAddress + 1 })
  let copied := world.objects.toList.foldl copy (∅, world)
  (⟨copied.1, world.nextRevision, world.eraseRevision⟩, copied.2)

/-- `GW_WORLD_PERSISTENT_STORAGE`. -/
inductive StorageBuild where
  | persistent
  | copying
  deriving DecidableEq

def freezeSnapshot (build : StorageBuild) (world : World) : FrozenStorage × World :=
  match build with
  | .persistent => freezeSnapshotPersistent world
  | .copying => freezeSnapshotCopying world

namespace FrozenStorage

/-- Frozen entries are read through the heap they share with the world. -/
def find (frozen : FrozenStorage) (world : World) (id : WorldId) : Option WorldObject :=
  frozen.objects[id]?.bind fun entry => world.heap[entry.object]?

end FrozenStorage

end GeoWorld.WorldModel
