import Mathlib
import GeoWorld.Library.TreeMap
import GeoWorld.WorldModel.Object

/-!
The runtime of active entities: slots that are used again under a new generation, and the table
that finds the slot of an object. The ECS library is a map from entities to their components.
-/

namespace GeoWorld.Ecs

open WorldModel Library

/-- `foundation::RuntimeId`; generation 0 is invalid. -/
@[ext] structure RuntimeId where
  slot : UInt32
  generation : UInt32
  deriving DecidableEq

def RuntimeId.valid (id : RuntimeId) : Bool := id.generation != 0

/-- The components that are set on an entity. -/
structure EntityComponents where
  worldIdentity : UInt64
  position : PositionEcef
  semanticType : ByteString
  deriving DecidableEq

structure FlecsWorld where
  components : Std.ExtTreeMap Nat EntityComponents compare := ∅
  /-- How many entities were made so far. -/
  created : Nat := 0

/-- The library picks any id for a new entity that no living one has. -/
structure Flecs where
  fresh : FlecsWorld → Nat
  unused : ∀ world : FlecsWorld, world.components[fresh world]? = none

def FlecsWorld.create (flecs : Flecs) (world : FlecsWorld) (components : EntityComponents) :
    FlecsWorld where
  components := world.components.insert (flecs.fresh world) components
  created := world.created + 1

def FlecsWorld.destruct (world : FlecsWorld) (entity : Nat) : FlecsWorld :=
  { world with components := world.components.erase entity }

/-- `destroyed` counts how often the slot was destroyed; the source does not keep that number, and
nothing reads it. -/
structure Slot where
  entity : Nat := 0
  worldId : WorldId := 0
  generation : UInt32 := 1
  occupied : Bool := false
  destroyed : Nat := 0

/-- `free_slots` is a stack with its top at the end. -/
structure Runtime where
  world : FlecsWorld := {}
  slots : List Slot := []
  freeSlots : List UInt32 := []
  byWorldId : WidMap RuntimeId := ∅

structure RuntimeEntitySnapshot where
  worldId : WorldId
  position : PositionEcef
  semanticType : ByteString
  deriving DecidableEq

/-- The object that `restore` activates for an entity. -/
def RuntimeEntitySnapshot.object (entity : RuntimeEntitySnapshot) : WorldObject where
  id := entity.worldId
  position := entity.position
  semanticType := entity.semanticType

structure RuntimeSnapshot where
  formatVersion : UInt32 := 1
  schemaVersion : UInt32 := 1
  entities : List RuntimeEntitySnapshot
  deriving DecidableEq

def RuntimeSnapshot.valid (snapshot : RuntimeSnapshot) : Bool :=
  snapshot.formatVersion == 1 && snapshot.schemaVersion == 1

namespace Runtime

def valid (runtime : Runtime) (id : RuntimeId) : Bool :=
  id.valid && match runtime.slots[id.slot.toNat]? with
    | none => false
    | some slot => slot.occupied && slot.generation == id.generation

def find (runtime : Runtime) (id : WorldId) : Option RuntimeId := runtime.byWorldId[id]?

/-- The slot of the next entity, its index in 32 bits, and the runtime that has taken it. -/
def takeSlot (runtime : Runtime) : UInt32 × Runtime :=
  match runtime.freeSlots.getLast? with
  | none => (UInt32.ofNat runtime.slots.length, { runtime with slots := runtime.slots ++ [{}] })
  | some index => (index, { runtime with freeSlots := runtime.freeSlots.dropLast })

/-- An entity for the object in a slot that was taken for it. -/
def occupy (flecs : Flecs) (runtime : Runtime) (index : UInt32) (slot : Slot)
    (object : WorldObject) : Runtime :=
  { runtime with
    world := runtime.world.create flecs ⟨object.id, object.position, object.semanticType⟩
    slots := runtime.slots.set index.toNat { slot with
      entity := flecs.fresh runtime.world
      worldId := object.id
      occupied := true }
    byWorldId := runtime.byWorldId.insertIfNew object.id ⟨index, slot.generation⟩ }

/-- `none` for a slot that is not there. -/
def activate (flecs : Flecs) (runtime : Runtime) (object : WorldObject) :
    Option (Option RuntimeId × Runtime) :=
  if !WorldId.valid object.id || runtime.byWorldId.contains object.id then
    some (none, runtime)
  else
    runtime.takeSlot.2.slots[runtime.takeSlot.1.toNat]?.map fun slot =>
      (some ⟨runtime.takeSlot.1, slot.generation⟩,
        runtime.takeSlot.2.occupy flecs runtime.takeSlot.1 slot object)

/-- The generation a slot is used under next; it skips 0. -/
def nextGeneration (generation : UInt32) : UInt32 :=
  if generation + 1 = 0 then 1 else generation + 1

def vacate (runtime : Runtime) (index : UInt32) (slot : Slot) : Runtime where
  world := runtime.world.destruct slot.entity
  slots := runtime.slots.set index.toNat {
    generation := nextGeneration slot.generation
    destroyed := slot.destroyed + 1 }
  freeSlots := runtime.freeSlots ++ [index]
  byWorldId := runtime.byWorldId.erase slot.worldId

def destroy (runtime : Runtime) (id : RuntimeId) : Bool × Runtime :=
  if runtime.valid id then
    match runtime.slots[id.slot.toNat]? with
    | none => (false, runtime)
    | some slot => (true, runtime.vacate id.slot slot)
  else
    (false, runtime)

/-- The loop body of `clear`. -/
def clearSlot (runtime : Runtime) (index : Nat) : Runtime :=
  match runtime.slots[index]? with
  | none => runtime
  | some slot =>
    if slot.occupied then (runtime.destroy ⟨UInt32.ofNat index, slot.generation⟩).2 else runtime

/-- `none` where the 32-bit index of the loop never reaches the number of slots. -/
def clear (runtime : Runtime) : Option Runtime :=
  if runtime.slots.length < 2 ^ 32 then
    some ((List.range runtime.slots.length).foldl clearSlot runtime)
  else
    none

/-- The second loop of `restore`, with whether every entity was activated. -/
def activateAll (flecs : Flecs) (runtime : Runtime) :
    List RuntimeEntitySnapshot → Option (Bool × Runtime)
  | [] => some (true, runtime)
  | entity :: rest =>
    (runtime.activate flecs entity.object).bind fun activated =>
      if activated.1.isSome then activated.2.activateAll flecs rest
      else activated.2.clear.map fun cleared => (false, cleared)

/-- The entities have valid ids, no two the same. -/
def restorable (snapshot : RuntimeSnapshot) : Bool :=
  snapshot.valid && snapshot.entities.all (fun entity => WorldId.valid entity.worldId) &&
    decide (snapshot.entities.map RuntimeEntitySnapshot.worldId).Nodup

def restore (flecs : Flecs) (runtime : Runtime) (snapshot : RuntimeSnapshot) :
    Option (Bool × Runtime) :=
  if restorable snapshot then
    runtime.clear.bind fun cleared => cleared.activateAll flecs snapshot.entities
  else
    some (false, runtime)

/-- `none` for an entity without components. -/
def snapshot (runtime : Runtime) : Option RuntimeSnapshot :=
  ((runtime.slots.filter Slot.occupied).mapM fun slot =>
    runtime.world.components[slot.entity]?.map fun components =>
      ⟨slot.worldId, components.position, components.semanticType⟩).map fun entities =>
        ⟨1, 1, entities.insertionSort fun left right => left.worldId ≤ right.worldId⟩

/-- The slot of an entry holds the object. -/
def Holds (runtime : Runtime) (id : WorldId) (entry : RuntimeId) : Prop :=
  ∃ slot, runtime.slots[entry.slot.toNat]? = some slot ∧ slot.occupied = true ∧
    slot.worldId = id ∧ slot.generation = entry.generation

def Unoccupied (runtime : Runtime) (index : UInt32) : Prop :=
  ∃ slot, runtime.slots[index.toNat]? = some slot ∧ slot.occupied = false

/-- The table finds the occupied slots, each by its object; the others are free, but for one that
is reserved; and every occupied slot has a living entity of its own. -/
structure SoundBut (reserved : Option UInt32) (runtime : Runtime) : Prop where
  found : ∀ (id : WorldId) (entry : RuntimeId),
    runtime.byWorldId[id]? = some entry ↔ runtime.Holds id entry
  generations : ∀ slot ∈ runtime.slots, slot.generation ≠ 0 ∧
    (slot.destroyed < 2 ^ 32 - 1 → slot.generation.toNat = slot.destroyed + 1)
  free : ∀ index : UInt32,
    index ∈ runtime.freeSlots ↔ reserved ≠ some index ∧ runtime.Unoccupied index
  free_distinct : runtime.freeSlots.Nodup
  bounded : runtime.slots.length ≤ 2 ^ 32
  living : ∀ slot ∈ runtime.slots, slot.occupied = true →
    ∃ components, runtime.world.components[slot.entity]? = some components ∧
      components.worldIdentity = slot.worldId
  apart : ∀ (index other : Nat) (slot held : Slot), runtime.slots[index]? = some slot →
    runtime.slots[other]? = some held → slot.occupied = true → held.occupied = true →
      slot.entity = held.entity → index = other

abbrev Sound : Runtime → Prop := SoundBut none

theorem sound_empty : Sound {} where
  found id entry := by simp [Holds]
  generations := nofun
  free index := by simp [Unoccupied]
  free_distinct := List.nodup_nil
  bounded := Nat.zero_le _
  living := nofun
  apart index other slot held here := by simp at here

section Slots

variable {flecs : Flecs} {runtime : Runtime} {reserved : Option UInt32}

theorem nextGeneration_ne (generation : UInt32) : nextGeneration generation ≠ 0 := by
  unfold nextGeneration
  split
  · decide
  · assumption

theorem nextGeneration_toNat {generation : UInt32} (small : generation.toNat + 1 < 2 ^ 32) :
    (nextGeneration generation).toNat = generation.toNat + 1 := by
  have next : (generation + 1).toNat = generation.toNat + 1 := by
    rw [UInt32.toNat_add]
    exact Nat.mod_eq_of_lt small
  unfold nextGeneration
  rw [if_neg, next]
  intro zero
  rw [zero] at next
  exact absurd next (by simp)

theorem SoundBut.unique (sound : runtime.SoundBut reserved) {id : WorldId} {one other : RuntimeId}
    (left : runtime.Holds id one) (right : runtime.Holds id other) : one = other :=
  Option.some.inj (((sound.found id one).mpr left).symm.trans ((sound.found id other).mpr right))

@[simp] theorem takeSlot_byWorldId (runtime : Runtime) :
    runtime.takeSlot.2.byWorldId = runtime.byWorldId := by
  unfold takeSlot
  split <;> rfl

/-- There is a slot to take whose index fits 32 bits. -/
def Roomy (runtime : Runtime) : Prop := runtime.slots.length < 2 ^ 32 ∨ runtime.freeSlots ≠ []

/-- Slots behind the last one are not there. -/
theorem getElem?_append_fresh {slots : List Slot} {index : Nat} {slot : Slot} :
    (slots ++ [({} : Slot)])[index]? = some slot ↔
      slots[index]? = some slot ∨ index = slots.length ∧ slot = {} := by
  rcases Nat.lt_trichotomy index slots.length with inside | rfl | outside
  · rw [List.getElem?_append_left inside]
    refine ⟨.inl, fun found => found.resolve_right fun last => ?_⟩
    omega
  · rw [List.getElem?_concat_length, List.getElem?_eq_none le_rfl]
    simp [eq_comm]
  · rw [List.getElem?_eq_none (by simpa using outside), List.getElem?_eq_none outside.le]
    refine iff_of_false nofun ?_
    rintro (absurdity | ⟨same, -⟩)
    · cases absurdity
    · omega

theorem Sound.takeSlot (sound : runtime.Sound) (roomy : runtime.Roomy) :
    runtime.takeSlot.2.SoundBut (some runtime.takeSlot.1) ∧
      runtime.takeSlot.2.Unoccupied runtime.takeSlot.1 := by
  unfold Runtime.takeSlot
  cases last : runtime.freeSlots.getLast? with
  | none =>
    have idle : runtime.freeSlots = [] := List.getLast?_eq_none_iff.mp last
    have small : runtime.slots.length < 2 ^ 32 := roomy.resolve_right (not_not.mpr idle)
    have number : (UInt32.ofNat runtime.slots.length).toNat = runtime.slots.length :=
      UInt32.toNat_ofNat_of_lt' small
    refine ⟨⟨fun id entry => ?_, ?_, fun index => ?_, ?_, ?_, ?_, ?_⟩, {}, ?_, rfl⟩
    · rw [sound.found]
      constructor
      · rintro ⟨slot, here, rest⟩
        exact ⟨slot, getElem?_append_fresh.mpr (.inl here), rest⟩
      · rintro ⟨slot, here, busy, rest⟩
        rcases getElem?_append_fresh.mp here with old | ⟨-, rfl⟩
        · exact ⟨slot, old, busy, rest⟩
        · cases busy
    · intro slot member
      rcases List.mem_append.mp member with old | new
      · exact sound.generations slot old
      · rw [List.mem_singleton.mp new]
        exact ⟨by decide, fun _ => rfl⟩
    · rw [idle]
      refine iff_of_false List.not_mem_nil ?_
      rintro ⟨unreserved, slot, here, empty⟩
      rcases getElem?_append_fresh.mp here with old | ⟨place, -⟩
      · have listed := (sound.free index).mpr ⟨nofun, slot, old, empty⟩
        rw [idle] at listed
        cases listed
      · exact unreserved (congrArg some (UInt32.toNat_inj.mp (number.trans place.symm)))
    · exact idle ▸ List.nodup_nil
    · simpa using small
    · intro slot member busy
      rcases List.mem_append.mp member with old | new
      · exact sound.living slot old busy
      · rw [List.mem_singleton.mp new] at busy
        cases busy
    · intro index other slot held here there busy busy' same
      rcases getElem?_append_fresh.mp here with old | ⟨-, rfl⟩
      · rcases getElem?_append_fresh.mp there with old' | ⟨-, rfl⟩
        · exact sound.apart index other slot held old old' busy busy' same
        · cases busy'
      · cases busy
    · simp only [number]
      exact getElem?_append_fresh.mpr (.inr ⟨rfl, rfl⟩)
  | some index =>
    have split : runtime.freeSlots.dropLast ++ [index] = runtime.freeSlots :=
      List.dropLast_append_getLast? index last
    have distinct := sound.free_distinct
    rw [← split, List.nodup_append] at distinct
    have listed : index ∈ runtime.freeSlots := split ▸ List.mem_concat_self
    refine ⟨⟨sound.found, sound.generations, fun other => ?_, distinct.1, sound.bounded,
      sound.living, sound.apart⟩, ((sound.free index).mp listed).2⟩
    have member : other ∈ runtime.freeSlots ↔ other ∈ runtime.freeSlots.dropLast ∨ other = index := by
      rw [← split, List.mem_append, List.mem_singleton, split]
    constructor
    · intro kept
      refine ⟨fun same => ?_, ((sound.free other).mp (member.mpr (.inl kept))).2⟩
      obtain rfl := Option.some.inj same
      exact distinct.2.2 index kept index List.mem_cons_self rfl
    · rintro ⟨unreserved, empty⟩
      rcases member.mp ((sound.free other).mpr ⟨nofun, empty⟩) with kept | rfl
      · exact kept
      · exact absurd rfl unreserved

/-- Writing one slot changes what that slot holds. -/
theorem holds_set {index : UInt32} (inside : index.toNat < runtime.slots.length) (slot : Slot)
    (world : FlecsWorld) (freeSlots : List UInt32) (byWorldId : WidMap RuntimeId) (id : WorldId)
    (entry : RuntimeId) :
    Holds ⟨world, runtime.slots.set index.toNat slot, freeSlots, byWorldId⟩ id entry ↔
      if index = entry.slot then
        slot.occupied = true ∧ slot.worldId = id ∧ slot.generation = entry.generation
      else runtime.Holds id entry := by
  simp only [Holds, List.getElem?_set, if_pos inside, UInt32.toNat_inj]
  split
  · simp
  · rfl

theorem unoccupied_set {index other : UInt32} (inside : index.toNat < runtime.slots.length)
    (slot : Slot) (world : FlecsWorld) (freeSlots : List UInt32) (byWorldId : WidMap RuntimeId) :
    Unoccupied ⟨world, runtime.slots.set index.toNat slot, freeSlots, byWorldId⟩ other ↔
      if index = other then slot.occupied = false else runtime.Unoccupied other := by
  simp only [Unoccupied, List.getElem?_set, if_pos inside, UInt32.toNat_inj]
  split
  · simp
  · rfl

theorem SoundBut.occupy {index : UInt32} {slot : Slot} {object : WorldObject}
    (sound : runtime.SoundBut (some index)) (here : runtime.slots[index.toNat]? = some slot)
    (empty : slot.occupied = false) (absent : runtime.byWorldId[object.id]? = none) :
    (runtime.occupy flecs index slot object).Sound := by
  have inside : index.toNat < runtime.slots.length := (List.getElem?_eq_some_iff.mp here).1
  have unheld : ∀ id entry, index = entry.slot → ¬ runtime.Holds id entry := by
    rintro id ⟨number, generation⟩ rfl ⟨old, at_slot, busy, -⟩
    obtain rfl := Option.some.inj (at_slot.symm.trans here)
    exact absurd (busy.symm.trans empty) (by decide)
  -- an entity that was there before is not the new one
  have elsewhere : ∀ other ∈ runtime.slots, other.occupied = true →
      other.entity ≠ flecs.fresh runtime.world := by
    intro other member busy same
    obtain ⟨components, alive, -⟩ := sound.living other member busy
    rw [same, flecs.unused] at alive
    cases alive
  refine ⟨fun id entry => ?_, ?_, fun other => ?_, sound.free_distinct, ?_, ?_, ?_⟩
  · rw [Runtime.occupy, holds_set inside, lookup_insertIfNew _ absent]
    by_cases own : id = object.id
    · subst own
      have outside : ¬ runtime.Holds object.id entry := fun holds => by
        rw [(sound.found object.id entry).mpr holds] at absent
        exact Option.some_ne_none _ absent
      rw [if_pos rfl, Option.some_inj]
      split
      · rename_i same
        simp [RuntimeId.ext_iff, same]
      · rename_i apart
        exact iff_of_false (fun fresh => apart (congrArg RuntimeId.slot fresh)) outside
    · rw [if_neg own, sound.found]
      split
      · rename_i same
        exact iff_of_false (unheld id entry same) fun new => own new.2.1.symm
      · rfl
  · intro other member
    obtain old | rfl := List.mem_or_eq_of_mem_set member
    · exact sound.generations other old
    · exact sound.generations slot (List.mem_of_getElem? here)
  · rw [Runtime.occupy, unoccupied_set inside]
    change other ∈ runtime.freeSlots ↔ _
    rw [sound.free]
    by_cases same : index = other
    · simp [same]
    · simp [same]
  · rw [Runtime.occupy, List.length_set]
    exact sound.bounded
  · intro other member busy
    obtain old | rfl := List.mem_or_eq_of_mem_set member
    · obtain ⟨components, alive, identity⟩ := sound.living other old busy
      refine ⟨components, ?_, identity⟩
      simp only [Runtime.occupy, FlecsWorld.create]
      rwa [lookup_insert_ne _ (elsewhere other old busy)]
    · exact ⟨_, lookup_insert_self _ _ _, rfl⟩
  · intro one other held kept at_one at_other busy busy' same
    simp only [Runtime.occupy, List.getElem?_set, if_pos inside] at at_one at_other
    split at at_one <;> split at at_other
    · omega
    · obtain rfl := Option.some.inj at_one
      exact absurd same.symm (elsewhere kept (List.mem_of_getElem? at_other) busy')
    · obtain rfl := Option.some.inj at_other
      exact absurd same (elsewhere held (List.mem_of_getElem? at_one) busy)
    · exact sound.apart one other held kept at_one at_other busy busy' same

theorem Sound.vacate {index : UInt32} {slot : Slot} (sound : runtime.Sound)
    (here : runtime.slots[index.toNat]? = some slot) (busy : slot.occupied = true) :
    (runtime.vacate index slot).Sound := by
  have inside : index.toNat < runtime.slots.length := (List.getElem?_eq_some_iff.mp here).1
  have held : runtime.Holds slot.worldId ⟨index, slot.generation⟩ := ⟨slot, here, busy, rfl, rfl⟩
  have unlisted : index ∉ runtime.freeSlots := fun member => by
    obtain ⟨-, other, there, empty⟩ := (sound.free index).mp member
    obtain rfl : slot = other := Option.some.inj (here.symm.trans there)
    exact absurd (busy.symm.trans empty) (by decide)
  refine ⟨fun id entry => ?_, ?_, fun other => ?_, ?_, ?_, ?_, ?_⟩
  · rw [Runtime.vacate, holds_set inside, lookup_erase]
    by_cases own : id = slot.worldId
    · subst own
      rw [if_pos rfl]
      refine iff_of_false (fun found => Option.some_ne_none _ found.symm) fun holds => ?_
      split at holds
      · exact absurd holds.1 Bool.false_ne_true
      · rename_i apart
        exact apart (congrArg RuntimeId.slot (sound.unique held holds))
    · rw [if_neg own, sound.found]
      split
      · rename_i same
        refine iff_of_false ?_ fun empty => absurd empty.1 Bool.false_ne_true
        rintro ⟨old, at_slot, -, named, -⟩
        rw [← same, here] at at_slot
        exact own (named.symm.trans (congrArg Slot.worldId (Option.some.inj at_slot).symm))
      · rfl
  · intro other member
    obtain old | rfl := List.mem_or_eq_of_mem_set member
    · exact sound.generations other old
    · refine ⟨nextGeneration_ne slot.generation, fun few => ?_⟩
      have before := (sound.generations slot (List.mem_of_getElem? here)).2
      simp only at few
      have number := before (by omega)
      rw [nextGeneration_toNat (by omega), number]
  · rw [Runtime.vacate, unoccupied_set inside]
    simp only [List.mem_append, List.mem_singleton]
    rw [sound.free]
    by_cases same : index = other
    · simp [same]
    · simp [same, Ne.symm same]
  · refine List.nodup_append.mpr ⟨sound.free_distinct, List.nodup_singleton _, ?_⟩
    rintro other member last new rfl
    exact unlisted (List.mem_singleton.mp new ▸ member)
  · rw [Runtime.vacate, List.length_set]
    exact sound.bounded
  · intro other member alive
    obtain ⟨place, at_place⟩ := List.mem_iff_getElem?.mp member
    simp only [Runtime.vacate, List.getElem?_set, if_pos inside] at at_place
    split at at_place
    · obtain rfl := Option.some.inj at_place
      cases alive
    · rename_i different
      obtain ⟨components, present, identity⟩ :=
        sound.living other (List.mem_of_getElem? at_place) alive
      have kept : other.entity ≠ slot.entity := fun same =>
        different (sound.apart index.toNat place slot other here at_place busy alive same.symm)
      refine ⟨components, ?_, identity⟩
      simp only [Runtime.vacate, FlecsWorld.destruct]
      rwa [lookup_erase_ne _ kept]
  · intro one other first second at_one at_other busy_one busy_other same
    simp only [Runtime.vacate, List.getElem?_set, if_pos inside] at at_one at_other
    split at at_one
    · obtain rfl := Option.some.inj at_one
      cases busy_one
    · split at at_other
      · obtain rfl := Option.some.inj at_other
        cases busy_other
      · exact sound.apart one other first second at_one at_other busy_one busy_other same

end Slots

end Runtime

end GeoWorld.Ecs
