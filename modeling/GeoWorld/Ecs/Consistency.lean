import Mathlib
import GeoWorld.Ecs.Handles

/-!
What holds of a runtime after any run with room for its entities: its tables are inverse to each
other, the free list is the list of the unoccupied slots, a snapshot lists the active entities in
order, and handles are never confused. With one entity more than 32-bit slots they are.
-/

namespace GeoWorld.Ecs

open WorldModel Library

namespace Runtime

/-- An entity of the table, with the components it has. -/
def Active (runtime : Runtime) (entity : RuntimeEntitySnapshot) : Prop :=
  ∃ id slot components, runtime.byWorldId[entity.worldId]? = some id ∧
    runtime.slots[id.slot.toNat]? = some slot ∧
    runtime.world.components[slot.entity]? = some components ∧
    entity.position = components.position ∧ entity.semanticType = components.semanticType

structure Consistent (runtime : Runtime) : Prop where
  inverse : ∀ (id : WorldId) (entry : RuntimeId),
    runtime.byWorldId[id]? = some entry ↔ runtime.Holds id entry
  free : ∀ index : UInt32, index ∈ runtime.freeSlots ↔ runtime.Unoccupied index
  once : runtime.freeSlots.Nodup
  listed : ∃ snapshot, runtime.snapshot = some snapshot ∧
    (snapshot.entities.Pairwise fun left right => left.worldId < right.worldId) ∧
    ∀ entity, entity ∈ snapshot.entities ↔ runtime.Active entity

section Snapshot

variable {runtime : Runtime}

theorem mapM_of_forall {α β : Type} {f : α → Option β} {items : List α}
    (each : ∀ item ∈ items, ∃ image, f item = some image) :
    items.mapM f = some (items.filterMap f) := by
  induction items with
  | nil => rfl
  | cons item items ih =>
    rw [List.forall_mem_cons] at each
    obtain ⟨image, first⟩ := each.1
    rw [List.mapM_cons, ih each.2, List.filterMap_cons_some first, first]
    rfl

/-- No two occupied slots are for one object. -/
theorem Sound.distinct (sound : runtime.Sound) :
    ((runtime.slots.filter Slot.occupied).map Slot.worldId).Nodup := by
  rw [List.Nodup, List.pairwise_map, List.pairwise_filter, List.pairwise_iff_getElem]
  intro one other inside within below busy busy' same
  have number : ∀ place < runtime.slots.length, (UInt32.ofNat place).toNat = place :=
    fun place inside => UInt32.toNat_ofNat_of_lt' (inside.trans_le sound.bounded)
  have left : runtime.Holds runtime.slots[one].worldId
      ⟨UInt32.ofNat one, runtime.slots[one].generation⟩ :=
    ⟨_, by rw [number one inside, List.getElem?_eq_getElem inside], busy, rfl, rfl⟩
  have right : runtime.Holds runtime.slots[one].worldId
      ⟨UInt32.ofNat other, runtime.slots[other].generation⟩ :=
    ⟨_, by rw [number other within, List.getElem?_eq_getElem within], busy', same.symm, rfl⟩
  have equal := congrArg (fun id => id.slot.toNat) (sound.unique left right)
  simp only [number one inside, number other within] at equal
  omega

/-- The entry of an occupied slot. -/
def record (runtime : Runtime) (slot : Slot) : Option RuntimeEntitySnapshot :=
  runtime.world.components[slot.entity]?.map fun components =>
    ⟨slot.worldId, components.position, components.semanticType⟩

theorem Sound.active_iff (sound : runtime.Sound) (entity : RuntimeEntitySnapshot) :
    runtime.Active entity ↔
      ∃ slot ∈ runtime.slots.filter Slot.occupied, runtime.record slot = some entity := by
  constructor
  · rintro ⟨id, slot, components, entered, here, alive, position, semantic⟩
    obtain ⟨held, there, busy, named, -⟩ := (sound.found entity.worldId id).mp entered
    obtain rfl := Option.some.inj (here.symm.trans there)
    refine ⟨slot, List.mem_filter.mpr ⟨List.mem_of_getElem? here, busy⟩, ?_⟩
    rw [record, alive, Option.map_some, named, ← position, ← semantic]
  · rintro ⟨slot, member, recorded⟩
    obtain ⟨inside, busy⟩ := List.mem_filter.mp member
    obtain ⟨components, alive, rfl⟩ := Option.map_eq_some_iff.mp recorded
    obtain ⟨place, here⟩ := List.mem_iff_getElem?.mp inside
    have number : (UInt32.ofNat place).toNat = place := UInt32.toNat_ofNat_of_lt'
      ((List.getElem?_eq_some_iff.mp here).1.trans_le sound.bounded)
    rw [← number] at here
    exact ⟨⟨UInt32.ofNat place, slot.generation⟩, slot, components,
      (sound.found _ _).mpr ⟨slot, here, busy, rfl, rfl⟩, here, alive, rfl, rfl⟩

theorem Sound.record (sound : runtime.Sound) {slot : Slot}
    (member : slot ∈ runtime.slots.filter Slot.occupied) :
    ∃ entity, runtime.record slot = some entity ∧ entity.worldId = slot.worldId := by
  obtain ⟨inside, busy⟩ := List.mem_filter.mp member
  obtain ⟨components, alive, -⟩ := sound.living slot inside busy
  exact ⟨_, by rw [Runtime.record, alive, Option.map_some], rfl⟩

theorem Sound.snapshot (sound : runtime.Sound) : ∃ snapshot, runtime.snapshot = some snapshot ∧
    (snapshot.entities.Pairwise fun left right => left.worldId < right.worldId) ∧
    ∀ entity, entity ∈ snapshot.entities ↔ runtime.Active entity := by
  have listed := mapM_of_forall fun slot member => (sound.record member).imp fun _ => And.left
  generalize entities_eq : (runtime.slots.filter Slot.occupied).filterMap runtime.record =
    entities at listed
  have ids : entities.map RuntimeEntitySnapshot.worldId =
      (runtime.slots.filter Slot.occupied).map Slot.worldId := by
    rw [← entities_eq, List.map_filterMap, ← List.filterMap_eq_map]
    refine List.filterMap_congr fun slot member => ?_
    obtain ⟨entity, recorded, same⟩ := sound.record member
    rw [recorded, Option.map_some, same]
    rfl
  refine ⟨⟨1, 1, entities.insertionSort fun left right => left.worldId ≤ right.worldId⟩, ?_, ?_,
    fun entity => ?_⟩
  · rw [Runtime.snapshot]
    change (List.mapM runtime.record _).map _ = _
    rw [listed, Option.map_some]
  · have perm := List.perm_insertionSort
      (fun left right : RuntimeEntitySnapshot => left.worldId ≤ right.worldId) entities
    have distinct : ((entities.insertionSort fun left right => left.worldId ≤ right.worldId).map
        RuntimeEntitySnapshot.worldId).Nodup :=
      (perm.map _).nodup_iff.mpr (ids ▸ sound.distinct)
    have sorted := @List.pairwise_insertionSort _
      (fun left right : RuntimeEntitySnapshot => left.worldId ≤ right.worldId) _
        ⟨fun left right => UInt64.le_total left.worldId right.worldId⟩
        ⟨fun _ _ _ first second => UInt64.le_trans first second⟩ entities
    refine (sorted.and (List.pairwise_map.mp distinct)).imp fun before => ?_
    exact UInt64.lt_of_le_of_ne before.1 before.2
  · rw [List.mem_insertionSort, sound.active_iff, ← entities_eq, List.mem_filterMap]

theorem Sound.consistent (sound : runtime.Sound) : runtime.Consistent where
  inverse := sound.found
  free index := (sound.free index).trans (and_iff_right nofun)
  once := sound.free_distinct
  listed := sound.snapshot

end Snapshot

/-- After every run with room for its entities in which no slot was destroyed 2^32 - 1 times, the
tables agree, and a handle that was valid before is valid exactly if no operation destroyed its
entity since, and means the same slot content. -/
theorem handles_never_confused (flecs : Flecs) {earlier ops : List Op} {before now : Runtime}
    (reached : GuardedRun (Step flecs) Room {} earlier before)
    (run : GuardedRun (Step flecs) Room before ops now) (few : now.Few) :
    now.Consistent ∧ ∀ id, before.valid id = true →
      (now.valid id = true ↔ ∀ op ∈ ops, ¬ op.Destroys id) ∧
        (now.valid id = true → now.slots[id.slot.toNat]? = before.slots[id.slot.toNat]?) := by
  obtain ⟨sound, -⟩ := run_sound sound_empty reached
  obtain ⟨after, -⟩ := run_sound sound run
  exact ⟨after.consistent, fun id valid => run_valid sound run few valid⟩

section Reuse

/-- A new entity gets an id above all that are in use. -/
def countingFlecs : Flecs where
  fresh world := world.components.keys.sum + 1
  unused world := by
    refine Option.eq_none_iff_forall_ne_some.mpr fun components alive => ?_
    have listed : world.components.keys.sum + 1 ∈ world.components.keys := by
      rw [Std.ExtTreeMap.mem_keys, Std.ExtTreeMap.mem_iff_isSome_getElem?, alive]
      rfl
    exact absurd (List.le_sum_of_mem listed) (Nat.not_succ_le_self _)

def vehicle : WorldObject := { id := 91, position := ⟨10, 20, 30⟩ }

def hasRoom (runtime : Runtime) : Op → Bool
  | .activate _ => decide (runtime.slots.length < 2 ^ 32)
  | .destroy _ => true
  | .clear => true
  | .restore snapshot => decide (snapshot.entities.length ≤ 2 ^ 32)

theorem room_of_hasRoom (runtime : Runtime) (op : Op) (checked : runtime.hasRoom op = true) :
    runtime.Room op := by
  cases op with
  | activate object => exact .inl (of_decide_eq_true checked)
  | destroy id => exact trivial
  | clear => exact trivial
  | restore snapshot =>
    rw [hasRoom, decide_eq_true_eq] at checked
    exact checked

def after (start : Runtime) (ops : List Op) : Option Runtime :=
  runLabels (fun runtime op =>
    if runtime.hasRoom op then runtime.perform countingFlecs op else none) start ops

theorem run_of_after {start now : Runtime} {ops : List Op} (computed : start.after ops = some now) :
    GuardedRun (Step countingFlecs) Room start ops now :=
  .of_checked room_of_hasRoom computed

/-- The first handle of a vehicle stays invalid when the vehicle is activated again. -/
theorem handles_never_confused_vehicle : (after {} [.activate vehicle]).bind (fun before =>
    (before.after [.destroy ⟨0, 1⟩, .activate vehicle]).map fun now => now.valid ⟨0, 1⟩) =
      some false := by
  have facts : (after {} [.activate vehicle]).bind (fun before =>
      (before.after [.destroy ⟨0, 1⟩, .activate vehicle]).map fun now =>
        before.valid ⟨0, 1⟩ && decide (∀ slot ∈ now.slots, slot.destroyed < 2 ^ 32 - 1)) =
          some true := by decide +kernel
  obtain ⟨before, reached, rest⟩ := Option.bind_eq_some_iff.mp facts
  obtain ⟨now, run, checked⟩ := Option.map_eq_some_iff.mp rest
  rw [Bool.and_eq_true, decide_eq_true_eq] at checked
  have kept := ((handles_never_confused countingFlecs (run_of_after reached) (run_of_after run)
    checked.2).2 ⟨0, 1⟩ checked.1).1
  rw [reached, Option.bind_some, run, Option.map_some, Option.some.injEq, Bool.eq_false_iff, ne_eq,
    kept]
  exact fun untouched => untouched (.destroy ⟨0, 1⟩) List.mem_cons_self rfl

end Reuse

section Overflow

/-- What holds after the activation of the first `count` objects. -/
structure Filled (count : Nat) (runtime : Runtime) : Prop where
  length : runtime.slots.length = count
  full : runtime.freeSlots = []
  unused : ∀ slot ∈ runtime.slots, slot.destroyed = 0
  above : ∀ id : WorldId, count < id.toNat → runtime.byWorldId[id]? = none
  first : count ≠ 0 → runtime.byWorldId[(1 : WorldId)]? = some ⟨0, 1⟩
  fresh : ∀ slot ∈ runtime.slots, slot.generation = 1

def numbered (number : Nat) : WorldObject := { id := UInt64.ofNat number }

theorem numbered_toNat (number : Nat) (small : number < 2 ^ 64) :
    (numbered number).id.toNat = number := UInt64.toNat_ofNat_of_lt' small

/-- One more object gets the slot whose index is the number of slots modulo 2^32. -/
theorem activate_filled (flecs : Flecs) {runtime : Runtime} {count : Nat}
    (filled : Filled count runtime) (small : count < 2 ^ 64 - 1) (slot : Slot)
    (here : (runtime.slots ++ [({} : Slot)])[(UInt32.ofNat count).toNat]? = some slot) :
    Step flecs runtime (.activate (numbered (count + 1)))
      (occupy flecs { runtime with slots := runtime.slots ++ [{}] } (UInt32.ofNat count) slot
        (numbered (count + 1))) := by
  have number := numbered_toNat (count + 1) (by omega)
  have valid : WorldId.valid (numbered (count + 1)).id = true := by
    rw [WorldId.valid, bne_iff_ne]
    intro zero
    rw [zero] at number
    cases number
  have absent : runtime.byWorldId.contains (numbered (count + 1)).id = false := by
    rw [Std.ExtTreeMap.contains_eq_isSome_getElem?, filled.above _ (by omega)]
    rfl
  have taken : runtime.takeSlot =
      (UInt32.ofNat count, { runtime with slots := runtime.slots ++ [{}] }) := by
    simp [takeSlot, filled.full, filled.length]
  rw [Step, perform, activate, valid, absent, taken]
  simp only [here]
  rfl

theorem Filled.next (flecs : Flecs) {runtime : Runtime} {count : Nat}
    (filled : Filled count runtime) (small : count < 2 ^ 32) :
    ∃ now, Step flecs runtime (.activate (numbered (count + 1))) now ∧ Filled (count + 1) now := by
  have place : (UInt32.ofNat count).toNat = runtime.slots.length :=
    (UInt32.toNat_ofNat_of_lt' small).trans filled.length.symm
  have here : (runtime.slots ++ [({} : Slot)])[(UInt32.ofNat count).toNat]? = some {} := by
    rw [place, List.getElem?_concat_length]
  refine ⟨_, activate_filled flecs filled (by omega) {} here, ?_⟩
  have number := numbered_toNat (count + 1) (by omega)
  have absent := filled.above (numbered (count + 1)).id (by omega)
  refine ⟨?_, filled.full, fun slot member => ?_, fun id big => ?_, fun _ => ?_,
    fun slot member => ?_⟩
  · simp [occupy, filled.length]
  · rcases List.mem_or_eq_of_mem_set member with old | rfl
    · rcases List.mem_append.mp old with old | new
      · exact filled.unused slot old
      · rw [List.mem_singleton.mp new]
    · rfl
  · have apart : id ≠ (numbered (count + 1)).id := fun same => by
      rw [same] at big
      omega
    simp only [occupy]
    rw [lookup_insertIfNew _ absent, if_neg apart]
    exact filled.above id (by omega)
  · simp only [occupy]
    rw [lookup_insertIfNew _ absent]
    by_cases begun : count = 0
    · subst begun
      rfl
    · rw [if_neg, filled.first begun]
      intro same
      have one := congrArg UInt64.toNat same
      rw [number] at one
      simp at one
      omega
  · rcases List.mem_or_eq_of_mem_set member with old | rfl
    · rcases List.mem_append.mp old with old | new
      · exact filled.fresh slot old
      · rw [List.mem_singleton.mp new]
    · rfl

theorem filled_run (flecs : Flecs) {count : Nat} (small : count ≤ 2 ^ 32) :
    ∃ ops now, AnyRun (Step flecs) {} ops now ∧ Filled count now := by
  induction count with
  | zero => exact ⟨[], {}, .nil _, rfl, rfl, nofun, fun _ _ => rfl, fun begun => absurd rfl begun, nofun⟩
  | succ count ih =>
    obtain ⟨ops, now, run, filled⟩ := ih (by omega)
    obtain ⟨next, step, after⟩ := filled.next flecs (by omega)
    exact ⟨_, next, run.append (.cons trivial step (.nil _)), after⟩

/-- The entity after 2^32 others takes the slot of the first and its handle. -/
theorem handles_wrap_around : ¬ ∀ (flecs : Flecs) (ops : List Op) (now : Runtime),
    AnyRun (Step flecs) {} ops now → now.Few → now.Consistent := by
  intro claimed
  obtain ⟨ops, full, run, filled⟩ := filled_run countingFlecs (le_refl (2 ^ 32))
  have wrapped : (UInt32.ofNat (2 ^ 32)).toNat = 0 := rfl
  obtain ⟨first, here⟩ : ∃ first, full.slots[0]? = some first :=
    ⟨_, List.getElem?_eq_getElem (by rw [filled.length]; decide)⟩
  have longer : (full.slots ++ [({} : Slot)])[0]? = some first :=
    getElem?_append_fresh.mpr (.inl here)
  have step := activate_filled countingFlecs filled (by decide) first (wrapped ▸ longer)
  have last := run.append (.cons trivial step (.nil _))
  have number := numbered_toNat (2 ^ 32 + 1) (by decide)
  have absent := filled.above (numbered (2 ^ 32 + 1)).id (by omega)
  have consistent := claimed _ _ _ last fun slot member => by
    rcases List.mem_or_eq_of_mem_set member with old | rfl
    · rcases List.mem_append.mp old with old | new
      · rw [filled.unused slot old]
        decide
      · rw [List.mem_singleton.mp new]
        decide
    · rw [show _ = 0 from filled.unused first (List.mem_of_getElem? here)]
      decide
  have entered := (consistent.inverse 1 ⟨0, 1⟩).mp (by
    simp only [occupy]
    rw [lookup_insertIfNew _ absent, if_neg, filled.first (by decide)]
    intro same
    have one := congrArg UInt64.toNat same
    rw [number] at one
    exact absurd one (by decide))
  obtain ⟨slot, there, -, named, -⟩ := entered
  simp only [occupy, wrapped] at there
  rw [show (0 : UInt32).toNat = 0 from rfl, List.getElem?_set_self (by simp)] at there
  obtain rfl := Option.some.inj there
  have one := congrArg UInt64.toNat named
  rw [number] at one
  exact absurd one (by decide)

end Overflow

end Runtime

end GeoWorld.Ecs
