import Mathlib
import GeoWorld.Ecs.Runtime
import GeoWorld.Library.Runs
import GeoWorld.Library.SlotHistory

/-!
Handles over the whole history of a runtime: what each operation does to the slots, that a valid
handle stays valid until an operation destroys its entity and is never valid again, and what a
snapshot lists.
-/

namespace GeoWorld.Ecs

open WorldModel Library

namespace Runtime

abbrev Later : List Slot → List Slot → Prop :=
  SlotHistory.Later Slot.destroyed fun slot => slot.occupied = true

/-- The index and the count of destructions name the present use of a slot. -/
abbrev Names : List Slot → Nat → Nat → Prop :=
  SlotHistory.Names Slot.destroyed fun slot => slot.occupied = true

/-- No slot was destroyed 2^32 - 1 times. -/
def Few (runtime : Runtime) : Prop := ∀ slot ∈ runtime.slots, slot.destroyed < 2 ^ 32 - 1

section Operations

variable {flecs : Flecs} {runtime now : Runtime} {index : UInt32} {slot : Slot} {id : RuntimeId}
  {object : WorldObject}

theorem Few.before (few : now.Few) (later : Later runtime.slots now.slots) : runtime.Few := by
  intro slot member
  obtain ⟨index, here⟩ := List.mem_iff_getElem?.mp member
  obtain ⟨current, there, since⟩ := later index slot here
  exact since.le.trans_lt (few current (List.mem_of_getElem? there))

theorem takeSlot_later (runtime : Runtime) : Later runtime.slots runtime.takeSlot.2.slots := by
  unfold takeSlot
  split
  · exact .append _ _
  · exact .refl _

theorem occupy_later (here : runtime.slots[index.toNat]? = some slot)
    (empty : slot.occupied = false) :
    Later runtime.slots (runtime.occupy flecs index slot object).slots :=
  .set here ⟨le_rfl, fun _ busy => absurd (busy.symm.trans empty) (by decide)⟩

theorem vacate_later (here : runtime.slots[index.toNat]? = some slot) :
    Later runtime.slots (runtime.vacate index slot).slots :=
  .set here ⟨Nat.le_succ _, fun same => absurd same (Nat.succ_ne_self _)⟩

/-- What an activation leads to. -/
structure Activated (runtime : Runtime) (object : WorldObject)
    (result : Option RuntimeId × Runtime) : Prop where
  sound : result.2.Sound
  later : Later runtime.slots result.2.slots
  kept : ∀ (index : Nat) (slot : Slot), runtime.slots[index]? = some slot →
    slot.occupied = true → result.2.slots[index]? = some slot
  entered : WorldId.valid object.id → runtime.byWorldId[object.id]? = none → result.1.isSome
  others : ∀ other : WorldId, other ≠ object.id →
    result.2.byWorldId[other]? = runtime.byWorldId[other]?
  size : result.2.slots.length + runtime.freeSlots.length ≤
    runtime.slots.length + result.2.freeSlots.length + 1
  room : runtime.freeSlots ≠ [] → result.2.slots.length = runtime.slots.length

theorem takeSlot_size (runtime : Runtime) :
    runtime.takeSlot.2.slots.length + runtime.freeSlots.length =
        runtime.slots.length + runtime.takeSlot.2.freeSlots.length + 1 ∧
      (runtime.freeSlots ≠ [] →
        runtime.takeSlot.2.slots.length = runtime.slots.length) := by
  unfold takeSlot
  cases last : runtime.freeSlots.getLast? with
  | none =>
    have idle : runtime.freeSlots = [] := List.getLast?_eq_none_iff.mp last
    simp [idle]
  | some index =>
    have occupied : runtime.freeSlots ≠ [] := fun idle => by simp [idle] at last
    have positive := List.length_pos_iff.mpr occupied
    simp only [List.length_dropLast]
    exact ⟨by omega, fun _ => trivial⟩

theorem takeSlot_kept {place : Nat} (here : runtime.slots[place]? = some slot) :
    runtime.takeSlot.2.slots[place]? = some slot := by
  unfold takeSlot
  split
  · exact getElem?_append_fresh.mpr (.inl here)
  · exact here

theorem Sound.activate (sound : runtime.Sound) (roomy : runtime.Roomy) (object : WorldObject) :
    ∃ result, runtime.activate flecs object = some result ∧
      runtime.Activated object result := by
  unfold Runtime.activate
  split
  · rename_i refused
    refine ⟨_, rfl, sound, .refl _, fun _ _ here _ => here, fun valid absent => ?_,
      fun _ _ => rfl, Nat.le_succ _, fun _ => rfl⟩
    simp [valid, Std.ExtTreeMap.contains_eq_isSome_getElem?, absent] at refused
  · rename_i accepted
    obtain ⟨taken, slot, here, empty⟩ := sound.takeSlot roomy
    have absent : runtime.takeSlot.2.byWorldId[object.id]? = none := by
      rw [takeSlot_byWorldId]
      rw [Bool.or_eq_true, not_or, Std.ExtTreeMap.contains_eq_isSome_getElem?] at accepted
      exact Option.not_isSome_iff_eq_none.mp accepted.2
    have inside : runtime.takeSlot.1.toNat < runtime.takeSlot.2.slots.length :=
      (List.getElem?_eq_some_iff.mp here).1
    have size := runtime.takeSlot_size
    rw [here]
    refine ⟨_, rfl, taken.occupy here empty absent,
      (takeSlot_later runtime).trans (occupy_later here empty), fun place other there busy => ?_,
      fun _ _ => rfl, fun other apart => ?_, ?_, fun some_free => ?_⟩
    · have apart : runtime.takeSlot.1.toNat ≠ place := fun same => by
        obtain rfl := Option.some.inj (here.symm.trans (same ▸ takeSlot_kept there))
        exact absurd (busy.symm.trans empty) (by decide)
      exact (List.getElem?_set_ne apart).trans (takeSlot_kept there)
    · simp only [Runtime.occupy]
      rw [lookup_insertIfNew _ absent, if_neg apart, takeSlot_byWorldId]
    · simp only [Runtime.occupy, List.length_set]
      exact size.1.le
    · simp only [Runtime.occupy, List.length_set]
      exact size.2 some_free

theorem valid_iff : runtime.valid id = true ↔ id.generation ≠ 0 ∧
    ∃ slot, runtime.slots[id.slot.toNat]? = some slot ∧ slot.occupied = true ∧
      slot.generation = id.generation := by
  rw [Runtime.valid, RuntimeId.valid, Bool.and_eq_true, bne_iff_ne]
  cases here : runtime.slots[id.slot.toNat]? with
  | none => simp
  | some slot => simp

theorem destroy_of_valid (valid : runtime.valid id = true) :
    ∃ slot, runtime.slots[id.slot.toNat]? = some slot ∧ slot.occupied = true ∧
      runtime.destroy id = (true, runtime.vacate id.slot slot) := by
  obtain ⟨-, slot, here, busy, -⟩ := valid_iff.mp valid
  exact ⟨slot, here, busy, by simp [Runtime.destroy, valid, here]⟩

theorem destroy_of_invalid (invalid : ¬ runtime.valid id = true) :
    runtime.destroy id = (false, runtime) := by
  rw [Runtime.destroy, if_neg invalid]

theorem Sound.destroy (sound : runtime.Sound) (id : RuntimeId) :
    (runtime.destroy id).2.Sound ∧ Later runtime.slots (runtime.destroy id).2.slots ∧
      (runtime.destroy id).2.slots.length = runtime.slots.length := by
  by_cases valid : runtime.valid id = true
  · obtain ⟨slot, here, busy, done⟩ := destroy_of_valid valid
    rw [done]
    exact ⟨sound.vacate here busy, vacate_later here, List.length_set ..⟩
  · rw [destroy_of_invalid valid]
    exact ⟨sound, .refl _, rfl⟩

/-- The slots below the loop index of `clear` are empty. -/
structure Cleared (start runtime : Runtime) (index : Nat) : Prop where
  sound : runtime.Sound
  later : Later start.slots runtime.slots
  size : runtime.slots.length = start.slots.length
  empty : ∀ (other : Nat) (slot : Slot), other < index → runtime.slots[other]? = some slot →
    slot.occupied = false

theorem Cleared.step {start : Runtime} {index : Nat} (cleared : start.Cleared runtime index)
    (small : index < 2 ^ 32) : start.Cleared (runtime.clearSlot index) (index + 1) := by
  have unchanged (idle : ∀ slot, runtime.slots[index]? = some slot → slot.occupied = false) :
      start.Cleared runtime (index + 1) := by
    refine ⟨cleared.sound, cleared.later, cleared.size, fun other found below at_slot => ?_⟩
    obtain before | rfl := Nat.lt_succ_iff_lt_or_eq.mp below
    · exact cleared.empty other found before at_slot
    · exact idle found at_slot
  have number : (UInt32.ofNat index).toNat = index := UInt32.toNat_ofNat_of_lt' small
  unfold clearSlot
  cases here : runtime.slots[index]? with
  | none =>
    exact unchanged fun slot at_slot => absurd (at_slot.symm.trans here) (Option.some_ne_none slot)
  | some slot =>
    cases busy : slot.occupied with
    | false =>
      simp only [busy, Bool.false_eq_true, if_false]
      refine unchanged fun other at_slot => ?_
      rwa [← Option.some.inj (here.symm.trans at_slot)]
    | true =>
      have alive := (cleared.sound.generations slot (List.mem_of_getElem? here)).1
      have valid : runtime.valid ⟨UInt32.ofNat index, slot.generation⟩ = true :=
        valid_iff.mpr ⟨alive, slot, number.symm ▸ here, busy, rfl⟩
      obtain ⟨found, there, -, done⟩ := destroy_of_valid valid
      obtain ⟨sound, later, size⟩ :=
        cleared.sound.destroy ⟨UInt32.ofNat index, slot.generation⟩
      simp only [busy, if_true]
      refine ⟨sound, cleared.later.trans later, size.trans cleared.size,
        fun other held below at_slot => ?_⟩
      rw [done] at at_slot
      simp only [Runtime.vacate, number, List.getElem?_set] at at_slot
      by_cases same : index = other
      · rw [if_pos same, if_pos (List.getElem?_eq_some_iff.mp here).1] at at_slot
        rw [← Option.some.inj at_slot]
      · rw [if_neg same] at at_slot
        exact cleared.empty other held (by omega) at_slot

/-- `clear` leaves every slot empty. -/
theorem Sound.clear (sound : runtime.Sound) (done : runtime.clear = some now) :
    runtime.Cleared now now.slots.length := by
  unfold Runtime.clear at done
  split at done
  · rename_i small
    obtain rfl := Option.some.inj done
    suffices cleared : ∀ count ≤ runtime.slots.length,
        runtime.Cleared ((List.range count).foldl clearSlot runtime) count by
      have all := cleared _ le_rfl
      exact ⟨all.sound, all.later, all.size, fun other slot below => all.empty other slot
        (all.size ▸ below)⟩
    intro count within
    induction count with
    | zero => exact ⟨sound, .refl _, rfl, fun _ _ below => absurd below (Nat.not_lt_zero _)⟩
    | succ count ih =>
      rw [List.range_succ, List.foldl_concat]
      exact (ih (by omega)).step (by omega)
  · cases done

theorem Cleared.empty_all {start : Runtime} (cleared : start.Cleared now now.slots.length)
    {place : Nat} (here : now.slots[place]? = some slot) : slot.occupied = false :=
  cleared.empty place slot (List.getElem?_eq_some_iff.mp here).1 here

theorem Cleared.untabled {start : Runtime} (cleared : start.Cleared now now.slots.length)
    (id : WorldId) : now.byWorldId[id]? = none := by
  refine Option.eq_none_iff_forall_ne_some.mpr fun entry found => ?_
  obtain ⟨slot, here, busy, -⟩ := (cleared.sound.found id entry).mp found
  exact absurd (busy.symm.trans (cleared.empty_all here)) (by decide)

/-- After `clear` every slot is on the free list. -/
theorem Cleared.free_length {start : Runtime} (cleared : start.Cleared now now.slots.length) :
    now.slots.length ≤ now.freeSlots.length := by
  have number : ∀ place < now.slots.length, (UInt32.ofNat place).toNat = place :=
    fun place inside => UInt32.toNat_ofNat_of_lt' (inside.trans_le cleared.sound.bounded)
  have distinct : ((List.range now.slots.length).map UInt32.ofNat).Nodup := by
    refine List.Nodup.map_on (fun one first other second same => ?_) List.nodup_range
    rw [List.mem_range] at first second
    rwa [← UInt32.toNat_inj, number one first, number other second] at same
  have listed : (List.range now.slots.length).map UInt32.ofNat ⊆ now.freeSlots := by
    intro index member
    obtain ⟨place, inside, rfl⟩ := List.mem_map.mp member
    rw [List.mem_range] at inside
    have here : now.slots[(UInt32.ofNat place).toNat]? = some (now.slots.get ⟨place, inside⟩) := by
      rw [number place inside, List.getElem?_eq_getElem inside]
      rfl
    exact (cleared.sound.free _).mpr ⟨nofun, _, here, cleared.empty_all here⟩
  have counted := (distinct.subperm listed).length_le
  rwa [List.length_map, List.length_range] at counted

/-- The activations of `restore` all succeed when there are at most 2^32. -/
theorem activateAll_spec {entities : List RuntimeEntitySnapshot} {count : Nat}
    (sound : runtime.Sound) (capacity : runtime.slots.length ≤ runtime.freeSlots.length + count)
    (enough : count + entities.length ≤ 2 ^ 32)
    (valid : ∀ entity ∈ entities, WorldId.valid entity.worldId)
    (distinct : (entities.map RuntimeEntitySnapshot.worldId).Nodup)
    (absent : ∀ entity ∈ entities, runtime.byWorldId[entity.worldId]? = none) :
    ∃ now, runtime.activateAll flecs entities = some (true, now) ∧ now.Sound ∧
      Later runtime.slots now.slots := by
  induction entities generalizing runtime count with
  | nil => exact ⟨runtime, rfl, sound, .refl _⟩
  | cons entity rest ih =>
    rw [List.length_cons] at enough
    rw [List.map_cons, List.nodup_cons] at distinct
    rw [List.forall_mem_cons] at valid absent
    have roomy : runtime.Roomy := by
      by_cases idle : runtime.freeSlots = []
      · rw [idle, List.length_nil] at capacity
        exact .inl (by omega)
      · exact .inr idle
    obtain ⟨result, done, activated⟩ := sound.activate roomy entity.object
    have size := activated.size
    obtain ⟨now, restored, now_sound, later⟩ := @ih result.2 (count + 1) activated.sound
      (by omega) (by omega) valid.2 distinct.2 fun other member => by
        have apart : other.worldId ≠ entity.worldId := fun same =>
          distinct.1 (List.mem_map.mpr ⟨other, member, same⟩)
        rw [activated.others other.worldId apart]
        exact absent.2 other member
    refine ⟨now, ?_, now_sound, activated.later.trans later⟩
    rw [activateAll, done, Option.bind_some, if_pos (activated.entered valid.1 absent.1), restored]

theorem restorable_iff {snapshot : RuntimeSnapshot} : restorable snapshot = true ↔
    snapshot.valid = true ∧ (∀ entity ∈ snapshot.entities, WorldId.valid entity.worldId) ∧
      (snapshot.entities.map RuntimeEntitySnapshot.worldId).Nodup := by
  simp [restorable, and_assoc]

theorem Sound.restore (sound : runtime.Sound) {snapshot : RuntimeSnapshot}
    (accepted : restorable snapshot = true) (enough : snapshot.entities.length ≤ 2 ^ 32)
    {result : Bool × Runtime} (done : runtime.restore flecs snapshot = some result) :
    result.2.Sound ∧ ∃ cleared, runtime.Cleared cleared cleared.slots.length ∧
      Later cleared.slots result.2.slots := by
  rw [Runtime.restore, if_pos accepted] at done
  obtain ⟨cleared, emptied, rest⟩ := Option.bind_eq_some_iff.mp done
  obtain ⟨-, valid, distinct⟩ := restorable_iff.mp accepted
  have empty := sound.clear emptied
  obtain ⟨now, restored, now_sound, later⟩ := @activateAll_spec flecs cleared _ 0 empty.sound
    (by have listed := empty.free_length; omega) (by omega) valid distinct
    fun entity _ => empty.untabled entity.worldId
  obtain rfl := Option.some.inj (restored.symm.trans rest)
  exact ⟨now_sound, cleared, empty, later⟩

end Operations

end Runtime

/-- The calls that change a runtime. -/
inductive Op where
  | activate (object : WorldObject)
  | destroy (id : RuntimeId)
  | clear
  | restore (snapshot : RuntimeSnapshot)

/-- The call ends the entity of a valid handle. -/
def Op.Destroys (id : RuntimeId) : Op → Prop
  | .activate _ => False
  | .destroy other => other = id
  | .clear => True
  | .restore snapshot => Runtime.restorable snapshot = true

namespace Runtime

def perform (flecs : Flecs) (runtime : Runtime) : Op → Option Runtime
  | .activate object => (runtime.activate flecs object).map Prod.snd
  | .destroy id => some (runtime.destroy id).2
  | .clear => runtime.clear
  | .restore snapshot => (runtime.restore flecs snapshot).map Prod.snd

def Step (flecs : Flecs) (before : Runtime) (op : Op) (after : Runtime) : Prop :=
  before.perform flecs op = some after

/-- An activation finds a free slot or fewer than 2^32 slots, and no more entities than 2^32 are
restored. -/
def Room (runtime : Runtime) : Op → Prop
  | .activate _ => runtime.Roomy
  | .destroy _ => True
  | .clear => True
  | .restore snapshot => snapshot.entities.length ≤ 2 ^ 32

section Steps

variable {flecs : Flecs} {before now : Runtime} {op : Op} {ops : List Op} {id : RuntimeId}

theorem step_sound (sound : before.Sound) (room : before.Room op) (step : Step flecs before op now) :
    now.Sound ∧ Later before.slots now.slots := by
  cases op with
  | activate object =>
    obtain ⟨result, done, activated⟩ := sound.activate room object
    rw [Step, perform, done] at step
    obtain rfl := Option.some.inj step
    exact ⟨activated.sound, activated.later⟩
  | destroy other =>
    obtain rfl := Option.some.inj step
    obtain ⟨after, later, -⟩ := sound.destroy other
    exact ⟨after, later⟩
  | clear =>
    have cleared := sound.clear step
    exact ⟨cleared.sound, cleared.later⟩
  | restore snapshot =>
    obtain ⟨result, done, rfl⟩ := Option.map_eq_some_iff.mp step
    by_cases accepted : restorable snapshot = true
    · obtain ⟨after, cleared, empty, later⟩ := sound.restore accepted room done
      exact ⟨after, empty.later.trans later⟩
    · rw [Runtime.restore, if_neg accepted] at done
      obtain rfl := Option.some.inj done
      exact ⟨sound, .refl _⟩

theorem run_sound (sound : before.Sound) (run : GuardedRun (Step flecs) Room before ops now) :
    now.Sound ∧ Later before.slots now.slots := by
  induction run with
  | nil => exact ⟨sound, .refl _⟩
  | cons room step _ ih =>
    obtain ⟨after, later⟩ := step_sound sound room step
    obtain ⟨last, rest⟩ := ih after
    exact ⟨last, later.trans rest⟩

/-- While no slot was destroyed too often a generation counts the destructions. -/
theorem names_iff (sound : before.Sound) (few : before.Few) : before.valid id = true ↔
    id.generation ≠ 0 ∧ Names before.slots id.slot.toNat (id.generation.toNat - 1) := by
  rw [valid_iff]
  refine and_congr_right fun alive => exists_congr fun slot => ?_
  refine and_congr_right fun here => and_congr_right fun _ => ?_
  have member := List.mem_of_getElem? here
  have number := (sound.generations slot member).2 (few slot member)
  have positive : id.generation.toNat ≠ 0 := fun zero => alive (UInt32.toNat_inj.mp zero)
  rw [← UInt32.toNat_inj]
  omega

theorem valid_kept (valid : before.valid id = true)
    (kept : ∀ slot, before.slots[id.slot.toNat]? = some slot → slot.occupied = true →
      now.slots[id.slot.toNat]? = some slot) : now.valid id = true := by
  obtain ⟨alive, slot, here, busy, same⟩ := valid_iff.mp valid
  exact valid_iff.mpr ⟨alive, slot, kept slot here busy, busy, same⟩

/-- An operation keeps a valid handle valid if and only if it does not destroy its entity. -/
theorem step_valid (sound : before.Sound) (room : before.Room op) (step : Step flecs before op now)
    (few : now.Few) (valid : before.valid id = true) :
    now.valid id = true ↔ ¬ op.Destroys id := by
  obtain ⟨after, later⟩ := step_sound sound room step
  have named := ((names_iff sound (few.before later)).mp valid).2
  -- a slot that is empty in between is not used under its old number again
  have ended : ∀ middle : Runtime, (∀ (place : Nat) (slot : Slot),
      middle.slots[place]? = some slot → slot.occupied = false) →
      Later before.slots middle.slots → Later middle.slots now.slots → ¬ now.valid id = true := by
    intro middle empty first second still
    refine named.gone first ?_ second ((names_iff after few).mp still).2
    rintro ⟨slot, here, busy, -⟩
    exact absurd (busy.symm.trans (empty _ slot here)) (by decide)
  cases op with
  | activate object =>
    refine iff_of_true ?_ not_false
    obtain ⟨result, done, activated⟩ := sound.activate room object
    rw [Step, perform, done] at step
    obtain rfl := Option.some.inj step
    exact valid_kept valid fun slot here busy => activated.kept _ slot here busy
  | destroy other =>
    obtain rfl := Option.some.inj step
    by_cases live : before.valid other = true
    · obtain ⟨slot, here, busy, done⟩ := destroy_of_valid live
      rw [done]
      by_cases same : other = id
      · subst same
        refine iff_of_false (fun still => ?_) (not_not.mpr rfl)
        obtain ⟨-, held, there, occupied, -⟩ := valid_iff.mp still
        simp only [vacate, List.getElem?_set_self (List.getElem?_eq_some_iff.mp here).1] at there
        obtain rfl := Option.some.inj there
        cases occupied
      · refine iff_of_true (valid_kept valid fun held there _ => ?_) same
        have apart : other.slot.toNat ≠ id.slot.toNat := by
          intro level
          obtain ⟨-, first, first_here, -, first_named⟩ := valid_iff.mp live
          obtain ⟨-, second, second_here, -, second_named⟩ := valid_iff.mp valid
          rw [level] at first_here
          obtain rfl := Option.some.inj (first_here.symm.trans second_here)
          exact same (RuntimeId.ext (UInt32.toNat_inj.mp level) (first_named.symm.trans second_named))
        exact (List.getElem?_set_ne apart).trans there
    · rw [destroy_of_invalid live]
      refine iff_of_true valid fun same => live ?_
      rwa [show other = id from same]
  | clear =>
    have cleared := sound.clear step
    exact iff_of_false (ended now (fun _ _ here => cleared.empty_all here) later (.refl _))
      (not_not.mpr trivial)
  | restore snapshot =>
    obtain ⟨result, done, rfl⟩ := Option.map_eq_some_iff.mp step
    by_cases accepted : restorable snapshot = true
    · obtain ⟨-, cleared, empty, rest⟩ := sound.restore accepted room done
      exact iff_of_false (ended cleared (fun _ _ here => empty.empty_all here) empty.later rest)
        (not_not.mpr accepted)
    · rw [Runtime.restore, if_neg accepted] at done
      obtain rfl := Option.some.inj done
      exact iff_of_true valid accepted

/-- A valid handle is valid after a run if and only if no operation of it destroyed its entity, and
then it still means the same slot content. -/
theorem run_valid (sound : before.Sound) (run : GuardedRun (Step flecs) Room before ops now)
    (few : now.Few) (valid : before.valid id = true) :
    (now.valid id = true ↔ ∀ op ∈ ops, ¬ op.Destroys id) ∧
      (now.valid id = true → now.slots[id.slot.toNat]? = before.slots[id.slot.toNat]?) := by
  constructor
  · induction run with
    | nil => exact iff_of_true valid nofun
    | cons room step rest ih =>
      obtain ⟨after, later⟩ := step_sound sound room step
      obtain ⟨last, behind⟩ := run_sound after rest
      have middle_few := few.before behind
      rw [List.forall_mem_cons, ← step_valid sound room step middle_few valid]
      constructor
      · intro still
        have named := (names_iff sound (middle_few.before later)).mp valid
        have middle := by_contra fun gone => named.2.gone later
          (fun names => gone ((names_iff after middle_few).mpr ⟨named.1, names⟩)) behind
            ((names_iff last few).mp still).2
        exact ⟨middle, (ih after few middle).mp still⟩
      · exact fun ⟨middle, untouched⟩ => (ih after few middle).mpr untouched
  · intro still
    obtain ⟨last, later⟩ := run_sound sound run
    exact ((names_iff sound (few.before later)).mp valid).2.same later
      ((names_iff last few).mp still).2

end Steps

end Runtime

end GeoWorld.Ecs
