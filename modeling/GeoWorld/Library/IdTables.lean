import Mathlib
import GeoWorld.Library.TreeMap

/-!
Ids handed out one after the other from 1 and kept in two tables, from keys to ids and back. The
tables stay inverse to each other and together hold exactly the ids below the next one.
-/

namespace GeoWorld.Library

open Std

section IdTables

variable {α : Type} {cmp : α → α → Ordering} [TransCmp cmp] [LawfulEqCmp cmp] [DecidableEq α]

structure IdTables (forth : ExtTreeMap α Nat cmp) (back : ExtTreeMap Nat α compare)
    (next : Nat) : Prop where
  inverse : ∀ (key : α) (id : Nat), forth[key]? = some id ↔ back[id]? = some key
  issued : ∀ id : Nat, id ∈ back ↔ 1 ≤ id ∧ id < next
  size_eq : forth.size + 1 = next

/-- Every key keeps its id. -/
def IdsExtend (forth later : ExtTreeMap α Nat cmp) : Prop :=
  ∀ (key : α) (id : Nat), forth[key]? = some id → later[key]? = some id

variable {forth later : ExtTreeMap α Nat cmp} {back : ExtTreeMap Nat α compare} {next : Nat}

omit [LawfulEqCmp cmp] [DecidableEq α] in
theorem IdsExtend.refl (forth : ExtTreeMap α Nat cmp) : IdsExtend forth forth :=
  fun _ _ found => found

omit [LawfulEqCmp cmp] [DecidableEq α] in
theorem IdsExtend.trans {last : ExtTreeMap α Nat cmp} (first : IdsExtend forth later)
    (second : IdsExtend later last) : IdsExtend forth last :=
  fun key id found => second key id (first key id found)

theorem idsExtend_insert {key : α} (fresh : forth[key]? = none) (id : Nat) :
    IdsExtend forth (forth.insert key id) := by
  intro other known found
  have different : other ≠ key := by
    rintro rfl
    rw [fresh] at found
    cases found
  rw [lookup_insert_ne _ different, found]

namespace IdTables

omit [LawfulEqCmp cmp] [DecidableEq α] in
theorem empty : IdTables (∅ : ExtTreeMap α Nat cmp) ∅ 1 := by
  refine ⟨by simp, fun id => ?_, by simp⟩
  simp only [ExtTreeMap.not_mem_empty, false_iff]
  omega

omit [LawfulEqCmp cmp] [DecidableEq α] in
theorem below (tables : IdTables forth back next) {key : α} {id : Nat}
    (found : forth[key]? = some id) : 1 ≤ id ∧ id < next := by
  refine (tables.issued id).mp (ExtTreeMap.mem_iff_isSome_getElem?.mpr ?_)
  rw [(tables.inverse key id).mp found]
  rfl

/-- A key without an id gets the next one. -/
theorem allocate (tables : IdTables forth back next) {key : α} (fresh : forth[key]? = none) :
    IdTables (forth.insert key next) (back.insert next key) (next + 1) := by
  have unissued : back[next]? = none := by
    by_contra present
    obtain ⟨other, found⟩ := Option.ne_none_iff_exists'.mp present
    exact lt_irrefl next (tables.below ((tables.inverse other next).mpr found)).2
  have missing : forth.contains key = false := by
    rw [ExtTreeMap.contains_eq_isSome_getElem?, fresh]
    rfl
  refine ⟨fun other id => ?_, fun id => ?_, ?_⟩
  · rw [lookup_insert, lookup_insert]
    by_cases same_key : other = key
    · subst same_key
      by_cases same_id : id = next
      · simp [same_id]
      · have absent : back[id]? ≠ some other := by
          rw [Ne, ← tables.inverse other id, fresh]
          simp
        simp [same_id, absent, Ne.symm same_id]
    · by_cases same_id : id = next
      · subst same_id
        have absent : forth[other]? ≠ some id := by
          rw [Ne, tables.inverse other id, unissued]
          simp
        simp [same_key, absent, Ne.symm same_key]
      · rw [if_neg same_key, if_neg same_id]
        exact tables.inverse other id
  · have first : 1 ≤ next := by
      have counted := tables.size_eq
      omega
    rw [ExtTreeMap.mem_insert, LawfulEqCmp.compare_eq_iff_eq, tables.issued]
    omega
  · rw [ExtTreeMap.size_insert, missing, if_neg Bool.false_ne_true, tables.size_eq]

end IdTables

end IdTables

end GeoWorld.Library
