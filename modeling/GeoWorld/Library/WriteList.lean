import Mathlib
import GeoWorld.Library.TreeMap

/-!
What a map holds after a list of writes: the last write of a key when each replaces what is
there, and the first one when what is there stays.
-/

namespace GeoWorld.Library

open Std

section Writes

variable {K V : Type} [DecidableEq K]

def firstWrite (writes : List (K × V)) (key : K) : Option V :=
  (writes.find? fun write => write.1 = key).map Prod.snd

def lastWrite (writes : List (K × V)) (key : K) : Option V :=
  firstWrite writes.reverse key

theorem firstWrite_cons (write : K × V) (rest : List (K × V)) (key : K) :
    firstWrite (write :: rest) key = if write.1 = key then some write.2 else firstWrite rest key := by
  by_cases same : write.1 = key
  · simp [firstWrite, same]
  · simp [firstWrite, same]

theorem lastWrite_cons (write : K × V) (rest : List (K × V)) (key : K) :
    lastWrite (write :: rest) key =
      (lastWrite rest key).or (if write.1 = key then some write.2 else none) := by
  rw [lastWrite, lastWrite, firstWrite, List.reverse_cons, List.find?_append, Option.map_or]
  by_cases same : write.1 = key
  · simp [firstWrite, same]
  · simp [firstWrite, same]

theorem firstWrite_isSome {writes : List (K × V)} {key : K} :
    (firstWrite writes key).isSome ↔ key ∈ writes.map Prod.fst := by
  simp [firstWrite, List.find?_isSome]

theorem lastWrite_isSome {writes : List (K × V)} {key : K} :
    (lastWrite writes key).isSome ↔ key ∈ writes.map Prod.fst := by
  rw [lastWrite, firstWrite_isSome, List.map_reverse, List.mem_reverse]

/-- A key that is written once at most has one write, the first and the last. -/
theorem firstWrite_eq_lastWrite {writes : List (K × V)} {key : K}
    (once : (writes.countP fun write => write.1 = key) ≤ 1) :
    firstWrite writes key = lastWrite writes key := by
  induction writes with
  | nil => rfl
  | cons write rest ih =>
    rw [firstWrite_cons, lastWrite_cons]
    by_cases same : write.1 = key
    · rw [List.countP_cons_of_pos (by simpa using same)] at once
      have silent : key ∉ rest.map Prod.fst := by
        rintro member
        obtain ⟨other, listed, again⟩ := List.mem_map.mp member
        have counted : 0 < rest.countP fun write => write.1 = key :=
          List.countP_pos_iff.mpr ⟨other, listed, decide_eq_true again⟩
        omega
      rw [← lastWrite_isSome, Option.not_isSome_iff_eq_none] at silent
      simp [same, silent]
    · rw [List.countP_cons_of_neg (by simpa using same)] at once
      simp [same, ih once]

end Writes

section Maps

variable {K V : Type} {cmp : K → K → Ordering} [TransCmp cmp] [LawfulEqCmp cmp] [DecidableEq K]

theorem lookup_writes (map : ExtTreeMap K V cmp) (writes : List (K × V)) (key : K) :
    (writes.foldl (fun acc write => acc.insert write.1 write.2) map)[key]? =
      (lastWrite writes key).or map[key]? := by
  induction writes generalizing map with
  | nil => rfl
  | cons write rest ih =>
    rw [List.foldl_cons, ih, lookup_insert, lastWrite_cons, Option.or_assoc]
    by_cases same : write.1 = key
    · simp [same]
    · simp [same, Ne.symm same]

theorem lookup_first_writes (map : ExtTreeMap K V cmp) (writes : List (K × V)) (key : K) :
    (writes.foldl (fun acc write => acc.insertIfNew write.1 write.2) map)[key]? =
      map[key]?.or (firstWrite writes key) := by
  induction writes generalizing map with
  | nil => simp [firstWrite]
  | cons write rest ih =>
    rw [List.foldl_cons, ih, lookup_insertIfNew_or, firstWrite_cons, Option.or_assoc]
    by_cases same : write.1 = key
    · simp [same]
    · simp [same, Ne.symm same]

end Maps

end GeoWorld.Library
