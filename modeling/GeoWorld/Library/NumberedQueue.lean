import Mathlib
import GeoWorld.Library.SortedSelection

/-!
Queues that number their items as they enter, and machines that are told apart only by
their answers.
-/

namespace GeoWorld.Library

section Numbers

variable {α : Type} (sequence : α → UInt64)

/-- The items are numbered from one on, below the next number and each once. -/
structure NumberedBelow (next : UInt64) (items : List α) : Prop where
  distinct : (items.map sequence).Nodup
  positive : ∀ item ∈ items, sequence item ≠ 0
  below : ∀ item ∈ items, sequence item < next

/-- The test of a list in the order of its numbers. -/
def numberedFrom (accepts : α → Bool) (next : UInt64) : UInt64 → List α → Bool
  | _, [] => true
  | previous, item :: rest =>
    !(sequence item == 0 || decide (next ≤ sequence item) || sequence item == previous ||
      !accepts item) && numberedFrom accepts next (sequence item) rest

/-- The items in the order of their numbers. -/
def byNumber (items : List α) : List α :=
  items.insertionSort fun left right => sequence left ≤ sequence right

variable {sequence} {next : UInt64} {items : List α}

theorem numberedBelow_nil (next : UInt64) : NumberedBelow sequence next [] :=
  ⟨List.nodup_nil, by simp, by simp⟩

theorem lt_next {number : UInt64} (room : number + 1 ≠ 0) : number < number + 1 := by
  have below := number.toNat_lt
  have last : (number + 1).toNat ≠ 0 := fun zero => room (UInt64.toNat_inj.mp zero)
  rw [UInt64.lt_iff_toNat_lt]
  simp only [UInt64.toNat_add, UInt64.toNat_one] at last ⊢
  omega

theorem NumberedBelow.perm (numbered : NumberedBelow sequence next items) {others : List α}
    (perm : others.Perm items) : NumberedBelow sequence next others :=
  ⟨(perm.map sequence).nodup_iff.mpr numbered.distinct,
    fun item member => numbered.positive item (perm.subset member),
    fun item member => numbered.below item (perm.subset member)⟩

theorem NumberedBelow.sublist (numbered : NumberedBelow sequence next items) {others : List α}
    (part : others.Sublist items) : NumberedBelow sequence next others :=
  ⟨numbered.distinct.sublist (part.map sequence),
    fun item member => numbered.positive item (part.subset member),
    fun item member => numbered.below item (part.subset member)⟩

theorem NumberedBelow.unique (numbered : NumberedBelow sequence next items) {first second : α}
    (member : first ∈ items) (other : second ∈ items) (same : sequence first = sequence second) :
    first = second :=
  List.inj_on_of_nodup_map numbered.distinct member other same

/-- The next item takes the next number. -/
theorem NumberedBelow.concat (numbered : NumberedBelow sequence next items) (begun : next ≠ 0)
    (room : next + 1 ≠ 0) {item : α} (named : sequence item = next) :
    NumberedBelow sequence (next + 1) (items ++ [item]) := by
  have later := lt_next room
  refine ⟨?_, fun other member => ?_, fun other member => ?_⟩
  · rw [List.map_append, List.map_singleton, named]
    refine List.nodup_append.mpr ⟨numbered.distinct, List.nodup_singleton _, ?_⟩
    intro number inside last same equal
    obtain ⟨other, member, rfl⟩ := List.mem_map.mp inside
    rw [List.mem_singleton.mp same] at equal
    exact UInt64.lt_irrefl _ (equal ▸ numbered.below other member)
  · obtain old | same := List.mem_append.mp member
    · exact numbered.positive other old
    · rw [List.mem_singleton.mp same, named]
      exact begun
  · obtain old | same := List.mem_append.mp member
    · exact UInt64.lt_trans (numbered.below other old) later
    · rw [List.mem_singleton.mp same, named]
      exact later

theorem byNumber_perm (sequence : α → UInt64) (items : List α) : (byNumber sequence items).Perm items :=
  List.perm_insertionSort _ items

theorem length_of_byNumber {first second : List α}
    (same : byNumber sequence first = byNumber sequence second) : first.length = second.length := by
  rw [← (byNumber_perm sequence first).length_eq, same, (byNumber_perm sequence second).length_eq]

theorem byNumber_total (sequence : α → UInt64) :
    Std.Total fun left right : α => sequence left ≤ sequence right :=
  ⟨fun left right => UInt64.le_total (sequence left) (sequence right)⟩

theorem byNumber_trans (sequence : α → UInt64) :
    IsTrans α fun left right => sequence left ≤ sequence right :=
  ⟨fun _ _ _ => UInt64.le_trans⟩

theorem byNumber_sorted (sequence : α → UInt64) (items : List α) :
    (byNumber sequence items).Pairwise fun left right => sequence left ≤ sequence right := by
  have total := byNumber_total sequence
  have transitive := byNumber_trans sequence
  exact List.pairwise_insertionSort _ items

theorem byNumber_byNumber (sequence : α → UInt64) (items : List α) :
    byNumber sequence (byNumber sequence items) = byNumber sequence items :=
  List.Pairwise.insertionSort_eq (byNumber_sorted sequence items)

/-- The order of a longer queue depends on the order of the queue. -/
theorem byNumber_concat_congr {first second : List α}
    (same : byNumber sequence first = byNumber sequence second) (item : α) :
    byNumber sequence (first ++ [item]) = byNumber sequence (second ++ [item]) := by
  have total := byNumber_total sequence
  have transitive := byNumber_trans sequence
  exact insertionSort_concat_congr same item

theorem NumberedBelow.ascending (numbered : NumberedBelow sequence next items) :
    (byNumber sequence items).Pairwise fun left right => sequence left < sequence right := by
  have sorted := byNumber_sorted sequence items
  have distinct := List.pairwise_map.mp (numbered.perm (byNumber_perm sequence items)).distinct
  exact (sorted.and distinct).imp fun both => UInt64.lt_of_le_of_ne both.1 both.2

/-- Numbered items pass the test, sorted. -/
theorem numberedFrom_of_ascending {accepts : α → Bool} {previous : UInt64}
    (ascending : items.Pairwise fun left right => sequence left < sequence right)
    (behind : ∀ item ∈ items, previous < sequence item)
    (below : ∀ item ∈ items, sequence item < next)
    (accepted : ∀ item ∈ items, accepts item) :
    numberedFrom sequence accepts next previous items := by
  induction items generalizing previous with
  | nil => rfl
  | cons item rest ih =>
    rw [List.forall_mem_cons] at behind below accepted
    obtain ⟨first, ascending⟩ := List.pairwise_cons.mp ascending
    have positive : sequence item ≠ 0 := by
      rintro zero
      have bound := behind.1
      rw [zero] at bound
      exact UInt64.not_lt_zero bound
    have fresh : sequence item ≠ previous := (UInt64.ne_of_lt behind.1).symm
    have room : ¬ next ≤ sequence item := UInt64.not_le.mpr below.1
    rw [numberedFrom, ih ascending first below.2 accepted.2]
    simp [positive, fresh, room, accepted.1]

theorem NumberedBelow.restorable (numbered : NumberedBelow sequence next items)
    {accepts : α → Bool} (accepted : ∀ item ∈ items, accepts item) :
    numberedFrom sequence accepts next 0 (byNumber sequence items) := by
  have perm := byNumber_perm sequence items
  refine numberedFrom_of_ascending numbered.ascending (fun item member => ?_)
    (fun item member => numbered.below item (perm.subset member))
    fun item member => accepted item (perm.subset member)
  exact UInt64.pos_iff_ne_zero.mpr (numbered.positive item (perm.subset member))

end Numbers

section Machines

variable {σ ε ρ : Type} (step : σ → ε → ρ × σ)

/-- One operation as a step between states. -/
abbrev Moves (before : σ) (operation : ε) (after : σ) : Prop :=
  (step before operation).2 = after

def moveAll (state : σ) (operations : List ε) : σ :=
  operations.foldl (fun state operation => (step state operation).2) state

/-- What a machine answers to one operation after another. -/
def answers : σ → List ε → List ρ
  | _, [] => []
  | state, operation :: rest => (step state operation).1 :: answers (step state operation).2 rest

/-- Two machines whose related states give the same answer and stay related answer alike. -/
theorem answers_simulated {τ : Type} {other : τ → ε → ρ × τ} {related : σ → τ → Prop}
    (agree : ∀ state state' operation, related state state' →
      (step state operation).1 = (other state' operation).1 ∧
        related (step state operation).2 (other state' operation).2)
    {state : σ} {state' : τ} (together : related state state') (operations : List ε) :
    answers step state operations = answers other state' operations := by
  induction operations generalizing state state' with
  | nil => rfl
  | cons operation rest ih =>
    obtain ⟨same, left⟩ := agree state state' operation together
    rw [answers, answers, same, ih left]

/-- Related states of one machine. -/
theorem answers_eq {related : σ → σ → Prop}
    (agree : ∀ one other operation, related one other →
      (step one operation).1 = (step other operation).1 ∧
        related (step one operation).2 (step other operation).2)
    {one other : σ} (together : related one other) (operations : List ε) :
    answers step one operations = answers step other operations :=
  answers_simulated step agree together operations

end Machines

end GeoWorld.Library
