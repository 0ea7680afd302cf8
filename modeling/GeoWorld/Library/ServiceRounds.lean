import Mathlib

/-!
Rounds that serve items one after the other. A round that picks only items waiting at least as
long as one it passes over never picks an item twice before that one, so it is passed over for
fewer rounds than there are items.
-/

namespace GeoWorld.Library

variable {ρ α : Type*} [DecidableEq α] (time : ρ → Nat) (served : ρ → List α)

/-- When `item` was last served, `⊥` if never. -/
def lastServed (rounds : List ρ) (item : α) : WithBot Nat :=
  ((rounds.filter fun round => item ∈ served round).getLast?).elim ⊥ fun round => time round

variable {time served}

theorem lastServed_concat (rounds : List ρ) (round : ρ) (item : α) :
    lastServed time served (rounds ++ [round]) item =
      if item ∈ served round then (time round : WithBot Nat)
      else lastServed time served rounds item := by
  unfold lastServed
  rw [List.filter_append]
  split
  · next here => simp [here]
  · next other => simp [other]

theorem lastServed_lt {rounds : List ρ} {bound : Nat}
    (earlier : ∀ round ∈ rounds, time round < bound) (item : α) :
    lastServed time served rounds item < bound := by
  unfold lastServed
  cases last : (rounds.filter fun round => item ∈ served round).getLast? with
  | none => exact WithBot.bot_lt_coe bound
  | some round =>
    have member := List.mem_of_getLast? last
    exact WithBot.coe_lt_coe.mpr (earlier round (List.mem_of_mem_filter member))

section PassedOver

variable {picked : ρ → List α} {passed : α}

/-- A round serves what it picks, and among the waiting it picks the ones that have waited at
least as long as `passed`, which it does not serve. -/
structure PassesOver (time : ρ → Nat) (served picked : ρ → List α) (passed : α)
    (earlier : List ρ) (round : ρ) : Prop where
  unserved : passed ∉ served round
  serves : picked round ⊆ served round
  waited : ∀ item ∈ picked round,
    lastServed time served earlier item ≤ lastServed time served earlier passed

/-- What is picked while `passed` waits was served before it, and is picked once. -/
theorem picked_once {earlier rounds : List ρ}
    (ascending : (earlier ++ rounds).Pairwise fun first second => time first < time second)
    (passes : ∀ before round after, rounds = before ++ round :: after →
      PassesOver time served picked passed (earlier ++ before) round)
    (distinct : ∀ round ∈ rounds, (picked round).Nodup) :
    (rounds.flatMap picked).Nodup ∧ ∀ item ∈ rounds.flatMap picked,
      lastServed time served earlier item ≤ lastServed time served earlier passed := by
  induction rounds generalizing earlier with
  | nil => simp
  | cons round rest ih =>
    have here := passes [] round rest rfl
    rw [List.append_nil] at here
    have below : ∀ other ∈ earlier, time other < time round := fun other member =>
      (List.pairwise_append.mp ascending).2.2 other member round (by simp)
    have waits : lastServed time served (earlier ++ [round]) passed =
        lastServed time served earlier passed := by
      rw [lastServed_concat, if_neg here.unserved]
    -- whoever is served here is newer than `passed` from now on
    have newer : ∀ item ∈ served round, ¬ lastServed time served (earlier ++ [round]) item ≤
        lastServed time served (earlier ++ [round]) passed := by
      intro item member
      rw [waits, lastServed_concat, if_pos member]
      exact not_le_of_gt (lastServed_lt below passed)
    obtain ⟨apart, older⟩ := @ih (earlier ++ [round]) (by simpa using ascending)
      (fun before other after split => by
        have next := passes (round :: before) other after (by rw [split, List.cons_append])
        rwa [← List.append_cons])
      (fun other member => distinct other (List.mem_cons_of_mem _ member))
    rw [List.flatMap_cons]
    refine ⟨List.nodup_append.mpr ⟨distinct round (by simp), apart, ?_⟩, fun item member => ?_⟩
    · rintro item picks _ again rfl
      exact newer item (here.serves picks) (older item again)
    · rcases List.mem_append.mp member with picks | later
      · exact here.waited item picks
      · have before := older item later
        by_cases serves : item ∈ served round
        · exact absurd before (newer item serves)
        · rwa [waits, lastServed_concat, if_neg serves] at before

/-- With at least `quota` items picked in each, there are few such rounds. -/
theorem passed_over_bounded {earlier rounds : List ρ} {items : Finset α} {quota : Nat}
    (ascending : (earlier ++ rounds).Pairwise fun first second => time first < time second)
    (passes : ∀ before round after, rounds = before ++ round :: after →
      PassesOver time served picked passed (earlier ++ before) round)
    (distinct : ∀ round ∈ rounds, (picked round).Nodup)
    (full : ∀ round ∈ rounds, quota ≤ (picked round).length)
    (among : ∀ round ∈ rounds, ∀ item ∈ picked round, item ∈ items) (member : passed ∈ items) :
    rounds.length * quota < items.card := by
  obtain ⟨apart, -⟩ := picked_once ascending passes distinct
  have others : (rounds.flatMap picked).toFinset ⊆ items.erase passed := by
    intro item picks
    obtain ⟨round, inside, picks⟩ := List.mem_flatMap.mp (List.mem_toFinset.mp picks)
    obtain ⟨before, after, split⟩ := List.append_of_mem inside
    have passing := passes before round after split
    refine Finset.mem_erase.mpr ⟨?_, among round inside item picks⟩
    rintro rfl
    exact passing.unserved (passing.serves picks)
  have enough : rounds.length * quota ≤ (rounds.flatMap picked).length := by
    rw [List.length_flatMap]
    calc rounds.length * quota = ((rounds.map fun _ => quota).sum) := by simp
      _ ≤ (rounds.map fun round => (picked round).length).sum := List.sum_le_sum full
  calc rounds.length * quota ≤ (rounds.flatMap picked).toFinset.card := by
        rwa [List.toFinset_card_of_nodup apart]
    _ ≤ (items.erase passed).card := Finset.card_le_card others
    _ < items.card := Finset.card_erase_lt_of_mem member

end PassedOver

end GeoWorld.Library
