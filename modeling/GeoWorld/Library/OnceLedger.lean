import Mathlib

/-!
A ledger of requests that are answered once and whose keys are delivered once.
A request either is answered at once or registers a key and waits; a waiting
request is later closed, by delivering its key, by giving up on it with the key
kept, or by dropping it, which frees the key. Requests are numbered as they open.
-/

namespace GeoWorld.Library

structure OnceLedger (κ : Type*) where
  opened : ℕ := 0
  registered : Set κ := ∅
  waiting : Set (κ × ℕ) := ∅
  delivered : List κ := []
  answered : List ℕ := []

namespace OnceLedger

variable {κ : Type*}

inductive Step : OnceLedger κ → OnceLedger κ → Prop where
  | stay (ledger : OnceLedger κ) : Step ledger ledger
  | reply (ledger : OnceLedger κ) : Step ledger { ledger with
      opened := ledger.opened + 1
      answered := ledger.answered ++ [ledger.opened] }
  | register (ledger : OnceLedger κ) (key : κ) (free : key ∉ ledger.registered) :
      Step ledger { ledger with
        opened := ledger.opened + 1
        registered := insert key ledger.registered
        waiting := insert (key, ledger.opened) ledger.waiting }
  | deliver (ledger : OnceLedger κ) (key : κ) (request : ℕ)
      (waits : (key, request) ∈ ledger.waiting) : Step ledger { ledger with
        waiting := ledger.waiting \ {(key, request)}
        delivered := ledger.delivered ++ [key]
        answered := ledger.answered ++ [request] }
  | giveUp (ledger : OnceLedger κ) (key : κ) (request : ℕ)
      (waits : (key, request) ∈ ledger.waiting) : Step ledger { ledger with
        waiting := ledger.waiting \ {(key, request)}
        answered := ledger.answered ++ [request] }
  | drop (ledger : OnceLedger κ) (key : κ) (request : ℕ)
      (waits : (key, request) ∈ ledger.waiting) : Step ledger { ledger with
        registered := ledger.registered \ {key}
        waiting := ledger.waiting \ {(key, request)}
        answered := ledger.answered ++ [request] }

structure Sound (ledger : OnceLedger κ) : Prop where
  answered_once : ledger.answered.Nodup
  answered_opened : ∀ request ∈ ledger.answered, request < ledger.opened
  settled : ∀ request < ledger.opened,
    request ∈ ledger.answered ∨ ∃ key, (key, request) ∈ ledger.waiting
  delivered_once : ledger.delivered.Nodup
  delivered_registered : ∀ key ∈ ledger.delivered, key ∈ ledger.registered
  waiting_registered : ∀ key request, (key, request) ∈ ledger.waiting → key ∈ ledger.registered
  waiting_opened : ∀ key request, (key, request) ∈ ledger.waiting → request < ledger.opened
  waiting_unanswered : ∀ key request, (key, request) ∈ ledger.waiting →
    request ∉ ledger.answered
  waiting_undelivered : ∀ key request, (key, request) ∈ ledger.waiting →
    key ∉ ledger.delivered
  one_request : ∀ key first second, (key, first) ∈ ledger.waiting →
    (key, second) ∈ ledger.waiting → first = second
  one_key : ∀ first second request, (first, request) ∈ ledger.waiting →
    (second, request) ∈ ledger.waiting → first = second

theorem sound_start (registered : Set κ) : Sound { registered := registered } where
  answered_once := List.nodup_nil
  answered_opened := by simp
  settled := by simp
  delivered_once := List.nodup_nil
  delivered_registered := by simp
  waiting_registered := by simp
  waiting_opened := by simp
  waiting_unanswered := by simp
  waiting_undelivered := by simp
  one_request := by simp
  one_key := by simp

section Steps

variable {ledger : OnceLedger κ}

theorem nodup_snoc {α : Type*} {items : List α} {item : α} (once : items.Nodup)
    (new : item ∉ items) : (items ++ [item]).Nodup := by
  rw [← List.concat_eq_append]
  exact once.concat new

theorem Sound.reply (sound : ledger.Sound) :
    Sound { ledger with
      opened := ledger.opened + 1
      answered := ledger.answered ++ [ledger.opened] } := by
  have fresh : ledger.opened ∉ ledger.answered := fun member =>
    absurd (sound.answered_opened _ member) (lt_irrefl _)
  refine ⟨nodup_snoc sound.answered_once fresh, ?_, ?_, sound.delivered_once,
    sound.delivered_registered, sound.waiting_registered, ?_, ?_, sound.waiting_undelivered,
    sound.one_request, sound.one_key⟩
  · intro request member
    rcases List.mem_append.mp member with old | new
    · exact Nat.lt_succ_of_lt (sound.answered_opened _ old)
    · rw [List.mem_singleton.mp new]
      exact Nat.lt_succ_self _
  · intro request below
    rcases Nat.lt_succ_iff_lt_or_eq.mp below with old | new
    · exact (sound.settled request old).imp_left fun member =>
        List.mem_append_left _ member
    · exact .inl (by simp [new])
  · intro key request waits
    exact Nat.lt_succ_of_lt (sound.waiting_opened _ _ waits)
  · intro key request waits member
    rcases List.mem_append.mp member with old | new
    · exact sound.waiting_unanswered _ _ waits old
    · have opened := sound.waiting_opened _ _ waits
      rw [List.mem_singleton.mp new] at opened
      exact lt_irrefl _ opened

theorem Sound.register (sound : ledger.Sound) {key : κ} (free : key ∉ ledger.registered) :
    Sound { ledger with
      opened := ledger.opened + 1
      registered := insert key ledger.registered
      waiting := insert (key, ledger.opened) ledger.waiting } := by
  have not_waiting (request : ℕ) : (key, request) ∉ ledger.waiting := fun waits =>
    free (sound.waiting_registered _ _ waits)
  have later (other : κ) : (other, ledger.opened) ∉ ledger.waiting := fun waits =>
    lt_irrefl _ (sound.waiting_opened _ _ waits)
  refine ⟨sound.answered_once, fun request member =>
    Nat.lt_succ_of_lt (sound.answered_opened _ member), ?_, sound.delivered_once,
    fun other member => Set.mem_insert_of_mem _ (sound.delivered_registered _ member),
    ?_, ?_, ?_, ?_, ?_, ?_⟩
  · intro request below
    rcases Nat.lt_succ_iff_lt_or_eq.mp below with old | new
    · exact (sound.settled request old).imp_right fun ⟨other, waits⟩ =>
        ⟨other, Set.mem_insert_of_mem _ waits⟩
    · exact .inr ⟨key, by simp [new]⟩
  all_goals simp only [Set.mem_insert_iff, Prod.mk.injEq]
  · rintro other request (⟨rfl, _⟩ | waits)
    · exact .inl rfl
    · exact .inr (sound.waiting_registered _ _ waits)
  · rintro other request (⟨_, rfl⟩ | waits)
    · exact Nat.lt_succ_self _
    · exact Nat.lt_succ_of_lt (sound.waiting_opened _ _ waits)
  · rintro other request (⟨_, rfl⟩ | waits)
    · exact fun member => lt_irrefl _ (sound.answered_opened _ member)
    · exact sound.waiting_unanswered _ _ waits
  · rintro other request (⟨rfl, _⟩ | waits)
    · exact fun member => free (sound.delivered_registered _ member)
    · exact sound.waiting_undelivered _ _ waits
  · rintro other first second (⟨rfl, rfl⟩ | before) (⟨same, rfl⟩ | after)
    · rfl
    · exact absurd after (not_waiting _)
    · exact absurd before (same ▸ not_waiting _)
    · exact sound.one_request _ _ _ before after
  · rintro first second request (⟨rfl, rfl⟩ | before) (⟨rfl, same⟩ | after)
    · rfl
    · exact absurd after (later _)
    · exact absurd before (same ▸ later _)
    · exact sound.one_key _ _ _ before after

/-- Closing a waiting request, whatever becomes of its key. -/
theorem Sound.close (sound : ledger.Sound) {key : κ} {request : ℕ}
    (waits : (key, request) ∈ ledger.waiting) {registered : Set κ} {delivered : List κ}
    (once : delivered.Nodup) (within : ∀ other ∈ delivered, other ∈ registered)
    (new : ∀ other ∈ delivered, other = key ∨ other ∈ ledger.delivered)
    (kept : ∀ other ≠ key, other ∈ ledger.registered → other ∈ registered) :
    Sound { ledger with
      registered := registered
      waiting := ledger.waiting \ {(key, request)}
      delivered := delivered
      answered := ledger.answered ++ [request] } := by
  have remaining {other : κ} {later : ℕ}
      (member : (other, later) ∈ ledger.waiting \ {(key, request)}) :
      (other, later) ∈ ledger.waiting ∧ other ≠ key ∧ later ≠ request := by
    have different : ¬ (other = key ∧ later = request) := by simpa using member.2
    refine ⟨member.1, fun same => ?_, fun same => ?_⟩
    · exact different ⟨same, sound.one_request key _ _ (same ▸ member.1) waits⟩
    · exact different ⟨sound.one_key _ _ request (same ▸ member.1) waits, same⟩
  refine ⟨nodup_snoc sound.answered_once (sound.waiting_unanswered _ _ waits), ?_, ?_, once,
    within, ?_, ?_, ?_, ?_, ?_, ?_⟩
  · intro later member
    rcases List.mem_append.mp member with old | same
    · exact sound.answered_opened _ old
    · rw [List.mem_singleton.mp same]
      exact sound.waiting_opened _ _ waits
  · intro later below
    rcases sound.settled later below with old | ⟨other, still⟩
    · exact .inl (List.mem_append_left _ old)
    · by_cases same : later = request
      · exact .inl (by simp [same])
      · exact .inr ⟨other, still, by simp [same]⟩
  · intro other later member
    obtain ⟨still, different, _⟩ := remaining member
    exact kept other different (sound.waiting_registered _ _ still)
  · intro other later member
    exact sound.waiting_opened _ _ member.1
  · intro other later member answered
    obtain ⟨still, _, different⟩ := remaining member
    rcases List.mem_append.mp answered with old | same
    · exact sound.waiting_unanswered _ _ still old
    · exact different (List.mem_singleton.mp same)
  · intro other later member gone
    obtain ⟨still, different, _⟩ := remaining member
    rcases new other gone with same | old
    · exact different same
    · exact sound.waiting_undelivered _ _ still old
  · intro other first second before after
    exact sound.one_request _ _ _ before.1 after.1
  · intro first second later before after
    exact sound.one_key _ _ _ before.1 after.1

end Steps

theorem Sound.step {before after : OnceLedger κ} (sound : before.Sound)
    (step : Step before after) : after.Sound := by
  cases step with
  | stay => exact sound
  | reply => exact sound.reply
  | register key free => exact sound.register free
  | deliver key request waits =>
    refine sound.close waits
      (nodup_snoc sound.delivered_once (sound.waiting_undelivered _ _ waits)) ?_ ?_
      fun _ _ member => member
    · intro other member
      rcases List.mem_append.mp member with old | same
      · exact sound.delivered_registered _ old
      · rw [List.mem_singleton.mp same]
        exact sound.waiting_registered _ _ waits
    · intro other member
      rcases List.mem_append.mp member with old | same
      · exact .inr old
      · exact .inl (List.mem_singleton.mp same)
  | giveUp key request waits =>
    exact sound.close waits sound.delivered_once sound.delivered_registered
      (fun _ member => .inr member) fun _ _ member => member
  | drop key request waits =>
    refine sound.close waits sound.delivered_once ?_ (fun _ member => .inr member)
      fun _ different member => ⟨member, different⟩
    intro other member
    exact ⟨sound.delivered_registered _ member, fun same =>
      sound.waiting_undelivered _ _ waits (same ▸ member)⟩

end OnceLedger

end GeoWorld.Library
