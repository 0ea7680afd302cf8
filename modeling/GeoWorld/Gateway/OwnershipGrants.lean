import Mathlib
import GeoWorld.Gateway.WriteLease

/-!
What one call of `acquire_ownership` does to the grants. The keys in front of the first
refused one are granted, whatever the call answers; a key that was granted does not make a
later one refused.
-/

namespace GeoWorld.Gateway

open WorldModel Library

section Keys

variable (gateway : GatewayAdmission) (id : SessionId) (principal : Principal) (target : WorldId)
  (leaseUntilTick currentTick : UInt64)

/-- The two tests of the loop. -/
def refuses (key : ByteString) : Bool :=
  !gateway.authorization.canWriteProperty principal target key ||
    !(gateway.ownership.acquire id target key leaseUntilTick currentTick).1

/-- The keys in front of the first refused one. -/
def grantedKeys (keys : List ByteString) : List ByteString :=
  keys.takeWhile fun key => !refuses gateway id principal target leaseUntilTick currentTick key

def grantAll (registry : OwnershipRegistry) (keys : List ByteString) : OwnershipRegistry :=
  ⟨keys.foldl (fun grants key => grants.insert ⟨target, key⟩ ⟨id, leaseUntilTick⟩)
    registry.grants⟩

end Keys

/-- All keys are granted or no grant has changed. -/
structure AcquireAtomic (before : GatewayAdmission) (id : SessionId) (target : WorldId)
    (keys : List ByteString) (leaseUntilTick currentTick : UInt64)
    (outcome : GatewayError × GatewayAdmission) : Prop where
  unchanged : outcome.1 ≠ .none → outcome.2.ownership.grants = before.ownership.grants
  held : outcome.1 = .none → ∀ key ∈ keys, ∀ tick < leaseUntilTick,
    outcome.2.ownership.holds id target key tick = true
  others : outcome.1 = .none → ∀ (key : OwnershipKey) (grant : Grant),
    before.ownership.grants[key]? = some grant → grant.owner ≠ id →
      currentTick < grant.leaseUntilTick → outcome.2.ownership.grants[key]? = some grant

/-- The keys in front of a refused one are the session's already, until the same tick. -/
def GrantedAlready (gateway : GatewayAdmission) (id : SessionId) (target : WorldId)
    (keys : List ByteString) (leaseUntilTick currentTick : UInt64) : Prop :=
  ∀ info, gateway.sessions.find id = some info → target.valid = true →
    currentTick < leaseUntilTick →
    (∃ key ∈ keys, refuses gateway id info.principal target leaseUntilTick currentTick key) →
    ∀ key ∈ grantedKeys gateway id info.principal target leaseUntilTick currentTick keys,
      gateway.ownership.grants[OwnershipKey.mk target key]? = some ⟨id, leaseUntilTick⟩

section Acquire

variable {gateway : GatewayAdmission} {id : SessionId} {principal : Principal} {target : WorldId}
  {leaseUntilTick currentTick : UInt64} {keys : List ByteString}

theorem lookup_grantAll (registry : OwnershipRegistry) (other : OwnershipKey) :
    (grantAll id target leaseUntilTick registry keys).grants[other]? =
      if other.target = target ∧ other.key ∈ keys then some ⟨id, leaseUntilTick⟩
      else registry.grants[other]? := by
  unfold grantAll
  induction keys generalizing registry with
  | nil => simp
  | cons key keys ih =>
    rw [List.foldl_cons]
    refine (ih ⟨registry.grants.insert ⟨target, key⟩ ⟨id, leaseUntilTick⟩⟩).trans ?_
    obtain ⟨otherTarget, otherKey⟩ := other
    simp only [lookup_insert, OwnershipKey.mk.injEq, List.mem_cons]
    by_cases named : otherTarget = target
    · by_cases later : otherKey ∈ keys
      · simp [named, later]
      · simp [named, later]
    · simp [named]

theorem acquire_fst : (gateway.ownership.acquire id target key leaseUntilTick currentTick).1 =
    true ↔ ∀ grant, gateway.ownership.grants[OwnershipKey.mk target key]? = some grant →
      grant.owner ≠ id → grant.leaseUntilTick ≤ currentTick := by
  unfold OwnershipRegistry.acquire
  cases found : gateway.ownership.grants[OwnershipKey.mk target key]? with
  | none => simp
  | some grant =>
    simp only
    split
    · rename_i conflict
      simp [conflict.1, UInt64.not_le.mpr conflict.2]
    · rename_i free
      refine iff_of_true rfl fun other same apart => ?_
      obtain rfl := Option.some.inj same
      exact UInt64.not_lt.mp fun lasts => free ⟨apart, lasts⟩

theorem acquire_granted {registry : OwnershipRegistry} {key : ByteString}
    (granted : (registry.acquire id target key leaseUntilTick currentTick).1 = true) :
    registry.acquire id target key leaseUntilTick currentTick =
      (true, grantAll id target leaseUntilTick registry [key]) := by
  unfold OwnershipRegistry.acquire at granted ⊢
  cases found : registry.grants[OwnershipKey.mk target key]? with
  | none => rfl
  | some grant =>
    simp only [found] at granted ⊢
    split
    · rename_i conflict
      rw [if_pos conflict] at granted
      cases granted
    · rfl

/-- A key that is granted does not change which keys are refused. -/
theorem refuses_granted {key : ByteString}
    (free : refuses gateway id principal target leaseUntilTick currentTick key = false)
    (other : ByteString) :
    refuses { gateway with ownership := grantAll id target leaseUntilTick gateway.ownership [key] }
        id principal target leaseUntilTick currentTick other =
      refuses gateway id principal target leaseUntilTick currentTick other := by
  obtain ⟨-, granted⟩ := Bool.or_eq_false_iff.mp free
  rw [Bool.not_eq_false'] at granted
  unfold refuses
  congr 2
  rw [Bool.eq_iff_iff, acquire_fst, acquire_fst, lookup_grantAll]
  by_cases same : other = key
  · subst same
    simp only [List.mem_singleton, and_self, if_true]
    refine iff_of_true (fun grant own apart => ?_) (acquire_fst.mp granted)
    exact absurd (congrArg Grant.owner (Option.some.inj own)).symm apart
  · simp [same]

/-- The loop grants the keys in front of the first refused one and stops there. -/
theorem acquireKeys_eq (gateway : GatewayAdmission) (keys : List ByteString) :
    gateway.acquireKeys id principal target leaseUntilTick currentTick keys =
      (if keys.any (refuses gateway id principal target leaseUntilTick currentTick)
        then .permissionDenied else .none,
      { gateway with
        ownership := grantAll id target leaseUntilTick gateway.ownership
          (grantedKeys gateway id principal target leaseUntilTick currentTick keys) }) := by
  induction keys generalizing gateway with
  | nil => rfl
  | cons key keys ih =>
    cases refused : refuses gateway id principal target leaseUntilTick currentTick key with
    | true =>
      have none : grantedKeys gateway id principal target leaseUntilTick currentTick
          (key :: keys) = [] := by
        simp [grantedKeys, refused]
      rw [none, List.any_cons, refused]
      unfold GatewayAdmission.acquireKeys
      unfold refuses at refused
      split
      · rfl
      · rename_i allowed
        rw [Bool.not_eq_true] at allowed
        rw [allowed, Bool.false_or, Bool.not_eq_true'] at refused
        cases acquired : gateway.ownership.acquire id target key leaseUntilTick currentTick with
        | mk answer ownership =>
          rw [acquired] at refused
          obtain rfl : answer = false := refused
          rfl
    | false =>
      have more : grantedKeys gateway id principal target leaseUntilTick currentTick
          (key :: keys) = key :: grantedKeys gateway id principal target leaseUntilTick
            currentTick keys := by
        simp [grantedKeys, refused]
      obtain ⟨allowed, granted⟩ := Bool.or_eq_false_iff.mp refused
      rw [Bool.not_eq_false'] at granted
      have same := refuses_granted refused
      unfold GatewayAdmission.acquireKeys
      rw [if_neg (by simp [allowed]), acquire_granted granted]
      simp only
      rw [ih, more, List.any_cons, refused, Bool.false_or]
      simp only [grantedKeys, funext same]
      rfl

theorem refuses_grant {key : ByteString}
    (free : refuses gateway id principal target leaseUntilTick currentTick key = false)
    {grant : Grant} (found : gateway.ownership.grants[OwnershipKey.mk target key]? = some grant)
    (apart : grant.owner ≠ id) : grant.leaseUntilTick ≤ currentTick := by
  obtain ⟨-, granted⟩ := Bool.or_eq_false_iff.mp free
  rw [Bool.not_eq_false'] at granted
  exact acquire_fst.mp granted grant found apart

theorem grantedKeys_of_free (free : ∀ key ∈ keys,
    refuses gateway id principal target leaseUntilTick currentTick key = false) :
    grantedKeys gateway id principal target leaseUntilTick currentTick keys = keys :=
  List.takeWhile_eq_self_iff.mpr fun key member => by rw [free key member, Bool.not_false]

/-- A call that is refused is atomic when it leaves the grants alone. -/
theorem AcquireAtomic.refused {outcome : GatewayError × GatewayAdmission}
    (refused : outcome.1 ≠ .none)
    (unchanged : outcome.2.ownership.grants = gateway.ownership.grants) :
    AcquireAtomic gateway id target keys leaseUntilTick currentTick outcome :=
  ⟨fun _ => unchanged, fun ok => absurd ok refused, fun ok => absurd ok refused⟩

/-- The call is atomic exactly when the keys it grants before a refusal are the session's
already, until the same tick. -/
theorem acquire_ownership_atomic_iff (gateway : GatewayAdmission) (id : SessionId)
    (target : WorldId) (keys : List ByteString) (leaseUntilTick currentTick : UInt64) :
    AcquireAtomic gateway id target keys leaseUntilTick currentTick
        (gateway.acquireOwnership id target keys leaseUntilTick currentTick) ↔
      GrantedAlready gateway id target keys leaseUntilTick currentTick := by
  unfold GatewayAdmission.acquireOwnership GrantedAlready
  cases known : gateway.sessions.find id with
  | none =>
    exact iff_of_true (.refused (by simp) rfl) fun info found => by cases found
  | some info =>
    simp only [Option.some.injEq, forall_eq']
    split
    · rename_i turned
      refine iff_of_true (.refused (by simp) rfl) ?_
      intro valid later refused
      obtain ⟨key, member, -⟩ := refused
      rw [Bool.or_eq_true, Bool.or_eq_true, decide_eq_true_iff, valid, List.isEmpty_iff] at turned
      obtain (no | empty) | early := turned
      · cases no
      · rw [empty] at member
        cases member
      · exact absurd early (UInt64.not_le.mpr later)
    · rename_i asked
      rw [Bool.or_eq_true, Bool.or_eq_true, not_or, not_or, Bool.not_eq_true',
        Bool.not_eq_false, decide_eq_true_iff, UInt64.not_le] at asked
      obtain ⟨⟨valid, -⟩, later⟩ := asked
      rw [acquireKeys_eq]
      cases refusal : keys.any (refuses gateway id info.principal target leaseUntilTick
          currentTick) with
      | false =>
        have free : ∀ key ∈ keys, refuses gateway id info.principal target leaseUntilTick
            currentTick key = false := fun key member => by
          simpa using List.any_eq_false.mp refusal key member
        refine iff_of_true ⟨fun no => absurd rfl no, fun _ key member tick below => ?_,
          fun _ key grant found apart lasts => ?_⟩ ?_
        · rw [grantedKeys_of_free free]
          exact holds_iff.mpr
            ⟨_, (lookup_grantAll _ _).trans (if_pos ⟨rfl, member⟩), rfl, below⟩
        · rw [grantedKeys_of_free free, lookup_grantAll, if_neg, found]
          rintro ⟨rfl, member⟩
          exact absurd (refuses_grant (free key.key member) found apart) (UInt64.not_le.mpr lasts)
        · rintro - - ⟨key, member, refused⟩
          rw [free key member] at refused
          cases refused
      | true =>
        refine ⟨fun atomic _ _ _ key member => ?_, fun already => .refused (by simp) ?_⟩
        · have same := atomic.unchanged (by simp)
          rw [← same]
          exact (lookup_grantAll _ _).trans (if_pos ⟨rfl, member⟩)
        · have granted := already valid later (List.any_eq_true.mp refusal)
          refine Std.ExtTreeMap.ext_getElem? fun other => ?_
          refine (lookup_grantAll _ _).trans ?_
          split
          · rename_i own
            obtain ⟨rfl, member⟩ := own
            exact (granted other.key member).symm
          · rfl

end Acquire

section Runs

/-- Two sessions may write everything; the second holds the key 2 of object 5 until tick 10. -/
def contestedGateway : GatewayAdmission where
  authorization := ⟨fun _ _ _ => true, fun _ => true⟩
  sessions :=
    { sessions := (∅ : Std.ExtTreeMap SessionId SessionInfo compare).insert 1 ⟨1, ⟨[1], false⟩⟩ }
  ownership :=
    ⟨(∅ : Std.ExtTreeMap OwnershipKey Grant OwnershipKey.cmp).insert ⟨5, [2]⟩ ⟨2, 10⟩⟩

theorem earlier_key_granted : ¬ ∀ (gateway : GatewayAdmission) (id : SessionId)
    (target : WorldId) (keys : List ByteString) (leaseUntilTick currentTick : UInt64),
    AcquireAtomic gateway id target keys leaseUntilTick currentTick
      (gateway.acquireOwnership id target keys leaseUntilTick currentTick) := by
  intro always
  have atomic := (always contestedGateway 1 5 [[1], [2]] 20 1).unchanged (by decide +kernel)
  have granted : (contestedGateway.acquireOwnership 1 5 [[1], [2]] 20 1).2.ownership.grants[
      OwnershipKey.mk 5 [1]]? = some ⟨1, 20⟩ := by
    decide +kernel
  rw [atomic] at granted
  have absent : contestedGateway.ownership.grants[OwnershipKey.mk 5 [1]]? = none := by
    decide +kernel
  cases absent.symm.trans granted

end Runs

end GeoWorld.Gateway
