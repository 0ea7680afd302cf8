import Mathlib
import GeoWorld.Gateway.Admission
import GeoWorld.Library.Runs
import GeoWorld.Library.TokenBucket

/-!
The command rate of a session. `SessionManager` keeps a token bucket beside the information
of a session; time and tokens are exact here. The clock is outside, its readings come with
the calls.
-/

namespace GeoWorld.Gateway

open WorldModel Library

/-- `SessionManager` with the buckets of its sessions. -/
structure BudgetManager where
  commandRatePerSession : UInt32 := 100
  sessions : SessionManager := {}
  buckets : Std.ExtTreeMap SessionId (TokenBucket ℚ) compare := ∅
  now : ℚ := 0

inductive BudgetCall where
  | openSession (principal : Principal)
  | closeSession (id : SessionId)
  | consumeCommandBudget (id : SessionId)
  deriving DecidableEq

inductive BudgetAnswer where
  | opened (id : SessionId)
  | closed
  | budget (granted : Bool)
  deriving DecidableEq

/-- A call, the reading of the clock in it and what it was answered. -/
structure BudgetEntry where
  now : ℚ
  call : BudgetCall
  answer : BudgetAnswer

namespace BudgetManager

def rate (manager : BudgetManager) : ℚ := manager.commandRatePerSession.toNat

/-- A session starts with a full bucket. -/
def openSession (manager : BudgetManager) (principal : Principal) (now : ℚ) :
    SessionId × BudgetManager :=
  if manager.sessions.maxSessions ≤ manager.sessions.sessions.size then
    (0, { manager with now := now })
  else
    let (id, sessions) := manager.sessions.open principal
    (id, { manager with
      sessions := sessions
      buckets := manager.buckets.insertIfNew id ⟨manager.rate, now⟩
      now := now })

def closeSession (manager : BudgetManager) (id : SessionId) (now : ℚ) : BudgetManager :=
  { manager with
    sessions := manager.sessions.close id
    buckets := manager.buckets.erase id
    now := now }

def consumeCommandBudget (manager : BudgetManager) (id : SessionId) (now : ℚ) :
    Bool × BudgetManager :=
  match manager.buckets[id]? with
  | none => (false, { manager with now := now })
  | some bucket =>
    ((bucket.consume manager.rate now).1, { manager with
      buckets := manager.buckets.insert id (bucket.consume manager.rate now).2
      now := now })

def perform (manager : BudgetManager) (now : ℚ) : BudgetCall → BudgetAnswer × BudgetManager
  | .openSession principal =>
    (.opened (manager.openSession principal now).1, (manager.openSession principal now).2)
  | .closeSession id => (.closed, manager.closeSession id now)
  | .consumeCommandBudget id =>
    (.budget (manager.consumeCommandBudget id now).1, (manager.consumeCommandBudget id now).2)

/-- One call, at a time that is not before the last. -/
def Steps (before : BudgetManager) (entry : BudgetEntry) (after : BudgetManager) : Prop :=
  before.now ≤ entry.now ∧ before.perform entry.now entry.call = (entry.answer, after)

/-- The calls for the budget of a session, with their answers. -/
def budgetLog (id : SessionId) (entries : List BudgetEntry) : List (ℚ × Bool) :=
  entries.filterMap fun entry =>
    match entry.call, entry.answer with
    | .consumeCommandBudget session, .budget granted =>
      if session = id then some (entry.now, granted) else none
    | _, _ => none

def budgetTimes (id : SessionId) (entries : List BudgetEntry) : List ℚ :=
  (budgetLog id entries).map Prod.fst

/-- The manager of a configuration, at the first reading of the clock. -/
def start (rate : UInt32) (maxSessions : Nat) (now : ℚ) : BudgetManager where
  commandRatePerSession := rate
  sessions := { maxSessions := maxSessions }
  now := now

section Invariant

variable {before after manager : BudgetManager} {entry : BudgetEntry} {id : SessionId}
variable {entries : List BudgetEntry}

/-- Every open session has a bucket, and no bucket was filled after the last reading. -/
structure BudgetInv (manager : BudgetManager) : Prop where
  kept : ∀ id : SessionId, id ∈ manager.buckets ↔ id ∈ manager.sessions.sessions
  sound : ∀ (id : SessionId) (bucket : TokenBucket ℚ), manager.buckets[id]? = some bucket →
    bucket.Sound manager.rate ∧ bucket.lastRefill ≤ manager.now

theorem rate_nonneg (manager : BudgetManager) : 0 ≤ manager.rate :=
  Nat.cast_nonneg _

theorem inv_start (rate : UInt32) (maxSessions : Nat) (now : ℚ) :
    BudgetInv (start rate maxSessions now) where
  kept := by simp [start]
  sound := by simp [start]

theorem Steps.rate (step : Steps before entry after) : after.rate = before.rate := by
  obtain ⟨-, performed⟩ := step
  obtain ⟨now, call, answer⟩ := entry
  obtain ⟨-, rfl⟩ := Prod.ext_iff.mp performed
  cases call with
  | openSession principal =>
    simp only [perform, openSession]
    split <;> rfl
  | closeSession id => rfl
  | consumeCommandBudget id =>
    simp only [perform, consumeCommandBudget]
    split <;> rfl

theorem Steps.now (step : Steps before entry after) : after.now = entry.now := by
  obtain ⟨-, performed⟩ := step
  obtain ⟨now, call, answer⟩ := entry
  obtain ⟨-, rfl⟩ := Prod.ext_iff.mp performed
  cases call with
  | openSession principal =>
    simp only [perform, openSession]
    split <;> rfl
  | closeSession id => rfl
  | consumeCommandBudget id =>
    simp only [perform, consumeCommandBudget]
    split <;> rfl

theorem BudgetInv.openSession (inv : BudgetInv manager) (principal : Principal) {now : ℚ}
    (later : manager.now ≤ now) : BudgetInv (manager.openSession principal now).2 := by
  unfold BudgetManager.openSession SessionManager.open
  split
  · exact ⟨inv.kept, fun id bucket held =>
      ⟨(inv.sound id bucket held).1, (inv.sound id bucket held).2.trans later⟩⟩
  · constructor
    · intro id
      simp only [Std.ExtTreeMap.mem_insertIfNew, inv.kept]
    · intro id bucket held
      simp only [Std.ExtTreeMap.getElem?_insertIfNew] at held
      split at held
      · obtain rfl := Option.some.inj held
        exact ⟨⟨manager.rate_nonneg, le_rfl⟩, le_rfl⟩
      · exact ⟨(inv.sound id bucket held).1, (inv.sound id bucket held).2.trans later⟩

theorem BudgetInv.closeSession (inv : BudgetInv manager) (id : SessionId) {now : ℚ}
    (later : manager.now ≤ now) : BudgetInv (manager.closeSession id now) where
  kept := by
    intro other
    simp only [BudgetManager.closeSession, SessionManager.close, Std.ExtTreeMap.mem_erase, inv.kept]
  sound := by
    intro other bucket held
    simp only [BudgetManager.closeSession, Std.ExtTreeMap.getElem?_erase] at held
    split at held
    · cases held
    · exact ⟨(inv.sound other bucket held).1, (inv.sound other bucket held).2.trans later⟩

theorem BudgetInv.consumeCommandBudget (inv : BudgetInv manager) (id : SessionId) {now : ℚ}
    (later : manager.now ≤ now) : BudgetInv (manager.consumeCommandBudget id now).2 := by
  unfold BudgetManager.consumeCommandBudget
  split
  · exact ⟨inv.kept, fun id bucket held =>
      ⟨(inv.sound id bucket held).1, (inv.sound id bucket held).2.trans later⟩⟩
  · rename_i bucket held
    obtain ⟨sound, filled⟩ := inv.sound id bucket held
    constructor
    · intro other
      have known : id ∈ manager.buckets := Std.ExtTreeMap.mem_iff_isSome_getElem?.mpr (by simp [held])
      simp only [Std.ExtTreeMap.mem_insert, Std.LawfulEqCmp.compare_eq_iff_eq, ← inv.kept]
      refine or_iff_right_of_imp ?_
      rintro rfl
      exact known
    · intro other left found
      simp only [Std.ExtTreeMap.getElem?_insert] at found
      split at found
      · obtain rfl := Option.some.inj found
        exact ⟨sound.consume (filled.trans later), (TokenBucket.consume_lastRefill _ _ _).le⟩
      · exact ⟨(inv.sound other left found).1, (inv.sound other left found).2.trans later⟩

theorem Steps.inv (step : Steps before entry after) (inv : BudgetInv before) : BudgetInv after := by
  obtain ⟨later, performed⟩ := step
  obtain ⟨now, call, answer⟩ := entry
  obtain ⟨-, rfl⟩ := Prod.ext_iff.mp performed
  cases call with
  | openSession principal => exact inv.openSession principal later
  | closeSession id => exact inv.closeSession id later
  | consumeCommandBudget id => exact inv.consumeCommandBudget id later

/-- What a call leaves of the bucket of a session that it does not close. -/
theorem Steps.held {bucket : TokenBucket ℚ} (step : Steps before entry after)
    (held : before.buckets[id]? = some bucket) (kept : entry.call ≠ .closeSession id) :
    entry.call = .consumeCommandBudget id ∧
        entry.answer = .budget (bucket.consume before.rate entry.now).1 ∧
        after.buckets[id]? = some (bucket.consume before.rate entry.now).2 ∨
      entry.call ≠ .consumeCommandBudget id ∧ after.buckets[id]? = some bucket := by
  obtain ⟨-, performed⟩ := step
  obtain ⟨now, call, answer⟩ := entry
  obtain ⟨answered, rfl⟩ := Prod.ext_iff.mp performed
  simp only at answered kept ⊢
  cases call with
  | openSession principal =>
    refine .inr ⟨nofun, ?_⟩
    simp only [perform, BudgetManager.openSession]
    split
    · exact held
    · simp only [Std.ExtTreeMap.getElem?_insertIfNew]
      rw [if_neg, held]
      rintro ⟨same, absent⟩
      rw [Std.LawfulEqCmp.compare_eq_iff_eq.mp same] at absent
      exact absent (Std.ExtTreeMap.mem_iff_isSome_getElem?.mpr (by simp [held]))
  | closeSession other =>
    refine .inr ⟨nofun, ?_⟩
    simp only [perform, BudgetManager.closeSession, Std.ExtTreeMap.getElem?_erase,
      Std.LawfulEqCmp.compare_eq_iff_eq]
    rw [if_neg, held]
    rintro rfl
    exact kept rfl
  | consumeCommandBudget other =>
    by_cases same : other = id
    · subst same
      refine .inl ⟨rfl, ?_, ?_⟩
      · rw [← answered]
        simp only [perform, BudgetManager.consumeCommandBudget, held]
      · simp only [perform, BudgetManager.consumeCommandBudget, held,
          Std.ExtTreeMap.getElem?_insert_self]
    · refine .inr ⟨fun calls => same (BudgetCall.consumeCommandBudget.inj calls), ?_⟩
      simp only [perform, BudgetManager.consumeCommandBudget]
      split
      · exact held
      · simp only [Std.ExtTreeMap.getElem?_insert, Std.LawfulEqCmp.compare_eq_iff_eq, if_neg same]
        exact held

/-- The bucket of a session that was not open before. -/
theorem Steps.opened {principal : Principal} {now : ℚ}
    (step : Steps before ⟨now, .openSession principal, .opened id⟩ after)
    (inv : BudgetInv before) (fresh : before.sessions.find id = none)
    (known : after.sessions.find id ≠ none) :
    after.buckets[id]? = some ⟨before.rate, now⟩ := by
  obtain ⟨-, performed⟩ := step
  obtain ⟨answered, rfl⟩ := Prod.ext_iff.mp performed
  have absent : id ∉ before.buckets := by
    rw [inv.kept, Std.ExtTreeMap.mem_iff_isSome_getElem?]
    simpa [SessionManager.find] using fresh
  simp only [perform, BudgetManager.openSession] at answered known ⊢
  split
  · rename_i full
    rw [if_pos full] at known
    exact absurd fresh known
  · rename_i room
    rw [if_neg room] at answered
    obtain rfl := BudgetAnswer.opened.inj answered
    rw [Std.ExtTreeMap.getElem?_insertIfNew]
    exact if_pos ⟨Std.LawfulEqCmp.compare_eq_iff_eq.mpr rfl, absent⟩

section Runs

variable {bucket : TokenBucket ℚ}

theorem budgetLog_consumed {granted : Bool} (called : entry.call = .consumeCommandBudget id)
    (answered : entry.answer = .budget granted) :
    budgetLog id (entry :: entries) = (entry.now, granted) :: budgetLog id entries := by
  simp [budgetLog, called, answered]

theorem budgetLog_other (other : entry.call ≠ .consumeCommandBudget id) :
    budgetLog id (entry :: entries) = budgetLog id entries := by
  obtain ⟨now, call, answer⟩ := entry
  cases call with
  | openSession principal => rfl
  | closeSession session => rfl
  | consumeCommandBudget session =>
    have differ : session ≠ id := fun same => other (congrArg _ same)
    cases answer with
    | budget granted => simp [budgetLog, differ]
    | opened session => rfl
    | closed => rfl

/-- The calls for the budget of a session are served by its bucket, in their order. -/
theorem run_bucket (run : AnyRun Steps before entries after)
    (filled : bucket.lastRefill ≤ before.now) (held : before.buckets[id]? = some bucket)
    (kept : ∀ entry ∈ entries, entry.call ≠ .closeSession id) :
    bucket.Forward (budgetTimes id entries) ∧
      budgetLog id entries = (bucket.serve before.rate (budgetTimes id entries)).1 ∧
      after.buckets[id]? = some (bucket.serve before.rate (budgetTimes id entries)).2 := by
  induction run generalizing bucket with
  | nil state => exact ⟨List.isChain_singleton _, rfl, held⟩
  | @cons state middle finish entry rest allowed step run ih =>
    have kept_rest := fun entry member => kept entry (List.mem_cons_of_mem _ member)
    have later : bucket.lastRefill ≤ entry.now := filled.trans step.1
    rcases step.held held (kept entry List.mem_cons_self) with
      ⟨called, answered, left⟩ | ⟨other, left⟩
    · obtain ⟨forward, log, behind⟩ :=
        ih (by rw [step.now, TokenBucket.consume_lastRefill]) left kept_rest
      rw [step.rate] at log behind
      have times : budgetTimes id (entry :: rest) = entry.now :: budgetTimes id rest := by
        rw [budgetTimes, budgetLog_consumed called answered]
        rfl
      rw [times, budgetLog_consumed called answered, log]
      refine ⟨?_, rfl, behind⟩
      rw [TokenBucket.Forward, TokenBucket.consume_lastRefill] at forward
      exact List.isChain_cons_cons.mpr ⟨later, forward⟩
    · obtain ⟨forward, log, behind⟩ := ih (later.trans step.now.ge) left kept_rest
      rw [step.rate] at log behind
      rw [budgetTimes, budgetLog_other other]
      exact ⟨forward, log, behind⟩

theorem run_rate (run : AnyRun Steps before entries after) : after.rate = before.rate := by
  induction run with
  | nil state => rfl
  | cons _ step _ ih => exact ih.trans step.rate

theorem run_inv (run : AnyRun Steps before entries after) (inv : BudgetInv before) :
    BudgetInv after :=
  run.invariant inv fun _ _ _ _ step inv => step.inv inv

/-- From its opening on a session is granted at most a full bucket and what the bucket gains in
the window, its tokens stay within the bucket, and calls that are far enough apart are all
granted. -/
theorem command_rate_bounded {rate : UInt32} (positive : 1 ≤ rate) {maxSessions : Nat}
    {begin now : ℚ} {earlier : List BudgetEntry} {principal : Principal}
    {opened finish : BudgetManager}
    (reached : AnyRun Steps (start rate maxSessions begin) earlier before)
    (opening : Steps before ⟨now, .openSession principal, .opened id⟩ opened)
    (fresh : before.sessions.find id = none) (known : opened.sessions.find id ≠ none)
    (run : AnyRun Steps opened entries finish)
    (kept : ∀ entry ∈ entries, entry.call ≠ .closeSession id) :
    (∀ first length : ℚ, 0 ≤ length →
      (TokenBucket.grantedWithin first (first + length) (budgetLog id entries) : ℚ) ≤
        rate.toNat + rate.toNat * length) ∧
    (∃ bucket, finish.buckets[id]? = some bucket ∧ 0 ≤ bucket.tokens ∧
      bucket.tokens ≤ rate.toNat) ∧
    ((budgetTimes id entries).IsChain (fun before after => before + 1 / (rate.toNat : ℚ) ≤ after) →
      ∀ entry ∈ budgetLog id entries, entry.2 = true) := by
  have inv := run_inv reached (inv_start rate maxSessions begin)
  have full := opening.opened inv fresh known
  have same : before.rate = rate.toNat := run_rate reached
  obtain ⟨forward, log, left⟩ := run_bucket run opening.now.ge full kept
  rw [opening.rate, same] at log left
  rw [same] at forward
  have one_le : (1 : ℚ) ≤ rate.toNat := by
    exact_mod_cast UInt32.le_iff_toNat_le.mp positive
  have sound : TokenBucket.Sound (rate.toNat : ℚ) ⟨rate.toNat, now⟩ :=
    ⟨zero_le_one.trans one_le, le_rfl⟩
  refine ⟨fun first length nonneg => ?_, ?_, fun apart entry member => ?_⟩
  · rw [log]
    exact TokenBucket.grantedWithin_le sound forward nonneg
  · have served := sound.serve forward
    exact ⟨_, left, served.nonneg, served.le_rate⟩
  · rw [log] at member
    refine TokenBucket.serve_granted sound one_le ?_ forward apart entry member
    intro first first_in
    have later : now ≤ first := by
      obtain ⟨rest, times⟩ := List.head?_eq_some_iff.mp first_in
      rw [TokenBucket.Forward, times] at forward
      exact (List.isChain_cons_cons.mp forward).1
    have gain := mul_nonneg (sub_nonneg.mpr later) (zero_le_one.trans one_le)
    exact le_min one_le (one_le.trans (le_add_of_nonneg_right gain))

/-- One opened session at the rate 1, its second call half a second after the first. -/
def hastyEntries : List BudgetEntry :=
  [⟨1, .consumeCommandBudget 1, .budget true⟩, ⟨3 / 2, .consumeCommandBudget 1, .budget false⟩]

theorem steps_perform {now : ℚ} {call : BudgetCall} {answer : BudgetAnswer}
    (later : manager.now ≤ now) (answered : (manager.perform now call).1 = answer) :
    Steps manager ⟨now, call, answer⟩ (manager.perform now call).2 :=
  ⟨later, Prod.ext answered rfl⟩

/-- The state behind the opening. -/
def singleSession : BudgetManager :=
  ((start 1 8 0).openSession ⟨[1], false⟩ 0).2

theorem command_rate_bounded_hasty :
    ∃ finish : BudgetManager, ∃ bucket, finish.buckets[(1 : SessionId)]? = some bucket ∧
      bucket.tokens ≤ 1 ∧
      (TokenBucket.grantedWithin (1 : ℚ) (1 + 1 / 2) (budgetLog 1 hastyEntries) : ℚ) ≤
        1 + 1 * (1 / 2) := by
  have opening : Steps (start 1 8 0) ⟨0, .openSession ⟨[1], false⟩, .opened 1⟩ singleSession :=
    steps_perform (by decide +kernel) (by decide +kernel)
  have first : Steps singleSession ⟨1, .consumeCommandBudget 1, .budget true⟩
      (singleSession.consumeCommandBudget 1 1).2 :=
    steps_perform (by decide +kernel) (by decide +kernel)
  have second : Steps (singleSession.consumeCommandBudget 1 1).2
      ⟨3 / 2, .consumeCommandBudget 1, .budget false⟩
      ((singleSession.consumeCommandBudget 1 1).2.consumeCommandBudget 1 (3 / 2)).2 :=
    steps_perform (by decide +kernel) (by decide +kernel)
  have run : AnyRun Steps singleSession hastyEntries _ :=
    .cons trivial first (.cons trivial second (.nil _))
  have fresh : (start 1 8 0).sessions.find 1 = none := by decide +kernel
  have known : singleSession.sessions.find 1 ≠ none := by decide +kernel
  have kept : ∀ entry ∈ hastyEntries, entry.call ≠ .closeSession 1 := by decide +kernel
  obtain ⟨window, ⟨bucket, held, -, full⟩, -⟩ :=
    command_rate_bounded (by decide) (.nil (start 1 8 0)) opening fresh known run kept
  have rate_one : ((1 : UInt32).toNat : ℚ) = 1 := by
    rw [show (1 : UInt32).toNat = 1 from rfl, Nat.cast_one]
  rw [rate_one] at full window
  exact ⟨_, bucket, held, full, window 1 (1 / 2) (by norm_num)⟩

end Runs

end Invariant

end BudgetManager

end GeoWorld.Gateway
