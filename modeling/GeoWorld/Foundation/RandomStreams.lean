import Mathlib
import GeoWorld.Library.MixedCounter
import GeoWorld.Library.TreeMap
import GeoWorld.WorldModel.Object

/-!
The deterministic generator and the named streams over it. A generator gives every 64-bit number
once before it starts again, and what one stream gives does not depend on the others.
-/

namespace GeoWorld.Foundation

open WorldModel Library

structure DeterministicRng where
  state : UInt64
  deriving DecidableEq

namespace DeterministicRng

/-- What `next_u64` makes of the new state. -/
def mix (state : UInt64) : UInt64 :=
  let value := (state ^^^ (state >>> 30)) * 0xBF58476D1CE4E5B9
  let value := (value ^^^ (value >>> 27)) * 0x94D049BB133111EB
  value ^^^ (value >>> 31)

def increment : UInt64 := 0x9E3779B97F4A7C15

def nextU64 (rng : DeterministicRng) : UInt64 × DeterministicRng :=
  let state := rng.state + increment
  (mix state, ⟨state⟩)

/-- The next numbers in their order. -/
def draws : Nat → DeterministicRng → List UInt64 × DeterministicRng
  | 0, rng => ([], rng)
  | count + 1, rng =>
    let rest := draws count rng.nextU64.2
    (rng.nextU64.1 :: rest.1, rest.2)

section Period

theorem mix_eq (state : UInt64) : (mix state).toBitVec =
    MixedCounter.xorShift 31 (MixedCounter.xorShift 27 (MixedCounter.xorShift 30 state.toBitVec *
      (0xBF58476D1CE4E5B9 : UInt64).toBitVec) * (0x94D049BB133111EB : UInt64).toBitVec) :=
  rfl

theorem mix_injective : Function.Injective mix := by
  intro first second same
  have bits := congrArg UInt64.toBitVec same
  rw [mix_eq, mix_eq] at bits
  have outer := MixedCounter.mul_injective (0x319642B2D24D8EC3 : UInt64).toBitVec (by decide)
    (MixedCounter.xorShift_injective (by decide) bits)
  have inner := MixedCounter.mul_injective (0x96DE1B173F119089 : UInt64).toBitVec (by decide)
    (MixedCounter.xorShift_injective (by decide) outer)
  exact UInt64.toBitVec_inj.mp (MixedCounter.xorShift_injective (by decide) inner)

/-- The state after a number of draws. -/
def advance (rng : DeterministicRng) (count : Nat) : DeterministicRng :=
  ⟨.ofBitVec (MixedCounter.walk increment.toBitVec rng.state.toBitVec count)⟩

theorem increment_undo : increment.toBitVec * (0xF1DE83E19937733D : UInt64).toBitVec = 1 := by decide

theorem advance_succ (rng : DeterministicRng) (count : Nat) :
    rng.advance (count + 1) = rng.nextU64.2.advance count := by
  rw [advance, MixedCounter.walk_succ]
  rfl

theorem advance_zero (rng : DeterministicRng) : rng.advance 0 = rng := by
  have zero : BitVec.ofNat 64 0 = 0 := rfl
  rw [advance, MixedCounter.walk, zero, zero_mul, add_zero]

/-- The numbers are the mixed states of the counter. -/
theorem draws_eq (rng : DeterministicRng) (count : Nat) : draws count rng =
    ((List.range count).map fun index => mix (rng.nextU64.2.advance index).state,
      rng.advance count) := by
  induction count generalizing rng with
  | zero =>
    rw [draws, advance_zero]
    rfl
  | succ count ih =>
    rw [draws, ih, List.range_succ_eq_map, List.map_cons, List.map_map, advance_zero, advance_succ]
    simp only [Function.comp_def, Nat.succ_eq_add_one, advance_succ]
    rfl

theorem mem_draws {rng : DeterministicRng} {value : UInt64} {count : Nat} :
    value ∈ (draws count rng).1 ↔
      ∃ index < count, mix (rng.nextU64.2.advance index).state = value := by
  rw [draws_eq]
  simp only [List.mem_map, List.mem_range]

theorem advance_round (rng : DeterministicRng) : rng.advance (2 ^ 64) = rng := by
  rw [advance, MixedCounter.walk_round]

/-- A generator gives no number twice in 2^64 draws, gives every number once, and has come back
to its first state by then. -/
theorem draws_period (rng : DeterministicRng) :
    (∀ count ≤ 2 ^ 64, (draws count rng).1.Nodup) ∧
      (∀ value, value ∈ (draws (2 ^ 64) rng).1) ∧ (draws (2 ^ 64) rng).2 = rng := by
  have draws_state : ∀ count, (draws count rng).2 = rng.advance count := fun count => by
    rw [draws_eq]
  refine ⟨fun count bound => ?_, fun value => ?_, (draws_state _).trans rng.advance_round⟩
  · rw [draws_eq]
    refine List.Nodup.map_on (fun left left_mem right right_mem same => ?_) List.nodup_range
    have states := congrArg UInt64.toBitVec (mix_injective same)
    exact MixedCounter.walk_injective increment_undo ((List.mem_range.mp left_mem).trans_le bound)
      ((List.mem_range.mp right_mem).trans_le bound) states
  · have mixed : Function.Injective fun word => (mix (.ofBitVec word)).toBitVec :=
      fun left right same => congrArg UInt64.toBitVec (mix_injective (UInt64.toBitVec_inj.mp same))
    obtain ⟨count, inside, reached⟩ := MixedCounter.walk_surjective increment_undo mixed
      rng.nextU64.2.state.toBitVec value.toBitVec
    exact mem_draws.mpr ⟨count, inside, UInt64.toBitVec_inj.mp reached⟩

theorem draws_period_five : (draws 3 ⟨5⟩).1.Nodup := (draws_period ⟨5⟩).1 3 (by decide)

end Period

end DeterministicRng

structure NamedRandomStreamState where
  name : ByteString
  state : UInt64
  deriving DecidableEq

/-- `streams_`. -/
abbrev NamedRandomStreams := Std.ExtTreeMap ByteString DeterministicRng compare

namespace NamedRandomStreams

def create (streams : NamedRandomStreams) (name : ByteString) (seed : UInt64) :
    Bool × NamedRandomStreams :=
  if name.isEmpty then (false, streams)
  else (!streams.contains name, streams.insertIfNew name ⟨seed⟩)

/-- `find(name)->next_u64()`; `none` where `find` answers a null pointer. -/
def draw (streams : NamedRandomStreams) (name : ByteString) : Option (UInt64 × NamedRandomStreams) :=
  streams[name]?.map fun rng => (rng.nextU64.1, streams.insert name rng.nextU64.2)

def snapshot (streams : NamedRandomStreams) : List NamedRandomStreamState :=
  streams.toList.map fun entry => ⟨entry.1, entry.2.state⟩

/-- The loop of `restore` over the items; `none` where it answers false. -/
def restoreInto : NamedRandomStreams → List NamedRandomStreamState → Option NamedRandomStreams
  | restored, [] => some restored
  | restored, item :: rest =>
    if item.name.isEmpty || restored.contains item.name then none
    else restoreInto (restored.insertIfNew item.name ⟨item.state⟩) rest

def restore (items : List NamedRandomStreamState) : Option NamedRandomStreams := restoreInto ∅ items

inductive StreamRequest where
  | create (name : ByteString) (seed : UInt64)
  | draw (name : ByteString)
  | checkpoint
  deriving DecidableEq

/-- What one request hands out, and the streams after it. A checkpoint is saved and read back;
`restore` leaves the streams as they are where it answers false. -/
def serve (streams : NamedRandomStreams) :
    StreamRequest → List (ByteString × UInt64) × NamedRandomStreams
  | .create name seed => ([], (streams.create name seed).2)
  | .draw name =>
    ((streams.draw name).map fun drawn => ([(name, drawn.1)], drawn.2)).getD ([], streams)
  | .checkpoint => ([], (restore streams.snapshot).getD streams)

def serveAll (streams : NamedRandomStreams) :
    List StreamRequest → List (ByteString × UInt64) × NamedRandomStreams
  | [] => ([], streams)
  | request :: rest =>
    let later := (streams.serve request).2.serveAll rest
    ((streams.serve request).1 ++ later.1, later.2)

/-- The numbers handed out under a name. -/
def numbersOf (name : ByteString) (drawn : List (ByteString × UInt64)) : List UInt64 :=
  (drawn.filter fun number => number.1 == name).map Prod.snd

section Runs

variable {streams : NamedRandomStreams} {name : ByteString} {rng : DeterministicRng}

theorem restoreInto_entries {entries : List (ByteString × DeterministicRng)}
    {restored : NamedRandomStreams} (named : ∀ entry ∈ entries, entry.1 ≠ [])
    (distinct : (entries.map Prod.fst).Nodup)
    (fresh : ∀ entry ∈ entries, restored[entry.1]? = none) :
    restoreInto restored (entries.map fun entry => ⟨entry.1, entry.2.state⟩) =
      some (entries.foldl (fun map entry => map.insertIfNew entry.1 entry.2) restored) := by
  induction entries generalizing restored with
  | nil => rfl
  | cons entry rest ih =>
    have filled : entry.1.isEmpty = false :=
      List.isEmpty_eq_false_iff.mpr (named entry List.mem_cons_self)
    have absent := fresh entry List.mem_cons_self
    have missing : restored.contains entry.1 = false := by
      rw [Std.ExtTreeMap.contains_eq_isSome_getElem?, absent]
      rfl
    rw [List.map_cons, List.nodup_cons] at distinct
    rw [List.map_cons, restoreInto, filled, missing]
    refine ih (fun other member => named other (List.mem_cons_of_mem _ member)) distinct.2
      fun other member => ?_
    have apart : other.1 ≠ entry.1 := fun same =>
      distinct.1 (same ▸ List.mem_map_of_mem member)
    rw [lookup_insertIfNew restored absent, if_neg apart]
    exact fresh other (List.mem_cons_of_mem _ member)

/-- No stream is without a name, so every checkpoint is read back as it was. -/
theorem restore_snapshot (named : streams[([] : ByteString)]? = none) :
    restore streams.snapshot = some streams := by
  have names : ∀ entry ∈ streams.toList, entry.1 ≠ [] := fun entry member unnamed => by
    have held := Std.ExtTreeMap.mem_toList_iff_getElem?_eq_some.mp member
    rw [unnamed, named] at held
    cases held
  have distinct : (streams.toList.map Prod.fst).Nodup := by
    rw [Std.ExtTreeMap.map_fst_toList_eq_keys]
    exact Std.ExtTreeMap.nodup_keys
  rw [restore, snapshot, restoreInto_entries names distinct fun _ _ => Std.ExtTreeMap.getElem?_empty,
    foldl_insertIfNew_toList]

theorem create_lookup (created : ByteString) (seed : UInt64) :
    (streams.create created seed).2[name]? =
      streams[name]?.or (if name = created ∧ created ≠ [] then some ⟨seed⟩ else none) := by
  rw [create]
  cases created with
  | nil => simp
  | cons head tail =>
    simp only [List.isEmpty_cons, Bool.false_eq_true, if_false, lookup_insertIfNew_or]
    simp

/-- A request changes a stream that is there only where it draws from it. -/
theorem serve_held (named : streams[([] : ByteString)]? = none) (held : streams[name]? = some rng)
    (request : StreamRequest) :
    numbersOf name (streams.serve request).1 =
        (if request = .draw name then [rng.nextU64.1] else []) ∧
      (streams.serve request).2[name]? =
        some (if request = .draw name then rng.nextU64.2 else rng) := by
  cases request with
  | create created seed =>
    rw [serve, create_lookup, held]
    exact ⟨rfl, rfl⟩
  | checkpoint =>
    rw [serve, restore_snapshot named]
    exact ⟨rfl, held⟩
  | draw drawn =>
    by_cases same : drawn = name
    · subst same
      simp [serve, draw, held, numbersOf]
    · have other : StreamRequest.draw drawn ≠ .draw name := fun equal =>
        same (StreamRequest.draw.inj equal)
      rw [if_neg other, if_neg other, serve, draw]
      cases streams[drawn]? with
      | none => exact ⟨rfl, held⟩
      | some found => simp [numbersOf, same, lookup_insert, Ne.symm same, held]

/-- A stream that is not there gives nothing, and only its own creation puts it there. -/
theorem serve_absent (named : streams[([] : ByteString)]? = none) (absent : streams[name]? = none)
    {request : StreamRequest} (other : name = [] ∨ ∀ seed, request ≠ .create name seed) :
    numbersOf name (streams.serve request).1 = [] ∧
      (streams.serve request).2[name]? = none := by
  cases request with
  | create created seed =>
    have refused : ¬ (name = created ∧ created ≠ []) := by
      rintro ⟨rfl, filled⟩
      rcases other with unnamed | apart
      · exact filled unnamed
      · exact apart seed rfl
    rw [serve, create_lookup, absent, if_neg refused]
    exact ⟨rfl, rfl⟩
  | checkpoint =>
    rw [serve, restore_snapshot named]
    exact ⟨rfl, absent⟩
  | draw drawn =>
    rw [serve, draw]
    cases found : streams[drawn]? with
    | none => exact ⟨rfl, absent⟩
    | some rng =>
      have apart : drawn ≠ name := fun same => by
        rw [same, absent] at found
        cases found
      simp [numbersOf, apart, lookup_insert, Ne.symm apart, absent]

theorem serve_named (named : streams[([] : ByteString)]? = none) (request : StreamRequest) :
    (streams.serve request).2[([] : ByteString)]? = none :=
  (serve_absent named named (.inl rfl)).2

theorem numbersOf_append (first second : List (ByteString × UInt64)) :
    numbersOf name (first ++ second) = numbersOf name first ++ numbersOf name second := by
  rw [numbersOf, List.filter_append, List.map_append]
  rfl

theorem serveAll_append (first second : List StreamRequest) :
    streams.serveAll (first ++ second) =
      ((streams.serveAll first).1 ++ ((streams.serveAll first).2.serveAll second).1,
        ((streams.serveAll first).2.serveAll second).2) := by
  induction first generalizing streams with
  | nil => rfl
  | cons request rest ih =>
    rw [List.cons_append, serveAll, ih, serveAll, List.append_assoc]

theorem serveAll_named (named : streams[([] : ByteString)]? = none)
    (requests : List StreamRequest) : (streams.serveAll requests).2[([] : ByteString)]? = none := by
  induction requests generalizing streams with
  | nil => exact named
  | cons request rest ih => exact ih (serve_named named request)

theorem serveAll_held (named : streams[([] : ByteString)]? = none)
    (held : streams[name]? = some rng) (requests : List StreamRequest) :
    numbersOf name (streams.serveAll requests).1 =
      (DeterministicRng.draws (requests.count (.draw name)) rng).1 := by
  induction requests generalizing streams rng with
  | nil => rfl
  | cons request rest ih =>
    obtain ⟨numbers, after⟩ := serve_held named held request
    rw [serveAll, numbersOf_append, numbers, ih (serve_named named request) after]
    by_cases drawn : request = .draw name
    · rw [if_pos drawn, if_pos drawn, drawn, List.count_cons_self, DeterministicRng.draws]
      rfl
    · rw [if_neg drawn, if_neg drawn, List.count_cons_of_ne drawn, List.nil_append]

theorem serveAll_absent (named : streams[([] : ByteString)]? = none)
    (absent : streams[name]? = none) {requests : List StreamRequest}
    (fresh : ∀ seed, .create name seed ∉ requests) :
    numbersOf name (streams.serveAll requests).1 = [] ∧
      (streams.serveAll requests).2[name]? = none := by
  induction requests generalizing streams with
  | nil => exact ⟨rfl, absent⟩
  | cons request rest ih =>
    have other : ∀ seed, request ≠ .create name seed := fun seed same =>
      fresh seed (same ▸ List.mem_cons_self)
    obtain ⟨numbers, after⟩ := serve_absent named absent (.inr other)
    obtain ⟨later, still⟩ := ih (serve_named named request) after fun seed member =>
      fresh seed (List.mem_cons_of_mem _ member)
    rw [serveAll, numbersOf_append, numbers, later]
    exact ⟨rfl, still⟩

/-- What a stream gives is decided by its first seed and the number of draws from it, whatever is
created, drawn or read back from a checkpoint in between. -/
theorem stream_numbers (named : name ≠ []) (seed : UInt64) {earlier : List StreamRequest}
    (fresh : ∀ other, .create name other ∉ earlier) (requests : List StreamRequest) :
    numbersOf name (serveAll ∅ (earlier ++ .create name seed :: requests)).1 =
        (DeterministicRng.draws (requests.count (.draw name)) ⟨seed⟩).1 ∧
      restore (serveAll ∅ (earlier ++ .create name seed :: requests)).2.snapshot =
        some (serveAll ∅ (earlier ++ .create name seed :: requests)).2 := by
  have nothing : ∀ other : ByteString, (∅ : NamedRandomStreams)[other]? = none := fun _ =>
    Std.ExtTreeMap.getElem?_empty
  refine ⟨?_, restore_snapshot (serveAll_named (nothing _) _)⟩
  obtain ⟨numbers, absent⟩ := serveAll_absent (nothing _) (nothing name) fresh
  have unnamed := serveAll_named (nothing _) earlier
  have created : ((serveAll ∅ earlier).2.serve (.create name seed)).2[name]? = some ⟨seed⟩ := by
    rw [serve, create_lookup, absent, if_pos ⟨rfl, named⟩]
    rfl
  rw [serveAll_append, numbersOf_append, numbers, List.nil_append, serveAll]
  exact serveAll_held (serve_named unnamed _) created requests

theorem stream_numbers_interleaved :
    numbersOf [1] (serveAll ∅ ([.create [2] 7, .draw [1]] ++ .create [1] 5 ::
        [.draw [2], .draw [1], .create [1] 9, .checkpoint, .draw [2], .draw [1]])).1 =
        (DeterministicRng.draws 2 ⟨5⟩).1 ∧
      restore (serveAll ∅ ([.create [2] 7, .draw [1]] ++ .create [1] 5 ::
        [.draw [2], .draw [1], .create [1] 9, .checkpoint, .draw [2], .draw [1]])).2.snapshot =
        some (serveAll ∅ ([.create [2] 7, .draw [1]] ++ .create [1] 5 ::
          [.draw [2], .draw [1], .create [1] 9, .checkpoint, .draw [2], .draw [1]])).2 :=
  stream_numbers (by decide) 5 (fun other => by simp) _

end Runs

end NamedRandomStreams

end GeoWorld.Foundation
