import Mathlib
import GeoWorld.Library.LittleEndian

/-!
Readers that take values off the front of a byte string and may give up. A reader is
judged from three sides: what it returns on the bytes a writer produced, what holds when
it accepts them at all, and what holds of every value it returns, whatever the bytes.
-/

namespace GeoWorld.Library

abbrev ByteReader := StateT (List UInt8) Option

namespace ByteReader

variable {α β : Type}

/-- The next `length` bytes. -/
def take (length : ℕ) : ByteReader (List UInt8) := fun bytes =>
  if length ≤ bytes.length then some (bytes.take length, bytes.drop length) else none

/-- A little-endian number of `width` bytes. -/
def fixed (width : ℕ) : ByteReader ℕ := do
  let bytes ← take width
  return valueLE bytes

/-- So many values in a row. -/
def times (reader : ByteReader α) : ℕ → ByteReader (List α)
  | 0 => pure []
  | count + 1 => do
    let item ← reader
    let later ← times reader count
    return item :: later

/-- A value that stands alone. -/
def readAll (reader : ByteReader α) (bytes : List UInt8) : Option α :=
  match reader bytes with
  | some (value, []) => some value
  | _ => none

theorem bind_apply (first : ByteReader α) (next : α → ByteReader β) (bytes : List UInt8) :
    (first >>= next) bytes = (first bytes).bind fun result => next result.1 result.2 :=
  rfl

theorem pure_apply (value : α) (bytes : List UInt8) :
    (pure value : ByteReader α) bytes = some (value, bytes) :=
  rfl

theorem guard_apply (condition : Prop) [Decidable condition] (bytes : List UInt8) :
    (guard condition : ByteReader Unit) bytes = if condition then some ((), bytes) else none := by
  unfold guard
  split <;> rfl

/-- Behind any byte string that starts with `bytes`, the reader has read `value` and
nothing more. -/
def Reads (reader : ByteReader α) (bytes : List UInt8) (value : α) : Prop :=
  ∀ rest, reader (bytes ++ rest) = some (value, rest)

section Reads

theorem Reads.pure (value : α) : Reads (Pure.pure value) [] value :=
  fun _ => rfl

theorem Reads.bind {first : ByteReader α} {next : α → ByteReader β} {front back : List UInt8}
    {value : α} {result : β} (read : Reads first front value)
    (later : Reads (next value) back result) : Reads (first >>= next) (front ++ back) result := by
  intro rest
  rw [bind_apply, List.append_assoc, read, Option.bind_some]
  exact later rest

/-- The last value of a record. -/
theorem Reads.last {first : ByteReader α} {next : α → ByteReader β} {bytes : List UInt8}
    {value : α} {result : β} (read : Reads first bytes value)
    (later : Reads (next value) [] result) : Reads (first >>= next) bytes result := by
  have both := read.bind later
  rwa [List.append_nil] at both

theorem Reads.guard {condition : Prop} [Decidable condition] {next : Unit → ByteReader β}
    {bytes : List UInt8} {result : β} (holds : condition) (later : Reads (next ()) bytes result) :
    Reads (guard condition >>= next) bytes result := by
  intro rest
  rw [bind_apply, guard_apply, if_pos holds, Option.bind_some]
  exact later rest

theorem Reads.take {length : ℕ} {bytes : List UInt8} (same : bytes.length = length) :
    Reads (take length) bytes bytes := by
  intro rest
  subst same
  simp [ByteReader.take]

theorem Reads.fixed {width value : ℕ} (bound : value < 256 ^ width) :
    Reads (fixed width) (bytesLE width value) value := by
  refine (Reads.take (bytesLE_length width value)).last ?_
  rw [valueLE_bytesLE width value bound]
  exact Reads.pure value

theorem Reads.times {reader : ByteReader α} {write : α → List UInt8} {items : List α}
    (each : ∀ item ∈ items, Reads reader (write item) item) :
    Reads (times reader items.length) (items.flatMap write) items := by
  induction items with
  | nil => exact Reads.pure []
  | cons item items ih =>
    have later := ih fun other member => each other (List.mem_cons_of_mem _ member)
    exact (each item List.mem_cons_self).bind (later.last (Reads.pure (item :: items)))

theorem Reads.readAll {reader : ByteReader α} {bytes : List UInt8} {value : α}
    (read : Reads reader bytes value) : reader.readAll bytes = some value := by
  have alone := read []
  rw [List.append_nil] at alone
  rw [ByteReader.readAll, alone]

end Reads

/-- Whatever the reader returns has the property. -/
def Ensures (reader : ByteReader α) (property : α → Prop) : Prop :=
  ∀ bytes value rest, reader bytes = some (value, rest) → property value

section Ensures

variable {property : α → Prop} {result : β → Prop}

theorem ensures_true (reader : ByteReader α) : Ensures reader fun _ => True :=
  fun _ _ _ _ => trivial

theorem Ensures.pure {value : α} (holds : property value) : Ensures (Pure.pure value) property := by
  intro bytes other rest read
  cases read
  exact holds

theorem Ensures.bind {first : ByteReader α} {next : α → ByteReader β}
    (read : Ensures first property)
    (later : ∀ value, property value → Ensures (next value) result) :
    Ensures (first >>= next) result := by
  intro bytes last rest both
  rw [bind_apply] at both
  obtain ⟨⟨value, middle⟩, before, after⟩ := Option.bind_eq_some_iff.mp both
  exact later value (read bytes value middle before) middle last rest after

/-- A value nothing is asked of. -/
theorem Ensures.skip {first : ByteReader α} {next : α → ByteReader β}
    (later : ∀ value, Ensures (next value) result) : Ensures (first >>= next) result :=
  (ensures_true first).bind fun value _ => later value

theorem ensures_guard (condition : Prop) [Decidable condition] :
    Ensures (guard condition) fun _ => condition := by
  intro bytes value rest read
  rw [guard_apply] at read
  split at read
  · assumption
  · cases read

theorem Ensures.guard {condition : Prop} [Decidable condition] {next : Unit → ByteReader β}
    (later : condition → Ensures (next ()) result) : Ensures (guard condition >>= next) result :=
  (ensures_guard condition).bind fun _ => later

theorem Ensures.readAll {reader : ByteReader α} (read : Ensures reader property)
    {bytes : List UInt8} {value : α} (whole : reader.readAll bytes = some value) :
    property value := by
  unfold ByteReader.readAll at whole
  split at whole
  · rename_i found
    cases whole
    exact read _ _ _ found
  · cases whole

end Ensures

/-- When the reader accepts bytes that start with `bytes`, it has read `value` and nothing
more, and the condition holds. -/
def Admits (reader : ByteReader α) (bytes : List UInt8) (condition : Prop) (value : α) : Prop :=
  ∀ rest result, reader (bytes ++ rest) = some result → condition ∧ result = (value, rest)

section Admits

variable {condition goal : Prop}

theorem Reads.admits {reader : ByteReader α} {bytes : List UInt8} {value : α}
    (read : Reads reader bytes value) (holds : condition) : Admits reader bytes condition value := by
  intro rest result accepted
  rw [read] at accepted
  exact ⟨holds, (Option.some.inj accepted).symm⟩

theorem Admits.pure {value : α} (holds : condition) : Admits (Pure.pure value) [] condition value :=
  (Reads.pure value).admits holds

theorem Admits.bind {first : ByteReader α} {next : α → ByteReader β} {front back : List UInt8}
    {value : α} {result : β} (read : Admits first front condition value)
    (later : condition → Admits (next value) back goal result) :
    Admits (first >>= next) (front ++ back) goal result := by
  intro rest last both
  rw [bind_apply, List.append_assoc] at both
  obtain ⟨middle, before, after⟩ := Option.bind_eq_some_iff.mp both
  obtain ⟨holds, rfl⟩ := read _ _ before
  exact later holds rest last after

theorem Admits.last {first : ByteReader α} {next : α → ByteReader β} {bytes : List UInt8}
    {value : α} {result : β} (read : Admits first bytes condition value)
    (later : condition → Admits (next value) [] goal result) :
    Admits (first >>= next) bytes goal result := by
  have both := read.bind later
  rwa [List.append_nil] at both

/-- A value that is read back whatever it is. -/
theorem Reads.bindAdmits {first : ByteReader α} {next : α → ByteReader β}
    {front back : List UInt8} {value : α} {result : β} (read : Reads first front value)
    (later : Admits (next value) back goal result) :
    Admits (first >>= next) (front ++ back) goal result :=
  (read.admits trivial).bind fun _ => later

theorem Reads.lastAdmits {first : ByteReader α} {next : α → ByteReader β} {bytes : List UInt8}
    {value : α} {result : β} (read : Reads first bytes value)
    (later : Admits (next value) [] goal result) : Admits (first >>= next) bytes goal result :=
  (read.admits trivial).last fun _ => later

theorem Admits.guard [Decidable condition] {next : Unit → ByteReader β} {bytes : List UInt8}
    {result : β} (later : condition → Admits (next ()) bytes goal result) :
    Admits (guard condition >>= next) bytes goal result := by
  intro rest last both
  rw [bind_apply, guard_apply] at both
  split at both
  · rename_i holds
    exact later holds rest last both
  · cases both

theorem Admits.times {reader : ByteReader α} {write : α → List UInt8} {fits : α → Prop}
    {items : List α} (each : ∀ item ∈ items, Admits reader (write item) (fits item) item) :
    Admits (times reader items.length) (items.flatMap write) (∀ item ∈ items, fits item) items := by
  induction items with
  | nil => exact Admits.pure (by simp)
  | cons item items ih =>
    rw [List.forall_mem_cons] at each
    refine each.1.bind fun first => (ih each.2).last fun later => Admits.pure ?_
    rw [List.forall_mem_cons]
    exact ⟨first, later⟩

theorem Admits.readAll {reader : ByteReader α} {bytes : List UInt8} {value result : α}
    (read : Admits reader bytes condition value) (accepted : reader.readAll bytes = some result) :
    condition ∧ result = value := by
  unfold ByteReader.readAll at accepted
  split at accepted
  · rename_i found
    cases accepted
    obtain ⟨holds, same⟩ := read [] _ ((congrArg reader (List.append_nil bytes)).trans found)
    exact ⟨holds, congrArg Prod.fst same⟩
  · cases accepted

end Admits

end ByteReader

end GeoWorld.Library
