import Mathlib
import GeoWorld.Persistence.CheckpointCodec

/-!
What the content hash of a checkpoint sees. The bytes it folds are the ids, versions and
payloads one after another, without their lengths, so a list of blocks shares its bytes
with every other way to cut them: each place where four bytes could be a version gives a
reading as one block. Only a list with no such place but its own is told apart from all
others.
-/

namespace GeoWorld.Persistence

open WorldModel Library

def CheckpointBlock.bytes (block : CheckpointBlock) : ByteString :=
  block.schema.providerId ++ (bytesLE 4 block.schema.schemaVersion.toNat ++ block.payload)

/-- The bytes `authoritativeCheckpointHash` folds into its state. -/
def contentBytes (blocks : List CheckpointBlock) : ByteString :=
  blocks.flatMap CheckpointBlock.bytes

/-- The lists a registry gives and a decoder accepts: named providers with a version, each
once, by id. -/
structure InProviderOrder (blocks : List CheckpointBlock) : Prop where
  named : ∀ block ∈ blocks, block.schema.providerId ≠ []
  versioned : ∀ block ∈ blocks, block.schema.schemaVersion ≠ 0
  ascending : blocks.Pairwise fun left right => left.schema.providerId < right.schema.providerId

/-- Four bytes that a reader could take for a version: not the first byte, and not zero. -/
def VersionAt (bytes : ByteString) (offset : ℕ) : Prop :=
  1 ≤ offset ∧ offset + 4 ≤ bytes.length ∧
    ∃ position, offset ≤ position ∧ position < offset + 4 ∧ bytes.getD position 0 ≠ 0

/-- One block that nothing else is taken for: a name of one byte, or one whose other bytes
are zero with the low three of the version, and no payload, or one of zeros with the high
three bytes of the version. -/
def CheckpointBlock.SoleReading (block : CheckpointBlock) : Prop :=
  (block.schema.providerId.length = 1 ∨
    block.schema.schemaVersion.toNat % 2 ^ 24 = 0 ∧
      ∀ byte ∈ block.schema.providerId.tail, byte = 0) ∧
  (block.payload = [] ∨
    block.schema.schemaVersion.toNat < 256 ∧ ∀ byte ∈ block.payload, byte = 0)

def SoleReading : List CheckpointBlock → Prop
  | [] => True
  | [block] => block.SoleReading
  | _ => False

theorem contentBytes_cons (block : CheckpointBlock) (rest : List CheckpointBlock) :
    contentBytes (block :: rest) = block.schema.providerId ++
      (bytesLE 4 block.schema.schemaVersion.toNat ++ (block.payload ++ contentBytes rest)) := by
  simp [contentBytes, CheckpointBlock.bytes]

/-- The bytes of a list are not those of any other. -/
def ToldApart (blocks : List CheckpointBlock) : Prop :=
  ∀ others, InProviderOrder others → others ≠ blocks → contentBytes others ≠ contentBytes blocks

theorem authoritativeCheckpointHash_eq (blocks : List CheckpointBlock) :
    authoritativeCheckpointHash blocks =
      mixBytes 14695981039346656037 (contentBytes blocks) := by
  have folded : ∀ hash : UInt64,
      blocks.foldl mixBlock hash = mixBytes hash (contentBytes blocks) := by
    induction blocks with
    | nil => exact fun _ => rfl
    | cons block rest ih =>
      intro hash
      rw [List.foldl_cons, ih, contentBytes_cons]
      simp only [mixBlock, mixBytes, List.foldl_append]
  exact folded _

section Places

theorem bytes_length (block : CheckpointBlock) :
    block.bytes.length = block.schema.providerId.length + 4 + block.payload.length := by
  simp [CheckpointBlock.bytes, Nat.add_assoc]

theorem zero_bytes {bytes : ByteString} (zero : ∀ position, bytes.getD position 0 = 0) :
    bytes = List.replicate bytes.length 0 := by
  refine List.eq_replicate_iff.mpr ⟨rfl, fun byte member => ?_⟩
  obtain ⟨position, bound, rfl⟩ := List.mem_iff_getElem.mp member
  rw [← List.getD_eq_getElem _ 0 bound]
  exact zero position

/-- A version that is not zero has a byte that is not. -/
theorem version_nonzero {version : UInt32} (nonzero : version ≠ 0) :
    ∃ position < 4, (bytesLE 4 version.toNat).getD position 0 ≠ 0 := by
  by_contra none
  push Not at none
  have zero : bytesLE 4 version.toNat = List.replicate 4 0 := by
    rw [← bytesLE_length 4 version.toNat]
    refine zero_bytes fun position => ?_
    by_cases inside : position < 4
    · exact none position inside
    · exact List.getD_eq_default _ _ (by simpa using inside)
  have value := congrArg valueLE zero
  rw [valueLE_bytesLE 4 _ version.toNat_lt] at value
  exact nonzero (UInt32.toNat_inj.mp value)

theorem InProviderOrder.head_version {block : CheckpointBlock} {rest : List CheckpointBlock}
    (ordered : InProviderOrder (block :: rest)) (front : ByteString) :
    VersionAt (front ++ contentBytes (block :: rest))
      (front.length + block.schema.providerId.length) := by
  obtain ⟨position, inside, nonzero⟩ :=
    version_nonzero (ordered.versioned block List.mem_cons_self)
  have name := List.length_pos_iff.mpr (ordered.named block List.mem_cons_self)
  refine ⟨by omega, ?_, front.length + block.schema.providerId.length + position, by omega,
    by omega, ?_⟩
  · rw [contentBytes_cons]
    simp only [List.length_append, bytesLE_length]
    omega
  · rw [contentBytes_cons, List.getD_append_right _ _ _ _ (by omega),
      List.getD_append_right _ _ _ _ (by omega), List.getD_append _ _ _ _ (by simp; omega)]
    rw [show front.length + block.schema.providerId.length + position - front.length -
      block.schema.providerId.length = position by omega]
    exact nonzero

theorem InProviderOrder.tail {block : CheckpointBlock} {rest : List CheckpointBlock}
    (ordered : InProviderOrder (block :: rest)) : InProviderOrder rest :=
  ⟨fun other member => ordered.named other (List.mem_cons_of_mem _ member),
    fun other member => ordered.versioned other (List.mem_cons_of_mem _ member),
    (List.pairwise_cons.mp ordered.ascending).2⟩

/-- Where a version could stand, the bytes are those of one block with that version. -/
theorem VersionAt.reading {bytes : ByteString} {offset : ℕ} (place : VersionAt bytes offset) :
    ∃ block : CheckpointBlock, InProviderOrder [block] ∧ contentBytes [block] = bytes ∧
      block.schema.providerId.length = offset := by
  obtain ⟨positive, room, position, first, last, nonzero⟩ := place
  let version := (bytes.drop offset).take 4
  have length : version.length = 4 := by
    simp only [version, List.length_take, List.length_drop]
    omega
  have bound : valueLE version < 2 ^ 32 := by
    have bound := valueLE_lt version
    rwa [length] at bound
  have written : bytesLE 4 (UInt32.ofNat (valueLE version)).toNat = version := by
    rw [UInt32.toNat_ofNat_of_lt' bound]
    conv_rhs => rw [← bytesLE_valueLE version, length]
  refine ⟨⟨⟨bytes.take offset, UInt32.ofNat (valueLE version)⟩, bytes.drop (offset + 4)⟩,
    ⟨?_, ?_, List.pairwise_singleton _ _⟩, ?_, ?_⟩
  · intro block member
    rw [List.mem_singleton.mp member]
    refine List.ne_nil_of_length_pos ?_
    rw [List.length_take]
    omega
  · intro block member
    rw [List.mem_singleton.mp member]
    intro zero
    change UInt32.ofNat (valueLE version) = 0 at zero
    rw [zero] at written
    have field : bytes.getD position 0 = version.getD (position - offset) 0 := by
      simp only [version, List.getD_eq_getElem?_getD, List.getElem?_take, List.getElem?_drop]
      rw [if_pos (by omega), Nat.add_sub_cancel' first]
    have place : position - offset < 4 := by omega
    rw [field, ← written] at nonzero
    interval_cases position - offset <;> exact nonzero rfl
  · rw [contentBytes_cons, contentBytes, List.flatMap_nil, List.append_nil, written]
    calc bytes.take offset ++ (version ++ bytes.drop (offset + 4))
        = bytes.take offset ++ (version ++ (bytes.drop offset).drop 4) := by rw [List.drop_drop]
      _ = bytes := by rw [List.take_append_drop, List.take_append_drop]
  · rw [List.length_take]
    omega

end Places

section Sole

variable {block : CheckpointBlock}

/-- The bytes of a version in turn. -/
theorem bytesLE_version (version : ℕ) : bytesLE 4 version =
    [UInt8.ofNat (version % 256), UInt8.ofNat (version / 256 % 256),
      UInt8.ofNat (version / 256 / 256 % 256), UInt8.ofNat (version / 256 / 256 / 256 % 256)] :=
  rfl

theorem byte_eq_zero {value : ℕ} (small : value < 256) : UInt8.ofNat value = 0 ↔ value = 0 := by
  rw [← UInt8.toNat_inj, UInt8.toNat_ofNat_of_lt' small]
  rfl

theorem mem_eq_zero_iff (bytes : ByteString) :
    (∀ byte ∈ bytes, byte = 0) ↔ ∀ position, bytes.getD position 0 = 0 := by
  constructor
  · intro zero position
    by_cases inside : position < bytes.length
    · rw [List.getD_eq_getElem _ _ inside]
      exact zero _ (List.getElem_mem inside)
    · exact List.getD_eq_default _ _ (not_lt.mp inside)
  · intro zero byte member
    exact List.eq_of_mem_replicate ((zero_bytes zero) ▸ member)

theorem name_getD (block : CheckpointBlock) {position : ℕ}
    (inside : position < block.schema.providerId.length) :
    (contentBytes [block]).getD position 0 = block.schema.providerId.getD position 0 := by
  rw [contentBytes_cons]
  exact List.getD_append _ _ _ _ inside

theorem version_getD (block : CheckpointBlock) {position : ℕ} (inside : position < 4) :
    (contentBytes [block]).getD (block.schema.providerId.length + position) 0 =
      (bytesLE 4 block.schema.schemaVersion.toNat).getD position 0 := by
  rw [contentBytes_cons, List.getD_append_right _ _ _ _ (by omega), Nat.add_sub_cancel_left]
  exact List.getD_append _ _ _ _ (by simpa using inside)

theorem payload_getD (block : CheckpointBlock) (position : ℕ) :
    (contentBytes [block]).getD (block.schema.providerId.length + 4 + position) 0 =
      block.payload.getD position 0 := by
  rw [contentBytes_cons, List.getD_append_right _ _ _ _ (by omega),
    List.getD_append_right _ _ _ _ (by simp only [bytesLE_length]; omega), bytesLE_length]
  change (block.payload ++ []).getD _ 0 = _
  rw [List.append_nil]
  congr 1
  omega

/-- No version can stand in front of the block's own. -/
theorem front_zero_iff (named : block.schema.providerId ≠ []) :
    (block.schema.schemaVersion.toNat % 2 ^ 24 = 0 ∧
        ∀ byte ∈ block.schema.providerId.tail, byte = 0) ↔
      ∀ position, 1 ≤ position → position < block.schema.providerId.length + 3 →
        (contentBytes [block]).getD position 0 = 0 := by
  have name := List.length_pos_iff.mpr named
  have tail (position : ℕ) : block.schema.providerId.tail.getD position 0 =
      block.schema.providerId.getD (position + 1) 0 := by
    simp [List.getD_eq_getElem?_getD]
  rw [mem_eq_zero_iff]
  constructor
  · rintro ⟨version, zero⟩ position first last
    by_cases inside : position < block.schema.providerId.length
    · rw [name_getD block inside, ← Nat.sub_add_cancel first, ← tail]
      exact zero _
    · obtain ⟨index, rfl⟩ := Nat.exists_eq_add_of_le (not_lt.mp inside)
      have low : index < 3 := by omega
      rw [version_getD block (by omega), bytesLE_version]
      interval_cases index <;> exact (byte_eq_zero (by omega)).mpr (by omega)
  · intro zero
    constructor
    · have low (index : ℕ) (inside : index < 3) :=
        (version_getD block (by omega : index < 4)).symm.trans (zero _ (by omega) (by omega))
      rw [bytesLE_version] at low
      have first := (byte_eq_zero (by omega)).mp (low 0 (by omega))
      have second := (byte_eq_zero (by omega)).mp (low 1 (by omega))
      have third := (byte_eq_zero (by omega)).mp (low 2 (by omega))
      omega
    · intro position
      rw [tail]
      by_cases inside : position + 1 < block.schema.providerId.length
      · rw [← name_getD block inside]
        exact zero _ (by omega) (by omega)
      · exact List.getD_eq_default _ _ (not_lt.mp inside)

/-- No version can stand behind it. -/
theorem back_zero_iff :
    (block.schema.schemaVersion.toNat < 256 ∧ ∀ byte ∈ block.payload, byte = 0) ↔
      ∀ position, block.schema.providerId.length + 1 ≤ position →
        (contentBytes [block]).getD position 0 = 0 := by
  have bound := block.schema.schemaVersion.toNat_lt
  rw [mem_eq_zero_iff]
  constructor
  · rintro ⟨version, zero⟩ position first
    by_cases inside : position < block.schema.providerId.length + 4
    · have behind : block.schema.providerId.length ≤ position := by omega
      obtain ⟨index, rfl⟩ := Nat.exists_eq_add_of_le behind
      have high : 1 ≤ index ∧ index < 4 := by omega
      obtain ⟨above, below⟩ := high
      rw [version_getD block below, bytesLE_version]
      interval_cases index <;> exact (byte_eq_zero (by omega)).mpr (by omega)
    · obtain ⟨index, rfl⟩ := Nat.exists_eq_add_of_le (not_lt.mp inside)
      rw [payload_getD]
      exact zero index
  · intro zero
    constructor
    · have high (index : ℕ) (above : 1 ≤ index) (below : index < 4) :=
        (version_getD block below).symm.trans (zero _ (by omega))
      rw [bytesLE_version] at high
      have second := (byte_eq_zero (by omega)).mp (high 1 (by omega) (by omega))
      have third := (byte_eq_zero (by omega)).mp (high 2 (by omega) (by omega))
      have fourth := (byte_eq_zero (by omega)).mp (high 3 (by omega) (by omega))
      omega
    · intro position
      rw [← payload_getD]
      exact zero _ (by omega)

/-- A block is the only reading of its bytes when no other place could hold a version. -/
theorem soleReading_iff (named : block.schema.providerId ≠ []) :
    block.SoleReading ↔ ∀ offset, VersionAt (contentBytes [block]) offset →
      offset = block.schema.providerId.length := by
  have length : (contentBytes [block]).length =
      block.schema.providerId.length + 4 + block.payload.length := by
    simp [contentBytes, bytes_length]
  have name := List.length_pos_iff.mpr named
  have empty : block.payload = [] ↔ block.payload.length = 0 := List.length_eq_zero_iff.symm
  rw [CheckpointBlock.SoleReading, front_zero_iff named, back_zero_iff, empty]
  constructor
  · rintro ⟨front, back⟩ offset ⟨positive, room, position, first, last, nonzero⟩
    by_contra apart
    obtain before | behind := lt_or_gt_of_ne apart
    · obtain one | zero := front
      · omega
      · exact nonzero (zero position (by omega) (by omega))
    · obtain none | zero := back
      · omega
      · exact nonzero (zero position (by omega))
  · intro only
    constructor
    · by_contra other
      push Not at other
      obtain ⟨long, position, first, last, nonzero⟩ := other
      have place := only (min position (block.schema.providerId.length - 1))
        ⟨by omega, by omega, position, by omega, by omega, nonzero⟩
      omega
    · by_contra other
      push Not at other
      obtain ⟨some, position, first, nonzero⟩ := other
      have inside : position < (contentBytes [block]).length := by
        by_contra beyond
        exact nonzero (List.getD_eq_default _ _ (not_lt.mp beyond))
      have place := only (max (position - 3) (block.schema.providerId.length + 1))
        ⟨by omega, by omega, position, by omega, by omega, nonzero⟩
      omega

end Sole

section Readings

/-- Fields of known lengths are read off the front. -/
theorem head_eq {one other : CheckpointBlock} {rest others : List CheckpointBlock}
    (name : one.schema.providerId.length = other.schema.providerId.length)
    (same : contentBytes (one :: rest) = contentBytes (other :: others)) :
    one.schema = other.schema ∧
      one.payload ++ contentBytes rest = other.payload ++ contentBytes others := by
  rw [contentBytes_cons, contentBytes_cons] at same
  obtain ⟨names, same⟩ := List.append_inj same name
  obtain ⟨versions, same⟩ := List.append_inj same (by rw [bytesLE_length, bytesLE_length])
  have values := congrArg valueLE versions
  rw [valueLE_bytesLE 4 _ (UInt32.toNat_lt _), valueLE_bytesLE 4 _ (UInt32.toNat_lt _)] at values
  have version := UInt32.toNat_inj.mp values
  refine ⟨?_, same⟩
  revert names version
  rcases one.schema with ⟨_, _⟩
  rcases other.schema with ⟨_, _⟩
  rintro rfl rfl
  rfl

theorem block_eq {one other : CheckpointBlock} (schema : one.schema = other.schema)
    (payload : one.payload = other.payload) : one = other := by
  cases one
  cases other
  exact congrArg₂ CheckpointBlock.mk schema payload

theorem contentBytes_ne_nil (block : CheckpointBlock) (rest : List CheckpointBlock) :
    contentBytes (block :: rest) ≠ [] := by
  refine List.ne_nil_of_length_pos ?_
  rw [contentBytes_cons]
  simp only [List.length_append, bytesLE_length]
  omega

theorem InProviderOrder.first_version {block : CheckpointBlock} {rest : List CheckpointBlock}
    (ordered : InProviderOrder (block :: rest)) :
    VersionAt (contentBytes (block :: rest)) block.schema.providerId.length := by
  have place := ordered.head_version []
  rwa [List.nil_append, List.length_nil, Nat.zero_add] at place

theorem InProviderOrder.second_version {block second : CheckpointBlock}
    {rest : List CheckpointBlock} (ordered : InProviderOrder (block :: second :: rest)) :
    VersionAt (contentBytes (block :: second :: rest))
      (block.bytes.length + second.schema.providerId.length) :=
  ordered.tail.head_version block.bytes

/-- The lengths of the variable fields. -/
def shape (blocks : List CheckpointBlock) : List (ℕ × ℕ) :=
  blocks.map fun block => (block.schema.providerId.length, block.payload.length)

/-- Lists whose fields have the same lengths are told apart. -/
theorem eq_of_shape {blocks others : List CheckpointBlock} (lengths : shape others = shape blocks)
    (same : contentBytes others = contentBytes blocks) : others = blocks := by
  induction blocks generalizing others with
  | nil => exact List.map_eq_nil_iff.mp lengths
  | cons block rest ih =>
    obtain ⟨other, later, rfl, fields, lengths⟩ := List.map_eq_cons_iff.mp lengths
    obtain ⟨name, payload⟩ := Prod.mk.inj fields
    obtain ⟨schema, same⟩ := head_eq name same
    obtain ⟨payloads, same⟩ := List.append_inj same payload
    rw [block_eq schema payloads, ih lengths same]

theorem SoleReading.eq {blocks others : List CheckpointBlock} (ordered : InProviderOrder blocks)
    (sole : SoleReading blocks) (accepted : InProviderOrder others)
    (same : contentBytes others = contentBytes blocks) : others = blocks := by
  cases blocks with
  | nil =>
    cases others with
    | nil => rfl
    | cons other rest => exact absurd same (contentBytes_ne_nil other rest)
  | cons block more =>
    cases more with
    | cons second more => exact sole.elim
    | nil =>
      have only := (soleReading_iff (ordered.named block List.mem_cons_self)).mp sole
      rw [← same] at only
      cases others with
      | nil => exact absurd same.symm (contentBytes_ne_nil block [])
      | cons other rest =>
        have name := only _ accepted.first_version
        obtain ⟨schema, payload⟩ := head_eq name same
        cases rest with
        | nil =>
          rw [block_eq schema (List.append_cancel_right payload)]
        | cons second rest =>
          have twice := only _ accepted.second_version
          rw [bytes_length] at twice
          omega

/-- Any other place for a version is another list with the same bytes. -/
theorem soleReading_of_alone {blocks : List CheckpointBlock} (ordered : InProviderOrder blocks)
    (alone : ToldApart blocks) : SoleReading blocks := by
  cases blocks with
  | nil => trivial
  | cons block more =>
    cases more with
    | nil =>
      refine (soleReading_iff (ordered.named block List.mem_cons_self)).mpr fun offset place => ?_
      obtain ⟨other, accepted, same, length⟩ := place.reading
      by_contra apart
      refine alone [other] accepted (fun equal => apart ?_) same
      rw [← length, (List.cons.inj equal).1]
    | cons second more =>
      obtain ⟨other, accepted, same, _⟩ := ordered.second_version.reading
      refine alone [other] accepted (fun equal => ?_) same
      exact absurd (List.cons.inj equal).2.symm (List.cons_ne_nil second more)

/-- The bytes the hash folds tell a list of blocks from every other one just when it has no
other reading, and from every list with fields of the same lengths. -/
theorem content_hash_sees_iff {blocks : List CheckpointBlock} (ordered : InProviderOrder blocks) :
    authoritativeCheckpointHash blocks = mixBytes 14695981039346656037 (contentBytes blocks) ∧
      (ToldApart blocks ↔ SoleReading blocks) ∧
      ∀ others, shape others = shape blocks → others ≠ blocks →
        contentBytes others ≠ contentBytes blocks :=
  ⟨authoritativeCheckpointHash_eq blocks,
    ⟨soleReading_of_alone ordered, fun sole _ accepted apart same =>
      apart (sole.eq ordered accepted same)⟩,
    fun _ lengths apart same => apart (eq_of_shape lengths same)⟩

/-- A provider `a` of version 1 with the payload 5. -/
def shortName : List CheckpointBlock := [⟨⟨[97], 1⟩, [5]⟩]

/-- The same bytes with one more of them in the name. -/
def longName : List CheckpointBlock := [⟨⟨[97, 1], 83886080⟩, []⟩]

theorem shortName_ordered : InProviderOrder shortName :=
  ⟨by decide, by decide, List.pairwise_singleton _ _⟩

theorem longName_ordered : InProviderOrder longName :=
  ⟨by decide, by decide, List.pairwise_singleton _ _⟩

theorem shortName_not_alone : ¬ ToldApart shortName := by
  intro alone
  have sole := (content_hash_sees_iff shortName_ordered).2.1.mp alone
  exact absurd sole (by simp [SoleReading, CheckpointBlock.SoleReading, shortName])

theorem content_hash_misses_a_difference :
    ¬ ∀ blocks, InProviderOrder blocks → ToldApart blocks := by
  intro sees
  exact sees shortName shortName_ordered longName longName_ordered (by decide) (by decide)

end Readings

end GeoWorld.Persistence
