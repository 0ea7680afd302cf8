import Mathlib
import GeoWorld.Library.PrefixCode
import GeoWorld.Persistence.Branch

/-!
A concrete choice of the libraries under the checkpoint codec: tables as self-delimiting
codes of their fields, CRC32C bit by bit, and no compression.
-/

namespace GeoWorld.Persistence

open WorldModel Library PrefixCode

section Fields

def word8 : PrefixCode UInt8 :=
  (fixed 1).via (fun value => UInt8.ofNat value) (fun word => ⟨word.toNat, word.toNat_lt⟩)
    fun word => by simp

def word32 : PrefixCode UInt32 :=
  (fixed 4).via (fun value => UInt32.ofNat value) (fun word => ⟨word.toNat, word.toNat_lt⟩)
    fun word => by simp

def word64 : PrefixCode UInt64 :=
  (fixed 8).via (fun value => UInt64.ofNat value) (fun word => ⟨word.toNat, word.toNat_lt⟩)
    fun word => by simp

def character : PrefixCode Char :=
  (fixed 4).via (fun value => Char.ofNat value)
    (fun letter => ⟨letter.toNat, letter.val.toNat_lt⟩) fun letter => by simp

def flag : PrefixCode Bool :=
  word8.via (fun word => decide (word ≠ 0)) (fun value => if value then 1 else 0)
    fun value => by cases value <;> rfl

def byteText : PrefixCode ByteString := list word8

def pathCode : PrefixCode Directory := list (list character)

def compressionCode : PrefixCode Compression :=
  word8.via (fun word => if word = 0 then .none else if word = 1 then .zstd else .unknown)
    (fun value => match value with
      | .none => 0
      | .zstd => 1
      | .unknown => 2)
    fun value => by cases value <;> rfl

def anchorCode : PrefixCode CheckpointAnchor :=
  (pair word64 (pair word64 (pair word64 word64))).via
    (fun fields => ⟨fields.1, fields.2.1, fields.2.2.1, fields.2.2.2⟩)
    (fun anchor => (anchor.completedTick, anchor.resumeTick, anchor.includedLsn,
      anchor.worldStateHash)) fun _ => rfl

end Fields

section Tables

def providerBlockCode : PrefixCode ProviderBlockTable :=
  (pair (choice byteText) (pair word32 (pair (choice byteText) word32))).via
    (fun fields => ⟨fields.1, fields.2.1, fields.2.2.1, fields.2.2.2⟩)
    (fun table => (table.providerId, table.schemaVersion, table.payload, table.payloadCrc32c))
    fun _ => rfl

def worldCheckpointCode : PrefixCode WorldCheckpointTable :=
  (pair word32 (pair word64 (pair (choice byteText) (pair anchorCode
    (pair (choice (list providerBlockCode)) word64))))).via
    (fun fields => ⟨fields.1, fields.2.1, fields.2.2.1, fields.2.2.2.1, fields.2.2.2.2.1,
      fields.2.2.2.2.2⟩)
    (fun table => (table.formatVersion, table.worldId, table.branchId, table.anchor, table.blocks,
      table.checkpointContentHash)) fun _ => rfl

def providerSchemaCode : PrefixCode ProviderSchemaEntry :=
  (pair (choice byteText) word32).via (fun fields => ⟨fields.1, fields.2⟩)
    (fun entry => (entry.providerId, entry.schemaVersion)) fun _ => rfl

def checkpointManifestCode : PrefixCode CheckpointManifestTable :=
  (pair (pair word32 (pair word64 (pair (choice byteText) anchorCode)))
    (pair (pair (choice (list providerSchemaCode)) (pair (choice pathCode) word64))
      (pair word32 (pair word64 (pair compressionCode word64))))).via
    (fun fields => {
      formatVersion := fields.1.1
      worldId := fields.1.2.1
      branchId := fields.1.2.2.1
      anchor := fields.1.2.2.2
      providerSchemas := fields.2.1.1
      dataFile := fields.2.1.2.1
      dataLength := fields.2.1.2.2
      dataCrc32c := fields.2.2.1
      dataUncompressedLength := fields.2.2.2.1
      compression := fields.2.2.2.2.1
      checkpointContentHash := fields.2.2.2.2.2 })
    (fun table => ((table.formatVersion, table.worldId, table.branchId, table.anchor),
      (table.providerSchemas, table.dataFile, table.dataLength), table.dataCrc32c,
      table.dataUncompressedLength, table.compression, table.checkpointContentHash))
    fun _ => rfl

def branchManifestCode : PrefixCode BranchManifestTable :=
  (pair (pair word32 (pair word64 (pair (choice byteText) (choice byteText))))
    (pair (pair word64 word64) (pair (pair (choice pathCode) (choice pathCode)) flag))).via
    (fun fields => {
      formatVersion := fields.1.1
      worldId := fields.1.2.1
      branchId := fields.1.2.2.1
      parentBranchId := fields.1.2.2.2
      forkTick := fields.2.1.1
      forkLsn := fields.2.1.2
      baseCheckpoint := fields.2.2.1.1
      overlayWal := fields.2.2.1.2
      sideEffectsEnabled := fields.2.2.2 })
    (fun table => ((table.formatVersion, table.worldId, table.branchId, table.parentBranchId),
      (table.forkTick, table.forkLsn), (table.baseCheckpoint, table.overlayWal),
      table.sideEffectsEnabled)) fun _ => rfl

end Tables

section Checksum

/-- One bit of the reflected Castagnoli polynomial. -/
def crcBit (crc : UInt32) : UInt32 :=
  if crc &&& 1 = 1 then (crc >>> 1) ^^^ 0x82F63B78 else crc >>> 1

def crcByte (crc : UInt32) (byte : UInt8) : UInt32 :=
  crcBit (crcBit (crcBit (crcBit (crcBit (crcBit (crcBit (crcBit (crc ^^^ byte.toUInt32))))))))

/-- The next step gets the computed value, so that a long sum stays small in evaluation. -/
def onValue (crc : UInt32) (next : UInt32 → UInt32) : UInt32 :=
  match crc.toNat with
  | 0 => next 0
  | value + 1 => next (UInt32.ofNat (value + 1))

def crcFrom : ByteString → UInt32 → UInt32
  | [], crc => crc
  | byte :: rest, crc => onValue (crcByte crc byte) (crcFrom rest)

def castagnoli (bytes : ByteString) : UInt32 :=
  crcFrom bytes 0xFFFFFFFF ^^^ 0xFFFFFFFF

example : castagnoli (asciiBytes "123456789".toList) = 0xE3069283 := by decide +kernel

end Checksum

def plainFormats : Formats where
  crc32c := castagnoli
  buildWorldCheckpoint := worldCheckpointCode.write
  readWorldCheckpoint := worldCheckpointCode.readAll
  buildCheckpointManifest := checkpointManifestCode.write
  readCheckpointManifest := checkpointManifestCode.readAll
  buildBranchManifest := branchManifestCode.write
  readBranchManifest := branchManifestCode.readAll
  minCompressionLevel := 1
  maxCompressionLevel := 22
  compress := fun _ _ => none
  decompress := fun _ _ => none

end GeoWorld.Persistence
