import Mathlib
import GeoWorld.Gateway.Types
import GeoWorld.Library.LittleEndian
import GeoWorld.Simulation.CommandBuffer

/-!
Canonical bytes of durable commands and their outcomes: fixed-width little-endian
integers, texts behind a 16-bit length, doubles by their bits, properties in the
order of their keys. A text longer than the length field is written whole behind
a truncated length.
-/

namespace GeoWorld.Gateway

open WorldModel Library Simulation

def durableRecordFormatVersion : Nat := 1

namespace Encoder

def putU8 (value : UInt8) : ByteString := [value]

def putU16 (value : Nat) : ByteString := bytesLE 2 value

def putU64 (value : UInt64) : ByteString := bytesLE 8 value.toNat

def putI64 (value : Int64) : ByteString := putU64 value.toUInt64

def putText (text : ByteString) : ByteString := putU16 text.length ++ text

end Encoder

open Encoder

def encodeValue : Value → ByteString
  | .integer value => putU8 0 ++ putI64 value
  | .real bits => putU8 1 ++ putU64 bits
  | .boolean value => putU8 2 ++ putU8 (if value then 1 else 0)
  | .text value => putU8 3 ++ putText value

def encodeParams : CommandParams → ByteString
  | .setProperty key value => putU8 1 ++ putText key ++ encodeValue value
  | .createObject _ semanticType geometryRef position properties =>
    putU8 2 ++ putText semanticType ++ putText geometryRef ++
      putU64 position.x ++ putU64 position.y ++ putU64 position.z ++
      bytesLE 8 properties.size ++
      properties.toList.flatMap fun entry => putText entry.1 ++ encodeValue entry.2
  | .destroyObject => putU8 3

def encodeIdentity (principalId : ByteString) (requestId : DurableRequestId) : ByteString :=
  putU16 durableRecordFormatVersion ++ putText principalId ++ requestId.toList

def makeCommandFingerprint (command : ExternalCommand) : ByteString :=
  putU64 command.clientSequence ++ putU64 command.targetWid ++
    putU64 command.expectedObjectVersion ++ putU64 command.targetTickHint ++
    encodeParams command.params

def encodeExternalCommandRecord (principalId : ByteString) (requestId : DurableRequestId)
    (targetTick : UInt64) (command : ExternalCommand) : ByteString :=
  encodeIdentity principalId requestId ++ putU64 targetTick ++ makeCommandFingerprint command

/-- The 16-bit value of an error in a stored outcome. -/
def GatewayError.code : GatewayError → Nat
  | .none => 0
  | .protocolIncompatible => 1
  | .authFailed => 2
  | .permissionDenied => 3
  | .rateLimited => 4
  | .invalidRequest => 5
  | .limitExceeded => 6
  | .ticketInvalid => 7
  | .epochMismatch => 8
  | .ackUnknown => 9
  | .baselineUnavailable => 10
  | .slowClient => 11
  | .versionConflict => 12
  | .missingObject => 13
  | .tickOutOfWindow => 14
  | .unsupportedOperation => 15
  | .idempotencyConflict => 16
  | .durabilityUnavailable => 17

def encodeCommandOutcomeRecord (principalId : ByteString) (requestId : DurableRequestId)
    (clientSequence ingressSequence : UInt64) (applied : Bool) (error : GatewayError) :
    ByteString :=
  encodeIdentity principalId requestId ++ putU64 clientSequence ++ putU64 ingressSequence ++
    putU8 (if applied then 1 else 0) ++ putU16 error.code

end GeoWorld.Gateway
