import Mathlib
import GeoWorld.Library.TreeMap
import GeoWorld.WorldModel.Object

/-!
Sessions, external commands and receipts of the gateway, free of any transport.
A client submits an intent (`CommandParams`) and is answered by receipts.
-/

namespace GeoWorld.Gateway

open WorldModel Library

inductive GatewayError where
  | none
  | protocolIncompatible
  | authFailed
  | permissionDenied
  | rateLimited
  | invalidRequest
  | limitExceeded
  | ticketInvalid
  | epochMismatch
  | ackUnknown
  | baselineUnavailable
  | slowClient
  | versionConflict
  | missingObject
  | tickOutOfWindow
  | unsupportedOperation
  | idempotencyConflict
  | durabilityUnavailable
  deriving DecidableEq

/-- `SessionId`; the value 0 is the invalid id. -/
abbrev SessionId := UInt64

structure Principal where
  id : ByteString
  administrator : Bool := false
  deriving DecidableEq

inductive CommandParams where
  | setProperty (key : ByteString) (value : Value)
  | createObject (requestedId : WorldId) (semanticType geometryRef : ByteString)
      (position : PositionEcef) (properties : PropertyBag)
  | destroyObject
  deriving DecidableEq

def durableRequestIdBytes : Nat := 16

abbrev DurableRequestId := Vector UInt8 durableRequestIdBytes

structure ExternalCommand where
  session : SessionId
  clientSequence : UInt64
  targetWid : WorldId
  params : CommandParams
  expectedObjectVersion : UInt64 := 0
  targetTickHint : UInt64 := 0
  requestId : Option DurableRequestId := none
  deriving DecidableEq

inductive ReceiptStatus where
  | accepted
  | applied
  | rejected
  | duplicate
  | durableAccepted
  deriving DecidableEq

structure CommandReceipt where
  status : ReceiptStatus := .accepted
  error : GatewayError := .none
  clientSequence : UInt64 := 0
  ingressSequence : UInt64 := 0
  durableLsn : UInt64 := 0
  deriving DecidableEq

end GeoWorld.Gateway
