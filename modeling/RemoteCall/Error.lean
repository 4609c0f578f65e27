import RemoteCall.Frame.Field
import RemoteCall.Text.Hex

/-! What can go wrong with a call, and the wording of each cause.

Causes are grouped by where they arise: in framing bytes, in reading or writing a
value, on the network path, at the service registry. `CallError` is what a caller of
the whole pipeline sees. Only faults of the network path are worth another attempt
(`CallError.retryable`). -/
namespace RemoteCall

/-! ### Framing -/

inductive FrameError where
  | badMagic (byte : UInt8)
  | unsupportedVersion (byte : UInt8)
  | unknownSerializer (id : UInt8)
  | unknownMessageType (id : UInt8)
  | unknownStatus (id : UInt8)
  | idsTooWide (serializer type : UInt8)
  | truncated (expected actual : Nat)
  | bodyTooLarge (length max : Nat)
  | unexpectedBody (type : MessageType)
  | streamPoisoned
  deriving DecidableEq, Repr, Inhabited

def FrameError.message : FrameError → String
  | badMagic b => "invalid protocol magic 0x" ++ Hex.byte b
  | unsupportedVersion b => "unsupported protocol version 0x" ++ Hex.byte b
  | unknownSerializer id => s!"unknown serializer id {id.toNat}"
  | unknownMessageType id => s!"unknown message type id {id.toNat}"
  | unknownStatus id => s!"unknown message status {id.toNat}"
  | idsTooWide s t =>
    s!"serializer id {s.toNat} / message type {t.toNat} do not fit the packed layout"
  | truncated expected actual => s!"truncated frame: needed {expected} bytes, got {actual}"
  | bodyTooLarge length max => s!"frame body of {length} bytes exceeds the {max} byte limit"
  | unexpectedBody t => s!"message type {t.name} does not carry a body of this kind"
  | streamPoisoned => "frame stream is poisoned by an earlier corrupt frame"

/-! ### Values -/

/-- A value that could not be written or read. The columnar format gives no reasons. -/
inductive ValueError where
  | serialize (serializer : Serializer) (reason : Option String)
  | deserialize (serializer : Serializer) (reason : Option String)
  deriving DecidableEq, Repr, Inhabited

/-- A reason, if there is one, behind a colon. -/
def withReason (what : String) : Option String → String
  | none => what
  | some reason => s!"{what}: {reason}"

def ValueError.message : ValueError → String
  | serialize s reason => withReason s!"{s.name} serialization failed" reason
  | deserialize s reason => withReason s!"{s.name} deserialization failed" reason

/-! ### The network path -/

inductive TransportError where
  | connect (address reason : String)
  | connectTimeout (address : String) (timeoutMs : Nat)
  | connectionClosed (address : String)
  | io (address reason : String)
  | responseTimeout (requestId : UInt64) (timeoutMs : Nat)
  | poolTimeout (address : String) (timeoutMs : Nat)
  | shutDown
  deriving DecidableEq, Repr, Inhabited

def TransportError.message : TransportError → String
  | connect address reason => s!"failed to connect to {address}: {reason}"
  | connectTimeout address ms => s!"connecting to {address} timed out after {ms}ms"
  | connectionClosed address => s!"connection to {address} closed"
  | io address reason => s!"socket I/O error on {address}: {reason}"
  | responseTimeout id ms => s!"no response for request {id.toNat} within {ms}ms"
  | poolTimeout address ms =>
    s!"no pooled connection to {address} became available within {ms}ms"
  | shutDown => "transport has been shut down"

/-! ### The registry -/

inductive RegistryError where
  | unreachable (reason : String)
  | malformedRecord (key reason : String)
  | notInitialized
  | backend (reason : String)
  deriving DecidableEq, Repr, Inhabited

def RegistryError.message : RegistryError → String
  | unreachable reason => s!"registry backend unreachable: {reason}"
  | malformedRecord key reason => s!"malformed registry record under {key}: {reason}"
  | notInitialized => "registry has not been initialized"
  | backend reason => s!"registry backend error: {reason}"

/-! ### The whole pipeline -/

inductive CallError where
  | frame (e : FrameError)
  | transport (e : TransportError)
  | registry (e : RegistryError)
  | value (e : ValueError)
  | noAvailableInstance (service : String)
  /-- The provider ran the call and reported a failure. -/
  | remote (reason : String)
  deriving DecidableEq, Repr, Inhabited

def CallError.message : CallError → String
  | frame e => e.message
  | transport e => e.message
  | registry e => e.message
  | value e => e.message
  | noAvailableInstance service => s!"no available instance for service {service}"
  | remote reason => s!"remote invocation failed: {reason}"

/-- Everything but a fault of the network path would fail the same way again. -/
def CallError.retryable : CallError → Bool
  | transport _ => true
  | _ => false

end RemoteCall
