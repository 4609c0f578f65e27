import RemoteCall.Frame.Codec
import RemoteCall.Message.Request
import RemoteCall.Message.Response

/-! Messages: a header with a request, a response or nothing as its body.

The header's message type must say what the body is, or the message is not written. A
heartbeat has no body, and one that is received with a body is read without it. -/
namespace RemoteCall

inductive MessageBody where
  | request (r : Request)
  | response (r : Response)
  | heartBeat
  deriving DecidableEq, Repr, Inhabited

/-- The type that the header of such a body must have. -/
def MessageBody.type : MessageBody → MessageType
  | request _ => .request
  | response _ => .response
  | heartBeat => .heartBeat

structure Message where
  header : Header
  body : MessageBody
  deriving DecidableEq, Repr, Inhabited

namespace Message

def request (layout : Layout) (serializer : Serializer) (id : UInt64) (r : Request) : Message :=
  ⟨.new layout serializer .request .ok id, .request r⟩

def response (layout : Layout) (serializer : Serializer) (id : UInt64) (status : Status)
    (r : Response) : Message :=
  ⟨.new layout serializer .response status id, .response r⟩

def heartBeat (layout : Layout) (serializer : Serializer) (id : UInt64) : Message :=
  ⟨.new layout serializer .heartBeat .ok id, .heartBeat⟩

/-- The answer to a message with the given header: it keeps the id, the serializer, the
version and the reserved byte. -/
def replyTo (header : Header) (status : Status) (r : Response) : Message :=
  ⟨{ header with type := .response, status := status, bodyLength := 0 }, .response r⟩

def bodyBytes (m : Message) : Bytes :=
  match m.body with
  | .request r => m.header.serializer.encode Request.shape r
  | .response r => m.header.serializer.encode Response.shape r
  | .heartBeat => []

def encode (m : Message) : Except FrameError Bytes :=
  if m.header.type ≠ m.body.type then .error (.unexpectedBody m.header.type)
  else (Frame.new m.header m.bodyBytes).encode

/-- The message that a frame holds. -/
def ofFrame (f : Frame) : Except CallError Message :=
  match f.header.type with
  | .request =>
    match f.header.serializer.decode Request.shape f.body with
    | .ok r => .ok ⟨f.header, .request r⟩
    | .error e => .error (.value e)
  | .response =>
    match f.header.serializer.decode Response.shape f.body with
    | .ok r => .ok ⟨f.header, .response r⟩
    | .error e => .error (.value e)
  | .heartBeat => .ok ⟨f.header, .heartBeat⟩
  | .others => .error (.frame (.unexpectedBody .others))

def decode (b : Bytes) : Except CallError Message :=
  match Frame.decode b with
  | .ok f => ofFrame f
  | .error e => .error (.frame e)

end Message
end RemoteCall
