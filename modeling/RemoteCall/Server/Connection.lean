import RemoteCall.Frame.Stream
import RemoteCall.Server.Endpoint

/-! One connection as its server sees it.

Every request that comes in is handed to a handler, and handlers finish in any order;
each reply is written when its handler is done. A heartbeat is sent back as it came. What
is neither a request nor a heartbeat, or cannot be read, is passed over, and nothing is
read any more once the boundaries of the frames are lost. -/
namespace RemoteCall.Server

/-- A request whose handler has not finished. -/
structure Job where
  header : Header
  request : Request
  deriving DecidableEq, Repr

structure Connection where
  decoder : FrameStream
  running : List Job := []
  /-- The frames that were written, first to last. -/
  replies : List Bytes := []
  deriving DecidableEq, Repr

namespace Connection

def new (maxBody : Nat) : Connection := { decoder := .new maxBody }

/-- Writes a message; one that cannot be written is left out. -/
def write (c : Connection) (m : Message) : Connection :=
  match m.encode with
  | .ok b => { c with replies := c.replies ++ [b] }
  | .error _ => c

def badRequest (e : CallError) : Response := .failure "bad request" e.message

/-- Takes a frame that announces a request. -/
def takeRequest (c : Connection) (f : Frame) : Connection :=
  match Message.ofFrame f with
  | .ok ⟨_, .request r⟩ => { c with running := c.running ++ [⟨f.header, r⟩] }
  | .ok _ => c
  | .error e => c.write (.replyTo f.header .badRequest (badRequest e))

def takeFrame (c : Connection) (f : Frame) : Connection :=
  match f.header.type with
  | .heartBeat => c.write ⟨f.header, .heartBeat⟩
  | .request => c.takeRequest f
  | .response | .others => c

def takeItem (c : Connection) : FrameItem → Connection
  | .ok f => c.takeFrame f
  | .error _ => c

/-- Bytes come in. -/
def receive (c : Connection) (chunk : Bytes) : Connection :=
  let (items, decoder) := c.decoder.feed chunk
  items.foldl takeItem { c with decoder := decoder }

/-- The reply to a request. -/
def replyOf (endpoint : Endpoint) (job : Job) : Message :=
  let (status, response) :=
    endpoint.dispatch ⟨job.header.serializer, job.header.requestId⟩ job.request
  .replyTo job.header status response

/-- One of the handlers finishes. -/
def finish (endpoint : Endpoint) (c : Connection) (n : Nat) : Connection :=
  match c.running[n]? with
  | some job => { c with running := c.running.eraseIdx n }.write (replyOf endpoint job)
  | none => c

/-- All handlers finish, in the order in which they were started. -/
def finishAll (endpoint : Endpoint) (c : Connection) : Connection :=
  c.running.foldl (fun c job => c.write (replyOf endpoint job)) { c with running := [] }

end Connection
end RemoteCall.Server
