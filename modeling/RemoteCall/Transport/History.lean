import RemoteCall.Transport.Client

/-! What happens to the calls of a client.

The `history` of a run lists what its steps do at the table of pending calls, with what brings
it about. The `course` of a call follows from the history alone: once the call has entered the
table, the first event that concerns it settles it for good. -/
namespace RemoteCall.Transport

inductive Event where
  /-- A call enters the table, with its connection. -/
  | entered (n : CallId) (c : ConnectionId)
  /-- Bytes come in. -/
  | received (c : ConnectionId) (chunk : Bytes)
  /-- A frame that came in, or a faulty one, is handled. -/
  | arrived (c : ConnectionId) (item : FrameItem)
  | timedOut (n : CallId)
  /-- The frame of a call cannot be sent. -/
  | unsent (n : CallId)
  /-- The calls on a closed connection fail. -/
  | failed (c : ConnectionId) (e : CallError)
  /-- All calls fail because the client is shut down. -/
  | shut

/-- The request id of a call: they are numbered in order, from 1 on. -/
def requestIdOf (n : CallId) : UInt64 := UInt64.ofNat (n + 1)

namespace Event

/-- What an event makes of a call that is pending on a connection under an id. -/
def lot (id : UInt64) (c : ConnectionId) : Event → Option Ticket
  | arrived _ item =>
    match Client.answerOf item with
    | some (other, a) => if id = other then some (.answered a) else none
    | none => none
  | timedOut n | unsent n => if id = requestIdOf n then some .closed else none
  | failed d e => if c = d then some (.answered (.error e)) else none
  | shut => some (.answered (.error (.transport .shutDown)))
  | entered _ _ | received _ _ => none

def isEntry (n : CallId) : Event → Bool
  | entered m _ => m = n
  | _ => false

def isFailure (c : ConnectionId) : Event → Bool
  | failed d _ => d = c
  | _ => false

/-- The bytes that come in on a connection. -/
def bytesOn (c : ConnectionId) : Event → Bytes
  | received d chunk => if d = c then chunk else []
  | _ => []

/-- The frame, or the faulty one, that is handled on a connection. -/
def itemOn? (c : ConnectionId) : Event → Option FrameItem
  | arrived d item => if d = c then some item else none
  | _ => none

end Event

/-- How far a call has come with the table. -/
inductive Course where
  | outside
  | pending (c : ConnectionId)
  | settled (c : ConnectionId) (lot : Ticket)

namespace Course

def next (n : CallId) (course : Course) (ev : Event) : Course :=
  match course with
  | outside =>
    match ev with
    | .entered m c => if m = n then pending c else outside
    | _ => outside
  | pending c =>
    match ev.lot (requestIdOf n) c with
    | some lot => settled c lot
    | none => pending c
  | settled c lot => settled c lot

end Course

def course (n : CallId) (history : List Event) : Course := history.foldl (Course.next n) .outside

namespace Client

/-- Whether bytes that come in on a connection are taken. -/
def takes (cl : Client) (c : ConnectionId) : Bool :=
  (cl.wire c).reading && (cl.wire c).inbox.isEmpty && !(cl.wire c).decoder.poisoned

/-- What the next step of a call does at the table. -/
def proceedEvent? (cl : Client) (n : CallId) (call : ClientCall) : Option Event :=
  match call.phase with
  | .acquiring a =>
    match cl.pool.phase? a with
    | some (.leased c) => some (.entered n c)
    | _ => none
  | .registered _ c _ => if cl.pool.socketClosed c then some (.unsent n) else none
  | _ => none

def refusalEvent? (cl : Client) (n : CallId) (call : ClientCall) : Option Event :=
  match call.phase with
  | .checked _ c _ => if cl.pool.socketClosed c then some (.unsent n) else none
  | _ => none

def expiryEvent? (cl : Client) (n : CallId) (call : ClientCall) : Option Event :=
  match call.phase with
  | .waiting _ t => if (cl.pending.ticket t).waits then some (.timedOut n) else none
  | _ => none

/-- What a step does at the table, or brings in. -/
def event? (cl : Client) : Action → Option Event
  | .proceed n => (cl.calls[n]?).bind (cl.proceedEvent? n)
  | .writerGone n => (cl.calls[n]?).bind (cl.refusalEvent? n)
  | .timeOut n => (cl.calls[n]?).bind (cl.expiryEvent? n)
  | .receive c chunk => if cl.takes c then some (.received c chunk) else none
  | .handle c => (cl.wire c).inbox.head?.map (.arrived c)
  | .fail c =>
    if cl.pool.state? c = some .closed && !(cl.wire c).failed then
      some (.failed c ((cl.wire c).reason.getD (cl.closedError c)))
    else none
  | .failAll => if cl.closing = .poolShut then some .shut else none
  | .call _ _ | .abandon _ | .pool _ | .endOfStream _ | .readFails _ _ | .write _ | .writeFails _ _
  | .shutDown | .shutPool => none

def history (cl : Client) : List Action → List Event
  | [] => []
  | a :: rest => (cl.event? a).toList ++ (cl.step a).history rest

/-- How often an id leaves the table of pending calls. -/
def exits (id : UInt64) (cl : Client) : List Action → Nat
  | [] => 0
  | a :: rest =>
    (if (cl.pending.find? id).isSome && ((cl.step a).pending.find? id).isNone then 1 else 0)
      + exits id (cl.step a) rest

end Client
end RemoteCall.Transport
