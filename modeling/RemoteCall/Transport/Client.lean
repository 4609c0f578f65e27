import RemoteCall.Call.Process
import RemoteCall.RequestIds
import RemoteCall.Transport.Pool.Step

/-! The client's end of remote calls.

A call leases a connection, enters the table of pending calls, makes sure that the
connection is not closed, queues its frame, gives the connection back and waits. Whatever
comes in on any connection is matched to the pending call with the same request id.

Calls, readers, writers and closings take their steps in any order, so the client is a
machine like the pool inside it: each `Action` is one step, and an action that is not
possible changes nothing. A connection closes in three steps: it is marked, its room is
given back, and the calls that are pending on it fail. -/
namespace RemoteCall.Transport

/-! ### Calls -/

abbrev CallId := Nat

/-- How far a call has come. -/
inductive CallPhase where
  /-- It has its request id and nothing else. -/
  | starting
  /-- It has sent an attempt to the pool. -/
  | acquiring (a : AttemptId)
  /-- It has its connection and a ticket in the table. -/
  | registered (a : AttemptId) (c : ConnectionId) (t : TicketId)
  /-- It has found the connection not closed. -/
  | checked (a : AttemptId) (c : ConnectionId) (t : TicketId)
  /-- Its frame is queued. -/
  | queued (a : AttemptId) (c : ConnectionId) (t : TicketId)
  /-- It has given its connection back. -/
  | waiting (c : ConnectionId) (t : TicketId)
  | ended (answer : Answer)
  | abandoned
  deriving Repr

structure ClientCall where
  address : String
  message : Message
  phase : CallPhase := .starting
  deriving Repr

/-- What a caller may ask for. -/
inductive Wish where
  | request (r : Request)
  | heartBeat
  deriving DecidableEq, Repr

def Wish.message (w : Wish) (layout : Layout) (serializer : Serializer) (id : UInt64) : Message :=
  match w with
  | request r => .request layout serializer id r
  | heartBeat => .heartBeat layout serializer id

/-- What an answer means to a caller who sent a request. -/
def Answer.response : Answer → Outcome
  | .ok m => match m.body with
    | .response r => .ok r
    | body => .error (.frame (.unexpectedBody body.type))
  | .error e => .error e

/-- What an answer means to a caller who sent a heartbeat. -/
def Answer.pong : Answer → Except CallError Unit
  | .ok m => match m.body with
    | .heartBeat => .ok ()
    | body => .error (.frame (.unexpectedBody body.type))
  | .error e => .error e

/-- What a caller may leave behind that goes away. -/
structure Departure where
  /-- The connection that was being made for it. -/
  connection : Option ConnectionId := none
  /-- The ticket under which it stood in the table. -/
  ticket : Option TicketId := none
  deriving DecidableEq, Repr

/-! ### Connections -/

/-- What the tasks of a connection keep in mind. -/
structure Wire where
  decoder : FrameStream
  /-- What the latest bytes held and is not handled yet. -/
  inbox : List FrameItem := []
  /-- Whether anything is read any more. -/
  reading : Bool := true
  /-- Frames that wait to be written. -/
  queue : List Bytes := []
  /-- The frames that were written, first to last. -/
  written : List Bytes := []
  /-- Why the connection was closed, if its own tasks closed it. -/
  reason : Option CallError := none
  /-- Whether the calls on it have failed after its closing. -/
  failed : Bool := false

/-! ### The client -/

/-- How far the end of a client has come. -/
inductive Closing where
  | no
  | begun
  | poolShut
  | complete
  deriving DecidableEq, Repr

structure Client where
  config : TransportConfig
  pool : Pool
  pending : Pending := {}
  ids : RequestIds := {}
  calls : List ClientCall := []
  /-- The connections that something has happened on. -/
  wires : List (ConnectionId × Wire) := []
  closing : Closing := .no

namespace Client

inductive Action where
  /-- Somebody wants something of an address. -/
  | call (address : String) (wish : Wish)
  /-- A call takes its next step. -/
  | proceed (n : CallId)
  /-- Nobody takes frames out of the queue any more. -/
  | writerGone (n : CallId)
  | timeOut (n : CallId)
  /-- The caller goes away while the call waits for something. -/
  | abandon (n : CallId)
  /-- The pool takes a step of its own. -/
  | pool (a : Pool.Action)
  /-- Bytes come in. -/
  | receive (c : ConnectionId) (chunk : Bytes)
  /-- One of the frames that came in is handled; behind the last of them the reader stops
  if the boundaries are lost. -/
  | handle (c : ConnectionId)
  | endOfStream (c : ConnectionId)
  | readFails (c : ConnectionId) (reason : String)
  /-- A queued frame is written. -/
  | write (c : ConnectionId)
  | writeFails (c : ConnectionId) (reason : String)
  /-- The calls on a closed connection fail. -/
  | fail (c : ConnectionId)
  | shutDown
  | shutPool
  | failAll
  deriving Repr

def new (config : TransportConfig) : Client :=
  { config := config, pool := { config := config.pool } }

/-! ### Parts -/

def wire (cl : Client) (c : ConnectionId) : Wire :=
  (cl.wires.lookup c).getD { decoder := .new cl.config.maxBody.toNat }

def setWire (cl : Client) (c : ConnectionId) (w : Wire) : Client :=
  { cl with wires := (c, w) :: cl.wires.filter fun (d, _) => d ≠ c }

def setPhase (cl : Client) (n : CallId) (phase : CallPhase) : Client :=
  { cl with calls := cl.calls.modify n fun call => { call with phase := phase } }

def poolStep (cl : Client) (a : Pool.Action) : Client := { cl with pool := cl.pool.step a }

def closedError (cl : Client) (c : ConnectionId) : CallError :=
  .transport (.connectionClosed (cl.pool.addressOf c))

/-! ### Steps of a call -/

def start (cl : Client) (address : String) (wish : Wish) : Client :=
  let (id, ids) := cl.ids.fresh
  { cl with
    ids := ids
    calls := cl.calls ++
      [{ address := address, message := wish.message cl.config.layout cl.config.serializer id }] }

/-- A call asks the pool for a connection, unless the client is shut down or its message
cannot be written. -/
def begin (cl : Client) (n : CallId) (call : ClientCall) : Client :=
  if cl.closing ≠ .no then cl.setPhase n (.ended (.error (.transport .shutDown)))
  else match call.message.encode with
    | .error e => cl.setPhase n (.ended (.error (.frame e)))
    | .ok _ => (cl.poolStep (.arrive call.address)).setPhase n (.acquiring cl.pool.attempts.length)

/-- A call enters the table once it has its connection. -/
def enter (cl : Client) (n : CallId) (call : ClientCall) (a : AttemptId) : Client :=
  match cl.pool.phase? a with
  | some (.leased c) =>
    let (t, pending) := cl.pending.register call.message.header.requestId c
    { cl with pending := pending }.setPhase n (.registered a c t)
  | some (.failed e) => cl.setPhase n (.ended (.error (.transport e)))
  | _ => cl

/-- A call that cannot be sent takes itself out of the table, ends, and gives its
connection back. -/
def withdraw (cl : Client) (n : CallId) (call : ClientCall) (a : AttemptId) (c : ConnectionId) :
    Client :=
  ({ cl with pending := (cl.pending.cancel call.message.header.requestId).2 }.poolStep
    (.release a)).setPhase n (.ended (.error (cl.closedError c)))

/-- A call queues its frame once there is room. -/
def enqueue (cl : Client) (n : CallId) (call : ClientCall) (a : AttemptId) (c : ConnectionId)
    (t : TicketId) : Client :=
  let w := cl.wire c
  match call.message.encode with
  | .error _ => cl
  | .ok b =>
    if w.queue.length < writeQueueCapacity then
      ((cl.setWire c { w with queue := w.queue ++ [b] }).poolStep (.queue c)).setPhase n
        (.queued a c t)
    else cl

/-- A call looks at its ticket. -/
def look (cl : Client) (n : CallId) (c : ConnectionId) (t : TicketId) : Client :=
  match cl.pending.collect t with
  | (.answered answer, pending) => { cl with pending := pending }.setPhase n (.ended answer)
  | (.closed, pending) =>
    { cl with pending := pending }.setPhase n (.ended (.error (cl.closedError c)))
  | (.waiting, _) => cl

def proceed (cl : Client) (n : CallId) (call : ClientCall) : Client :=
  match call.phase with
  | .starting => cl.begin n call
  | .acquiring a => cl.enter n call a
  | .registered a c t =>
    if cl.pool.socketClosed c then cl.withdraw n call a c else cl.setPhase n (.checked a c t)
  | .checked a c t => cl.enqueue n call a c t
  | .queued a c t => (cl.poolStep (.release a)).setPhase n (.waiting c t)
  | .waiting c t => cl.look n c t
  | .ended _ | .abandoned => cl

/-- The frame of a call cannot be queued on a closed connection. -/
def refuseFrame (cl : Client) (n : CallId) (call : ClientCall) : Client :=
  match call.phase with
  | .checked a c _ => if cl.pool.socketClosed c then cl.withdraw n call a c else cl
  | _ => cl

/-- A call that has waited for too long takes itself out of the table. -/
def expire (cl : Client) (n : CallId) (call : ClientCall) : Client :=
  match call.phase with
  | .waiting _ t =>
    let id := call.message.header.requestId
    if (cl.pending.ticket t).waits then
      { cl with pending := (cl.pending.cancel id).2 }.setPhase n
        (.ended (.error (.transport (.responseTimeout id cl.config.responseTimeout.toNat))))
    else cl
  | _ => cl

/-- A call is given up where it waits for something. -/
def giveUp (cl : Client) (n : CallId) (call : ClientCall) : Client :=
  match call.phase with
  | .acquiring a =>
    match cl.pool.phase? a with
    | some .waiting | some (.connecting _) => (cl.poolStep (.abandon a)).setPhase n .abandoned
    | _ => cl
  | .checked a _ t =>
    ({ cl with pending := cl.pending.leave t }.poolStep (.abandon a)).setPhase n .abandoned
  | .waiting _ t => { cl with pending := cl.pending.leave t }.setPhase n .abandoned
  | _ => cl

def onCall (cl : Client) (n : CallId) (f : Client → CallId → ClientCall → Client) : Client :=
  match cl.calls[n]? with
  | some call => f cl n call
  | none => cl

/-! ### Steps of a connection -/

def isOpened (cl : Client) (c : ConnectionId) : Bool := cl.pool.state? c = some .opened

/-- Marks a connection as closed, for a reason if it was not closed before. -/
def mark (cl : Client) (c : ConnectionId) (w : Wire) (reason : CallError) : Client :=
  if cl.isOpened c then (cl.setWire c { w with reason := some reason }).poolStep (.mark c)
  else cl.setWire c w

/-- The reader goes on until it stops, also if somebody else has closed the connection. -/
def receive (cl : Client) (c : ConnectionId) (chunk : Bytes) : Client :=
  let w := cl.wire c
  if w.reading && w.inbox.isEmpty && !w.decoder.poisoned then
    let (items, decoder) := w.decoder.feed chunk
    cl.setWire c { w with inbox := items, decoder := decoder }
  else cl

/-- The answer that a frame, or a faulty one, is to the call with its id. -/
def answerOf : FrameItem → Option (UInt64 × Answer)
  | .ok f => some (f.header.requestId, Message.ofFrame f)
  | .error fault => fault.requestId.map fun id => (id, .error (.frame fault.error))

def takeItem (cl : Client) (item : FrameItem) : Client :=
  match answerOf item with
  | some (id, answer) => { cl with pending := (cl.pending.resolve id answer).2 }
  | none => cl

def undecodable : String := "response stream is no longer decodable"

def handle (cl : Client) (c : ConnectionId) : Client :=
  let w := cl.wire c
  match w.inbox with
  | item :: rest => (cl.setWire c { w with inbox := rest }).takeItem item
  | [] =>
    if w.decoder.poisoned && w.reading then
      cl.mark c { w with reading := false } (.transport (.io (cl.pool.addressOf c) undecodable))
    else cl

/-- The reader stops between two chunks. -/
def stopReading (cl : Client) (c : ConnectionId) (reason : CallError) : Client :=
  let w := cl.wire c
  if w.reading && w.inbox.isEmpty && !w.decoder.poisoned then
    cl.mark c { w with reading := false } reason
  else cl

def write (cl : Client) (c : ConnectionId) : Client :=
  let w := cl.wire c
  match w.queue with
  | b :: rest =>
    (cl.setWire c { w with queue := rest, written := w.written ++ [b] }).poolStep (.write c)
  | [] => cl

def failWriting (cl : Client) (c : ConnectionId) (reason : String) : Client :=
  if cl.isOpened c then
    cl.mark c (cl.wire c) (.transport (.io (cl.pool.addressOf c) reason))
  else cl

/-- The last step of a closing. -/
def fail (cl : Client) (c : ConnectionId) : Client :=
  let w := cl.wire c
  if cl.pool.state? c = some .closed && !w.failed then
    { cl with pending := (cl.pending.failConnection c (w.reason.getD (cl.closedError c))).2 }.setWire
      c { w with failed := true }
  else cl

/-! ### Steps -/

def step (cl : Client) : Action → Client
  | .call address wish => cl.start address wish
  | .proceed n => cl.onCall n proceed
  | .writerGone n => cl.onCall n refuseFrame
  | .timeOut n => cl.onCall n expire
  | .abandon n => cl.onCall n giveUp
  | .pool a => if a.isOwn then cl.poolStep a else cl
  | .receive c chunk => cl.receive c chunk
  | .handle c => cl.handle c
  | .endOfStream c => cl.stopReading c (cl.closedError c)
  | .readFails c reason => cl.stopReading c (.transport (.io (cl.pool.addressOf c) reason))
  | .write c => cl.write c
  | .writeFails c reason => cl.failWriting c reason
  | .fail c => cl.fail c
  | .shutDown => if cl.closing = .no then { cl with closing := .begun } else cl
  | .shutPool =>
    if cl.closing = .begun then { cl.poolStep .shutDown with closing := .poolShut } else cl
  | .failAll =>
    if cl.closing = .poolShut then
      { cl with
        pending := (cl.pending.failAll (.transport .shutDown)).2
        closing := .complete }
    else cl

def run (cl : Client) (actions : List Action) : Client := actions.foldl step cl

/-! ### Use from outside -/

/-- Somebody sends a message of their own, under whatever id. -/
def post (cl : Client) (address : String) (message : Message) : Client :=
  { cl with calls := cl.calls ++ [{ address := address, message := message }] }

/-- What may happen to a client whose parts are used from outside as well. -/
inductive Move where
  | act (a : Action)
  | post (address : String) (message : Message)
  /-- Somebody else uses the pool. -/
  | usePool (a : Pool.Action)
  deriving Repr

def move (cl : Client) : Move → Client
  | .act a => cl.step a
  | .post address message => cl.post address message
  | .usePool a => cl.poolStep a

def play (cl : Client) (moves : List Move) : Client := moves.foldl move cl

/-! ### Looking at it -/

/-- What came of a call, if it has ended. -/
def answer? (cl : Client) (n : CallId) : Option Answer :=
  match cl.calls[n]? with
  | some { phase := .ended answer, .. } => some answer
  | _ => none

/-- What the caller of a call may leave behind if it goes away, which it can only do while the call
waits for something. -/
def departure? (cl : Client) (n : CallId) : Option Departure :=
  match (cl.calls[n]?).map ClientCall.phase with
  | some (.acquiring a) =>
    match cl.pool.phase? a with
    | some .waiting => some {}
    | some (.connecting c) => some { connection := some c }
    | _ => none
  | some (.checked _ _ t) | some (.waiting _ t) => some { ticket := some t }
  | _ => none

/-- What an action may leave behind. -/
def leaves? (cl : Client) : Action → Option Departure
  | .abandon n => cl.departure? n
  | _ => none

end Client
end RemoteCall.Transport
