import RemoteCall.Message.Codec

/-! Calls that were sent and have no answer yet.

A call leaves a ticket under its request id, with the connection it was sent on. Whatever
settles the call takes its entry out of the table: an answer, the end of its connection,
or the caller's own patience. The ticket keeps the answer until the caller collects
it. -/
namespace RemoteCall.Transport

/-- What settles a call: a message, or why there is none. -/
abbrev Answer : Type := Except CallError Message

/-- A connection by its place in the order in which connections were begun. -/
abbrev ConnectionId := Nat

abbrev TicketId := Nat

inductive Ticket where
  | waiting
  | answered (a : Answer)
  /-- There is no answer and will be none. -/
  | closed
  deriving Repr

def Ticket.waits : Ticket → Bool
  | waiting => true
  | _ => false

/-- A call in the table. -/
structure PendingCall where
  requestId : UInt64
  connection : ConnectionId
  ticket : TicketId
  deriving DecidableEq, Repr

structure Pending where
  calls : List PendingCall := []
  tickets : List Ticket := []
  deriving Repr

namespace Pending

def find? (p : Pending) (id : UInt64) : Option PendingCall :=
  p.calls.find? fun c => c.requestId = id

def ticket (p : Pending) (t : TicketId) : Ticket := (p.tickets[t]?).getD .closed

/-- A ticket that waits gets its lot; any other keeps what it has. -/
def settleTicket (p : Pending) (t : TicketId) (lot : Ticket) : Pending :=
  if (p.ticket t).waits then { p with tickets := p.tickets.set t lot } else p

/-- Takes the call with an id out of the table. -/
def remove (p : Pending) (id : UInt64) : Pending :=
  { p with calls := p.calls.filter fun c => c.requestId ≠ id }

/-- Takes a call out and settles its ticket; says whether there was one. -/
def settle (p : Pending) (id : UInt64) (lot : Ticket) : Bool × Pending :=
  match p.find? id with
  | some c => (true, (p.remove id).settleTicket c.ticket lot)
  | none => (false, p)

/-- Puts a call into the table. One that is there under the same id gets no answer any
more. -/
def register (p : Pending) (id : UInt64) (connection : ConnectionId) : TicketId × Pending :=
  let p := (p.settle id .closed).2
  (p.tickets.length, {
    calls := p.calls ++ [⟨id, connection, p.tickets.length⟩]
    tickets := p.tickets ++ [.waiting] })

/-- An answer has come; says whether anybody waits for it. -/
def resolve (p : Pending) (id : UInt64) (a : Answer) : Bool × Pending := p.settle id (.answered a)

/-- The caller waits no longer. -/
def cancel (p : Pending) (id : UInt64) : Bool × Pending := p.settle id .closed

/-- Answers several calls with one error and counts those that were there. -/
def failEach (p : Pending) (e : CallError) : List UInt64 → Nat × Pending
  | [] => (0, p)
  | id :: rest =>
    let (was, p) := p.resolve id (.error e)
    let (n, p) := p.failEach e rest
    (if was then n + 1 else n, p)

/-- The ids of the calls on a connection. -/
def idsOn (p : Pending) (connection : ConnectionId) : List UInt64 :=
  (p.calls.filter fun c => c.connection = connection).map PendingCall.requestId

/-- A connection has ended. -/
def failConnection (p : Pending) (connection : ConnectionId) (e : CallError) : Nat × Pending :=
  p.failEach e (p.idsOn connection)

def failAll (p : Pending) (e : CallError) : Nat × Pending :=
  p.failEach e (p.calls.map PendingCall.requestId)

/-- The caller looks at its ticket. An answer is there only once. -/
def collect (p : Pending) (t : TicketId) : Ticket × Pending :=
  match p.ticket t with
  | .answered a => (.answered a, { p with tickets := p.tickets.set t .closed })
  | lot => (lot, p)

/-- The caller throws its ticket away; the call stays in the table. -/
def leave (p : Pending) (t : TicketId) : Pending := { p with tickets := p.tickets.set t .closed }

def size (p : Pending) : Nat := p.calls.length

end Pending
end RemoteCall.Transport
