import RemoteCall.Call.Flights
import RemoteCall.Transport.Client

/-! Callers that may go away.

The callers of one consumer share its balancer and its client. Each of them carries out the course
of its call step by step; where the course sends a request, the client makes a call of it, and the
caller waits until that has ended. A caller that waits for something may go away. Then its course
goes no further, whatever it still had to do, and the client gives up what the caller waited for.

Each `Action` is one step of one caller or of the client, and one that is not possible changes
nothing. -/
namespace RemoteCall

/-- Whether a process waits for something that is not a call. -/
def Process.rests {α : Type} : Process α → Bool
  | discover _ _ | pause _ _ => true
  | done _ | cleanup _ _ | select _ _ _ | send _ _ _ | release _ _ | report _ _ _ => false

structure Caller where
  flight : Flight
  /-- The call at the client that it waits for. -/
  sent : Option Transport.CallId := none
  /-- Whether it has gone away. -/
  gone : Bool := false

/-- What a caller may leave behind at the client if it goes away, which it can only do while it
waits for something. -/
def Caller.departure? (cl : Transport.Client) (c : Caller) : Option Transport.Departure :=
  if c.gone then none
  else match c.sent with
    | some m => cl.departure? m
    | none => if c.flight.rest.rests then some {} else none

structure Callers where
  client : Transport.Client
  balancer : Balancer
  all : List Caller := []

namespace Callers
open Transport (Client Departure)

inductive Action where
  /-- A request is made. -/
  | invoke (r : Request)
  /-- A caller takes its next step. This is the answer if it asks for instances. -/
  | step (n : Nat) (found : Except RegistryError (List Instance))
  /-- The listing of a caller goes by the counter of an address. -/
  | visit (n : Nat) (address : String)
  /-- A caller goes away. -/
  | leave (n : Nat)
  /-- The client takes a step of its own. -/
  | client (a : Client.Action)

/-- Nobody has called yet, and the balancer counts calls. -/
def new (config : TransportConfig) : Callers :=
  { client := .new config, balancer := .leastActive {} }

/-! ### Steps -/

/-- A caller takes the next step of its course. -/
def advance (x : Callers) (n : Nat) (c : Caller) (found : Except RegistryError (List Instance))
    (outcome : Outcome) : Callers :=
  let (flight, balancer) := c.flight.step x.balancer found outcome
  { x with balancer := balancer, all := x.all.modify n fun _ => { flight := flight } }

/-- A caller has the client make a call. -/
def send (x : Callers) (n : Nat) (request : Request) (target : Instance) : Callers :=
  { x with
    client := x.client.step (.call target.address (.request request))
    all := x.all.modify n fun c => { c with sent := some x.client.calls.length } }

/-- What comes of a request, as a caller knows it before its next step; nothing as long as it has to
send the request or to wait for its end. -/
def outcome? (x : Callers) (c : Caller) : Option Outcome :=
  match c.sent, c.flight.rest with
  | some m, _ => (x.client.answer? m).map Transport.Answer.response
  | none, .send _ _ _ => none
  -- No other step asks what comes of a request.
  | none, _ => some (.error (.transport .shutDown))

def proceed (x : Callers) (n : Nat) (c : Caller) (found : Except RegistryError (List Instance)) :
    Callers :=
  if c.gone then x
  else match x.outcome? c with
    | some outcome => x.advance n c found outcome
    | none =>
      match c.sent, c.flight.rest with
      | none, .send request target _ => x.send n request target
      | _, _ => x

def visit (x : Callers) (n : Nat) (c : Caller) (address : String) : Callers :=
  if c.gone then x
  else
    let (flight, balancer) := c.flight.visit x.balancer address
    { x with balancer := balancer, all := x.all.modify n fun c => { c with flight := flight } }

/-- A caller that waits for something goes away, and what it waits for is given up. -/
def goAway (x : Callers) (n : Nat) (c : Caller) : Callers :=
  if (c.departure? x.client).isNone then x
  else
    { x with
      client := match c.sent with
        | some m => x.client.step (.abandon m)
        | none => x.client
      all := x.all.modify n fun c => { c with gone := true } }

/-- Whether the client takes a step that is not its own: it gives up what a caller waits for. -/
def refuses (x : Callers) : Client.Action → Bool
  | .abandon m => x.all.any fun c => c.sent = some m
  | _ => false

def step (s : Strategies) (x : Callers) : Action → Callers
  | .invoke r =>
    { x with
      all := x.all ++ [{ flight := { rest := Pipeline.invokeWith s.retry s.tolerate r } }] }
  | .step n found =>
    match x.all[n]? with
    | some c => x.proceed n c found
    | none => x
  | .visit n address =>
    match x.all[n]? with
    | some c => x.visit n c address
    | none => x
  | .leave n =>
    match x.all[n]? with
    | some c => x.goAway n c
    | none => x
  | .client a => if x.refuses a then x else { x with client := x.client.step a }

def run (s : Strategies) (x : Callers) : List Action → Callers
  | [] => x
  | a :: rest => run s (x.step s a) rest

/-! ### What can be said of a run -/

/-- What an action may leave behind at the client. -/
def departure? (x : Callers) : Action → Option Departure
  | .leave n => (x.all[n]?).bind (Caller.departure? x.client)
  | .client a => if x.refuses a then none else x.client.leaves? a
  | _ => none

/-- What those who went away in a run may have left behind, first to last. -/
def departures (s : Strategies) (x : Callers) : List Action → List Departure
  | [] => []
  | a :: rest => (x.departure? a).toList ++ departures s (x.step s a) rest

/-- The step that a caller takes with an action in the course of its call. -/
def course? (x : Callers) : Action → Option Flights.Action
  | .invoke r => some (.invoke r)
  | .step n found =>
    (x.all[n]?).bind fun c =>
      if c.gone then none else (x.outcome? c).map fun outcome => .step n found outcome
  | .visit n address =>
    (x.all[n]?).bind fun c => if c.gone then none else some (.visit n address)
  | .leave _ | .client _ => none

/-- The steps that the callers take in the courses of their calls. -/
def courses (s : Strategies) (x : Callers) : List Action → List Flights.Action
  | [] => []
  | a :: rest => (x.course? a).toList ++ courses s (x.step s a) rest

/-- How many callers have selected an instance at an address and not released it, of those who are
still there or of those who have gone away. -/
def holders (x : Callers) (gone : Bool) (address : String) : Nat :=
  x.all.countP fun c => c.gone = gone && c.flight.isTo address

end Callers
end RemoteCall
