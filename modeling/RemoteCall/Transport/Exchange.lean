import RemoteCall.Call.Consumer
import RemoteCall.Transport.Client
import RemoteCall.Transport.Network

/-! A client and the servers it talks to.

What one end of a connection writes arrives at the other in the order in which it was
written, cut into pieces anywhere and at any time. Everything else may happen in any
order; each `Action` is one step, and one that is not possible changes nothing.

`settle` takes steps until none is left to take. It always takes the first one possible
in a fixed order, so what comes out is determined. -/
namespace RemoteCall.Transport

/-- The server's end of a connection. -/
structure FarEnd where
  address : String
  connection : Server.Connection
  /-- How many of the client's bytes have arrived. -/
  heard : Nat := 0
  /-- How many of the server's bytes have arrived at the client. -/
  told : Nat := 0

structure Exchange where
  network : Network
  client : Client
  ends : List (ConnectionId × FarEnd) := []

namespace Exchange

inductive Action where
  | client (a : Client.Action)
  /-- What becomes of the connecting of an attempt. -/
  | connect (a : AttemptId)
  /-- What becomes of the connecting of a background opening. -/
  | warmConnect (w : WarmUpId)
  /-- So many bytes arrive at the server. -/
  | deliver (c : ConnectionId) (count : Nat)
  /-- One of the handlers at the server's end finishes. -/
  | finish (c : ConnectionId) (n : Nat)
  /-- So many bytes arrive at the client. -/
  | bring (c : ConnectionId) (count : Nat)
  deriving Repr

/-- Whether the client can take a step without the network. -/
def isLocal : Client.Action → Bool
  | .receive _ _ | .pool (.connected _) | .pool (.warmConnected _) => false
  | _ => true

def new (network : Network) (config : TransportConfig) : Exchange :=
  { network := network, client := .new config }

/-! ### Steps -/

def clientStep (x : Exchange) (a : Client.Action) : Exchange := { x with client := x.client.step a }

def farEnd? (x : Exchange) (c : ConnectionId) : Option FarEnd := x.ends.lookup c

def setEnd (x : Exchange) (c : ConnectionId) (e : FarEnd) : Exchange :=
  { x with ends := (c, e) :: x.ends.filter fun (d, _) => d ≠ c }

/-- The error of a connection that cannot be made. -/
def connectError (address : String) (f : LinkFault) : TransportError := .connect address f.reason

/-- A connection is made, or not. -/
def meet (x : Exchange) (c : ConnectionId) (made : Pool.Action)
    (notMade : TransportError → Pool.Action) : Exchange :=
  let address := x.client.pool.addressOf c
  match x.network.connect address with
  | .ok listener =>
    (x.clientStep (.pool made)).setEnd c
      { address := address, connection := .new listener.maxBody }
  | .error fault => x.clientStep (.pool (notMade (connectError address fault)))

def connect (x : Exchange) (a : AttemptId) : Exchange :=
  match x.client.pool.phase? a with
  | some (.connecting c) => x.meet c (.connected a) (.refused a)
  | _ => x

def warmConnect (x : Exchange) (w : WarmUpId) : Exchange :=
  match x.client.pool.warmUps[w]? with
  | some { connecting := some c, .. } => x.meet c (.warmConnected w) fun _ => .warmRefused w
  | _ => x

/-- What the client has written and the server has not heard. -/
def unheard (x : Exchange) (c : ConnectionId) (e : FarEnd) : Bytes :=
  (x.client.wire c).written.flatten.drop e.heard

/-- What the server has written and the client has not been told. -/
def untold (e : FarEnd) : Bytes := e.connection.replies.flatten.drop e.told

def deliver (x : Exchange) (c : ConnectionId) (count : Nat) : Exchange :=
  match x.farEnd? c with
  | some e =>
    let chunk := (x.unheard c e).take count
    x.setEnd c { e with
      connection := e.connection.receive chunk
      heard := e.heard + chunk.length }
  | none => x

/-- The handlers of the server at an address. -/
def endpointAt (x : Exchange) (address : String) : Server.Endpoint :=
  ((x.network.listeners.find? address).map Listener.endpoint).getD {}

def finish (x : Exchange) (c : ConnectionId) (n : Nat) : Exchange :=
  match x.farEnd? c with
  | some e => x.setEnd c { e with connection := e.connection.finish (x.endpointAt e.address) n }
  | none => x

/-- The client reads a piece once it has handled the one before. -/
def bring (x : Exchange) (c : ConnectionId) (count : Nat) : Exchange :=
  match x.farEnd? c with
  | some e =>
    let chunk := (untold e).take count
    if (x.client.wire c).inbox.isEmpty then
      (x.clientStep (.receive c chunk)).setEnd c { e with told := e.told + chunk.length }
    else x
  | none => x

def step (x : Exchange) : Action → Exchange
  | .client a => if isLocal a then x.clientStep a else x
  | .connect a => x.connect a
  | .warmConnect w => x.warmConnect w
  | .deliver c count => x.deliver c count
  | .finish c n => x.finish c n
  | .bring c count => x.bring c count

def run (x : Exchange) (actions : List Action) : Exchange := actions.foldl step x

/-! ### What can be done next -/

/-- Whether a call has a step to take. -/
def callReady (cl : Client) (call : ClientCall) : Bool :=
  match call.phase with
  | .starting | .registered _ _ _ | .queued _ _ _ => true
  | .acquiring a =>
    match cl.pool.phase? a with
    | some (.leased _) | some (.failed _) => true
    | _ => false
  | .checked _ c _ => (cl.wire c).queue.length < writeQueueCapacity
  | .waiting _ t => !(cl.pending.ticket t).waits
  | .ended _ | .abandoned => false

def callStep? (cl : Client) : Option Action :=
  (cl.calls.findIdx? (callReady cl)).map fun n => .client (.proceed n)

/-- The step that an attempt can take in the pool. -/
def attemptStep? (p : Pool) (n : AttemptId) (a : Attempt) : Option Pool.Action :=
  match a.phase with
  | .arrived => some (.listen n)
  | .looking =>
    match (a.pool.bind (p.pools[·]?)).bind fun k => k.idle.head? with
    | some c => some (.take n c)
    | none => some (.noneIdle n)
  | .claiming => some (.claim n)
  | .waiting => if a.ear = .off || a.ear = .listening then none else some (.wake n)
  | .connecting _ | .leased _ | .done | .failed _ => none

def warmStep? (n : WarmUpId) (w : WarmUp) : Option Pool.Action :=
  if w.connecting.isNone && w.left ≠ 0 then some (.warm n) else none

def socketStep? (cl : Client) (c : ConnectionId) (s : Socket) : Option Action :=
  match s.state with
  | .closing => some (.client (.pool (.free c)))
  | .closed => if (cl.wire c).failed then none else some (.client (.fail c))
  | _ => none

def poolStep? (cl : Client) : Option Action :=
  let own (a : Pool.Action) : Action := .client (.pool a)
  (cl.pool.attempts.zipIdx.findSome? fun (a, n) => (attemptStep? cl.pool n a).map own)
    <|> (cl.pool.warmUps.zipIdx.findSome? fun (w, n) => (warmStep? n w).map own)
    <|> cl.pool.sockets.zipIdx.findSome? fun (s, c) => socketStep? cl c s

def connectStep? (p : Pool) : Option Action :=
  (p.warmUps.zipIdx.findSome? fun (w, n) => w.connecting.map fun _ => .warmConnect n)
    <|> p.attempts.zipIdx.findSome? fun (a, n) => match a.phase with
      | .connecting _ => some (.connect n)
      | _ => none

def wireStep? (cl : Client) : Option Action :=
  cl.wires.findSome? fun (c, w) =>
    if !w.inbox.isEmpty || (w.decoder.poisoned && w.reading) then some (.client (.handle c))
    else if !w.queue.isEmpty then some (.client (.write c))
    else none

/-- What is under way arrives. A server that cannot read on hangs up when it is done. -/
def farStep? (x : Exchange) : Option Action :=
  x.ends.findSome? fun (c, e) =>
    let unheard := x.unheard c e
    let untold := untold e
    if !unheard.isEmpty then some (.deliver c unheard.length)
    else if !e.connection.running.isEmpty then some (.finish c 0)
    else if !untold.isEmpty then some (.bring c untold.length)
    else if e.connection.decoder.poisoned && x.client.isOpened c && (x.client.wire c).reading then
      some (.client (.endOfStream c))
    else none

/-- The first step that is possible. -/
def next? (x : Exchange) : Option Action :=
  callStep? x.client <|> poolStep? x.client <|> wireStep? x.client <|> x.farStep?
    <|> connectStep? x.client.pool

/-- Takes up to so many steps. -/
def takeSteps (x : Exchange) : (fuel : Nat) → Exchange
  | 0 => x
  | fuel + 1 =>
    match x.next? with
    | some a => (x.step a).takeSteps fuel
    | none => x

/-- More steps than any work at hand needs. -/
def stepLimit : Nat := 1000000

def settle (x : Exchange) : Exchange := x.takeSteps stepLimit

/-! ### Using it -/

/-- Somebody wants something of an address. -/
def call (x : Exchange) (address : String) (wish : Wish) : CallId × Exchange :=
  (x.client.calls.length, x.step (.client (.call address wish)))

/-- Somebody uses the pool past the client. -/
def poolStep (x : Exchange) (a : Pool.Action) : Exchange :=
  { x with client := x.client.poolStep a }.settle

/-- An attempt at a connection past the client, until it has one or has failed. -/
def acquire (x : Exchange) (address : String) : AttemptId × Exchange :=
  let a := x.client.pool.attempts.length
  (a, (x.poolStep (.arrive address)).poolStep (.timeOut a))

/-- A call that waits for something runs out of time. -/
def expire (x : Exchange) (n : CallId) : Exchange :=
  match (x.client.calls[n]?).map ClientCall.phase with
  | some (.acquiring a) => (x.step (.client (.pool (.timeOut a)))).settle
  | _ => x.step (.client (.timeOut n))

/-- What comes of a call, now that nothing else happens any more. -/
def outcome (x : Exchange) (n : CallId) : Answer × Exchange :=
  let x := x.expire n
  ((x.client.answer? n).getD (.error (.transport .shutDown)), x)

/-- Calls an address and waits for what comes of it. -/
def request (x : Exchange) (address : String) (wish : Wish) : Answer × Exchange :=
  let (n, x) := x.call address wish
  x.settle.outcome n

/-- Calls an address several times at once. -/
def callAll (x : Exchange) (address : String) : List Wish → List CallId × Exchange
  | [] => ([], x)
  | wish :: rest =>
    let (n, x) := x.call address wish
    let (ns, x) := x.callAll address rest
    (n :: ns, x)

def outcomes (x : Exchange) : List CallId → List Answer × Exchange
  | [] => ([], x)
  | n :: rest =>
    let (answer, x) := x.outcome n
    let (answers, x) := x.outcomes rest
    (answer :: answers, x)

/-- Calls an address several times at once and waits for what comes of all the calls. -/
def requestAll (x : Exchange) (address : String) (wishes : List Wish) : List Answer × Exchange :=
  let (ns, x) := x.callAll address wishes
  x.settle.outcomes ns

/-- Sends the requests of a consumer. Time stands still meanwhile. -/
def send : Sender Exchange := fun request target x =>
  let (answer, x) := x.request target.address (.request request)
  ((answer.response, 0), x)

/-- Ends the client. -/
def shutDown (x : Exchange) : Exchange :=
  (((x.step (.client .shutDown)).step (.client .shutPool)).settle.step (.client .failAll)).settle

end Exchange
end RemoteCall.Transport
