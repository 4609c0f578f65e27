import RemoteCall.Config
import RemoteCall.Transport.Pending

/-! A bounded set of connections for every address.

A caller that wants to send leases a connection: an idle one, else a new one while there
is room, else the first that comes free before its patience ends. Connections are
leased only while a message is queued on them. Every address counts the connections it
has room taken by; a connection gives its room back when it closes.

This module holds the state of a pool, and the two things that all its steps are made of:
to give and take room, and to call those who wait for it. The steps are in
`Transport.Pool.Step`. -/
namespace RemoteCall.Transport

/-- An address pool by its place in the order of creation. -/
abbrev PoolId := Nat

/-- A caller's wish for a connection, by its place in the order of arrival. -/
abbrev AttemptId := Nat

abbrev WarmUpId := Nat

/-- A connection takes so many messages before it counts as backlogged. -/
def writeQueueCapacity : Nat := 256

/-! ### Connections -/

inductive SocketState where
  | connecting
  | opened
  /-- Marked as closed, with its room not given back yet. -/
  | closing
  | closed
  | refused
  /-- Whoever was connecting has gone away. -/
  | lost
  deriving DecidableEq, Repr

structure Socket where
  pool : PoolId
  state : SocketState
  /-- Messages that wait to be written. -/
  queued : Nat := 0
  deriving DecidableEq, Repr

namespace Socket

/-- Whether the connection takes up room. -/
def takesRoom (s : Socket) : Bool :=
  match s.state with
  | .connecting | .opened | .closing | .lost => true
  | .closed | .refused => false

def isClosed (s : Socket) : Bool := s.state = .closing || s.state = .closed

/-- Open, and not backlogged. -/
def usable (s : Socket) : Bool := s.state = .opened && s.queued < writeQueueCapacity

end Socket

/-! ### Addresses -/

structure AddressPool where
  address : String
  /-- Room that is taken. -/
  live : Nat := 0
  idle : List ConnectionId := []
  busy : List ConnectionId := []
  /-- A call that nobody was there to hear. -/
  spareCall : Bool := false
  /-- Who waits to be called, longest first. -/
  waiting : List AttemptId := []
  deriving DecidableEq, Repr

/-! ### Attempts -/

/-- What an attempt has heard of changes at its address. -/
inductive Ear where
  | off
  | listening
  /-- It was called, and nobody else was for the same change. -/
  | called
  /-- Everybody was called. -/
  | calledWithAll
  /-- It took up a spare call. -/
  | heard
  deriving DecidableEq, Repr

inductive AttemptPhase where
  /-- Next it listens for changes. -/
  | arrived
  /-- Next it looks for an idle connection. -/
  | looking
  /-- There was none; next it tries to take room for a new one. -/
  | claiming
  | connecting (c : ConnectionId)
  /-- There was no room either. -/
  | waiting
  | leased (c : ConnectionId)
  | done
  | failed (e : TransportError)
  deriving DecidableEq, Repr

structure Attempt where
  address : String
  /-- The address pool that it was sent to, unless it was turned away. -/
  pool : Option PoolId
  ear : Ear := .off
  phase : AttemptPhase
  deriving DecidableEq, Repr

/-- Whether the attempt still needs its address pool. -/
def Attempt.holds (a : Attempt) (k : PoolId) : Bool :=
  a.pool = some k && match a.phase with
    | .done | .failed _ => false
    | _ => true

/-- A background task that opens the first connections of an address. -/
structure WarmUp where
  pool : PoolId
  left : Nat
  connecting : Option ConnectionId := none
  deriving DecidableEq, Repr

def WarmUp.ended (w : WarmUp) : Bool := w.left = 0 && w.connecting.isNone

/-! ### The pool -/

structure Pool where
  config : PoolConfig
  /-- Every address pool that was ever created. -/
  pools : List AddressPool := []
  /-- The one in use for each address. -/
  current : Dict PoolId := []
  /-- Every connection that was ever begun. -/
  sockets : List Socket := []
  attempts : List Attempt := []
  warmUps : List WarmUp := []
  shutDown : Bool := false
  deriving DecidableEq, Repr

/-- Counts of the connections of an address. -/
structure PoolStats where
  live : Nat
  idle : Nat
  busy : Nat
  deriving DecidableEq, Repr

namespace Pool

/-- Most connections to one address. -/
def limit (p : Pool) : Nat := max p.config.maxSize.toNat 1

def socketUsable (p : Pool) (c : ConnectionId) : Bool :=
  match p.sockets[c]? with
  | some s => s.usable
  | none => false

def socketClosed (p : Pool) (c : ConnectionId) : Bool :=
  match p.sockets[c]? with
  | some s => s.isClosed
  | none => true

def modifyPool (p : Pool) (k : PoolId) (f : AddressPool → AddressPool) : Pool :=
  { p with pools := p.pools.modify k f }

def modifySocket (p : Pool) (c : ConnectionId) (f : Socket → Socket) : Pool :=
  { p with sockets := p.sockets.modify c f }

def modifyAttempt (p : Pool) (a : AttemptId) (f : Attempt → Attempt) : Pool :=
  { p with attempts := p.attempts.modify a f }

def setPhase (p : Pool) (a : AttemptId) (phase : AttemptPhase) : Pool :=
  p.modifyAttempt a fun x => { x with phase := phase }

def setEar (p : Pool) (a : AttemptId) (ear : Ear) : Pool :=
  p.modifyAttempt a fun x => { x with ear := ear }

def setState (p : Pool) (c : ConnectionId) (state : SocketState) : Pool :=
  p.modifySocket c fun s => { s with state := state }

/-! ### Calls -/

/-- Calls who has waited longest, or leaves a spare call. -/
def callOne (p : Pool) (k : PoolId) : Pool :=
  match p.pools[k]? with
  | none => p
  | some pool =>
    match pool.waiting with
    | [] => p.modifyPool k fun x => { x with spareCall := true }
    | a :: rest => (p.modifyPool k fun x => { x with waiting := rest }).setEar a .called

/-- Calls everybody who waits. -/
def callAll (p : Pool) (k : PoolId) : Pool :=
  match p.pools[k]? with
  | none => p
  | some pool =>
    pool.waiting.foldl (fun p a => p.setEar a .calledWithAll)
      (p.modifyPool k fun x => { x with waiting := [] })

/-- Stops to listen. A call that was for this attempt alone is passed on. -/
def hangUp (p : Pool) (a : AttemptId) : Pool :=
  match p.attempts[a]? with
  | none => p
  | some x =>
    let q := p.setEar a .off
    match x.ear, x.pool with
    | .listening, some k => q.modifyPool k fun y => { y with waiting := y.waiting.erase a }
    | .called, some k => q.callOne k
    | _, _ => q

/-- Starts to listen; a spare call is taken up. -/
def startListening (p : Pool) (a : AttemptId) (k : PoolId) : Pool :=
  match p.pools[k]? with
  | none => p
  | some pool =>
    if pool.spareCall then (p.modifyPool k fun x => { x with spareCall := false }).setEar a .heard
    else (p.modifyPool k fun x => { x with waiting := x.waiting ++ [a] }).setEar a .listening

/-! ### Room -/

/-- One less in a counter of 64 bits, which starts over from its top below zero. -/
def countDown (n : Nat) : Nat := if n = 0 then 0xFFFFFFFFFFFFFFFF else n - 1

/-- Gives room back and tells of it. -/
def giveRoom (p : Pool) (k : PoolId) : Pool :=
  (p.modifyPool k fun x => { x with live := countDown x.live }).callOne k

/-- Takes room for a connection that is begun. -/
def begin (p : Pool) (k : PoolId) : ConnectionId × Pool :=
  (p.sockets.length,
    { p.modifyPool k fun x => { x with live := x.live + 1 } with
      sockets := p.sockets ++ [{ pool := k, state := .connecting }] })

/-- Whether another connection has room. -/
def hasRoom (p : Pool) (k : PoolId) : Bool :=
  match p.pools[k]? with
  | some pool => pool.live < p.limit
  | none => false

/-- Closes an open connection in one go. -/
def close (p : Pool) (c : ConnectionId) : Pool :=
  match p.sockets[c]? with
  | some s => if s.state = .opened then (p.setState c .closed).giveRoom s.pool else p
  | none => p

end Pool
end RemoteCall.Transport
