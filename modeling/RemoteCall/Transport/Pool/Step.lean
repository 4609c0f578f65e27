import RemoteCall.Transport.Pool.Basic

/-! The steps of a pool of connections.

Many callers, background openings and closings run at once, so the pool is a machine:
each `Action` is one step that nothing else can interrupt, and an action that is not
possible changes nothing. -/
namespace RemoteCall.Transport.Pool

inductive Action where
  /-- A caller wants a connection to an address. -/
  | arrive (address : String)
  | listen (a : AttemptId)
  /-- Takes a connection out of the idle ones. -/
  | take (a : AttemptId) (c : ConnectionId)
  | noneIdle (a : AttemptId)
  | claim (a : AttemptId)
  | connected (a : AttemptId)
  | refused (a : AttemptId) (e : TransportError)
  /-- Goes on after a call. -/
  | wake (a : AttemptId)
  | timeOut (a : AttemptId)
  /-- Gives its connection back. -/
  | release (a : AttemptId)
  /-- The caller goes away. -/
  | abandon (a : AttemptId)
  /-- A message is queued on a connection. -/
  | queue (c : ConnectionId)
  /-- A queued message is written. -/
  | write (c : ConnectionId)
  /-- Marks a connection as closed. -/
  | mark (c : ConnectionId)
  /-- Gives the room of a marked connection back. -/
  | free (c : ConnectionId)
  /-- The next connection of a background opening. -/
  | warm (w : WarmUpId)
  | warmConnected (w : WarmUpId)
  | warmRefused (w : WarmUpId)
  | shutDown
  /-- Forgets addresses without use. -/
  | prune
  deriving DecidableEq, Repr

/-- Whether a step belongs to the pool alone, and not to a caller or to the tasks that
read and write. -/
def Action.isOwn : Action → Bool
  | listen _ | take _ _ | noneIdle _ | claim _ | connected _ | refused _ _ | wake _ | timeOut _
  | free _ | warm _ | warmConnected _ | warmRefused _ | prune => true
  | arrive _ | release _ | abandon _ | queue _ | write _ | mark _ | shutDown => false

/-! ### Addresses in use -/

def used (p : Pool) (k : PoolId) : Bool :=
  p.attempts.any (fun a => a.holds k) || p.warmUps.any fun w => w.pool = k && !w.ended

/-- Whether nothing is left of an address pool. -/
def unused (p : Pool) (k : PoolId) : Bool :=
  match p.pools[k]? with
  | some pool => !p.used k && pool.live = 0 && pool.idle.isEmpty && pool.busy.isEmpty
  | none => true

def dropClosedIdle (p : Pool) : Pool :=
  p.current.values.foldl (fun p k =>
    p.modifyPool k fun x => { x with idle := x.idle.filter fun c => !p.socketClosed c }) p

def prune (p : Pool) : Pool :=
  let p := p.dropClosedIdle
  { p with current := p.current.filter fun (_, k) => !p.unused k }

/-- A new address pool, with its background opening. -/
def create (p : Pool) (address : String) : PoolId × Pool :=
  let k := p.pools.length
  (k, { p with
    pools := p.pools ++ [{ address := address }]
    current := p.current.insert address k
    warmUps := p.warmUps ++ [{ pool := k, left := p.config.minSize.toNat }] })

/-- The address pool in use for an address, created if there is none. -/
def poolFor (p : Pool) (address : String) : PoolId × Pool :=
  match p.current.find? address with
  | some k => (k, p)
  | none => p.prune.create address

/-! ### Steps -/

def arrive (p : Pool) (address : String) : Pool :=
  if p.shutDown then
    { p with attempts := p.attempts ++ [⟨address, none, .off, .failed .shutDown⟩] }
  else
    let (k, p) := p.poolFor address
    { p with attempts := p.attempts ++ [⟨address, some k, .off, .arrived⟩] }

def listen (p : Pool) (a : AttemptId) (k : PoolId) : Pool :=
  let p := p.startListening a k
  if p.shutDown then (p.hangUp a).setPhase a (.failed .shutDown) else p.setPhase a .looking

/-- An attempt gets a connection. -/
def lease (p : Pool) (a : AttemptId) (k : PoolId) (c : ConnectionId) : Pool :=
  ((p.modifyPool k fun x => { x with busy := x.busy ++ [c] }).hangUp a).setPhase a (.leased c)

/-- A connection that is idle and unusable is closed instead of taken. -/
def take (p : Pool) (a : AttemptId) (k : PoolId) (c : ConnectionId) : Pool :=
  match p.pools[k]? with
  | none => p
  | some pool =>
    if pool.idle.contains c then
      let p := p.modifyPool k fun x => { x with idle := x.idle.erase c }
      if p.socketUsable c then p.lease a k c else p.close c
    else p

def claim (p : Pool) (a : AttemptId) (k : PoolId) : Pool :=
  if p.hasRoom k then
    let (c, p) := p.begin k
    p.setPhase a (.connecting c)
  else p.setPhase a .waiting

def refuse (p : Pool) (a : AttemptId) (k : PoolId) (c : ConnectionId) (e : TransportError) :
    Pool :=
  (((p.setState c .refused).giveRoom k).hangUp a).setPhase a (.failed e)

/-- A connection comes back. It stays idle unless it is of no use any more. To drop a lease is one
step: nobody else comes between the look at the pool, the connection being idle and the call. -/
def release (p : Pool) (a : AttemptId) (k : PoolId) (c : ConnectionId) : Pool :=
  let p := p.modifyPool k fun x => { x with busy := x.busy.erase c }
  let p := if p.shutDown || !p.socketUsable c then p.close c
    else p.modifyPool k fun x => { x with idle := x.idle ++ [c] }
  (p.callOne k).setPhase a .done

/-- The step of one attempt. -/
def stepAttempt (p : Pool) (a : AttemptId) (k : PoolId) (phase : AttemptPhase) (ear : Ear)
    (address : String) (action : Action) : Pool :=
  match action, phase with
  | .listen _, .arrived => p.listen a k
  | .take _ c, .looking => p.take a k c
  | .noneIdle _, .looking =>
    match p.pools[k]? with
    | some pool => if pool.idle.isEmpty then p.setPhase a .claiming else p
    | none => p
  | .claim _, .claiming => p.claim a k
  | .connected _, .connecting c => (p.setState c .opened).lease a k c
  | .refused _ e, .connecting c => p.refuse a k c e
  | .wake _, .waiting =>
    if ear = .off || ear = .listening then p else (p.setEar a .off).setPhase a .arrived
  | .timeOut _, .waiting =>
    if ear = .listening then
      (p.hangUp a).setPhase a (.failed (.poolTimeout address p.config.acquireTimeout.toNat))
    else p
  | .release _, .leased c => p.release a k c
  | .abandon _, .leased c => p.release a k c
  | .abandon _, .waiting => (p.hangUp a).setPhase a .done
  | .abandon _, .connecting c => ((p.setState c .lost).hangUp a).setPhase a .done
  | _, _ => p

def onAttempt (p : Pool) (a : AttemptId) (action : Action) : Pool :=
  match p.attempts[a]? with
  | some x =>
    match x.pool with
    | some k => p.stepAttempt a k x.phase x.ear x.address action
    | none => p
  | none => p

def setWarmUp (p : Pool) (w : WarmUpId) (x : WarmUp) : Pool :=
  { p with warmUps := p.warmUps.set w x }

/-- A background opening goes on as long as connections are missing. -/
def warm (p : Pool) (w : WarmUpId) (x : WarmUp) : Pool :=
  match p.pools[x.pool]?, x.connecting, x.left with
  | some pool, none, left + 1 =>
    if p.shutDown || p.config.minSize.toNat ≤ pool.live || !p.hasRoom x.pool then
      p.setWarmUp w { x with left := 0 }
    else
      let (c, p) := p.begin x.pool
      p.setWarmUp w { x with left := left, connecting := some c }
  | _, _, _ => p

def warmConnected (p : Pool) (w : WarmUpId) (x : WarmUp) : Pool :=
  match x.connecting with
  | some c =>
    let p := (p.setState c .opened).modifyPool x.pool fun y => { y with idle := y.idle ++ [c] }
    (p.callOne x.pool).setWarmUp w { x with connecting := none }
  | none => p

def warmRefused (p : Pool) (w : WarmUpId) (x : WarmUp) : Pool :=
  match x.connecting with
  | some c =>
    ((p.setState c .refused).giveRoom x.pool).setWarmUp w { x with left := 0, connecting := none }
  | none => p

def onWarmUp (p : Pool) (w : WarmUpId) (f : Pool → WarmUpId → WarmUp → Pool) : Pool :=
  match p.warmUps[w]? with
  | some x => f p w x
  | none => p

/-- Closes every connection that is idle or leased. -/
def closeAll (p : Pool) (k : PoolId) : Pool :=
  match p.pools[k]? with
  | none => p
  | some pool =>
    let p := (pool.idle ++ pool.busy).foldl close p
    (p.modifyPool k fun x => { x with idle := [], busy := [] }).callAll k

def beginShutDown (p : Pool) : Pool :=
  if p.shutDown then p
  else p.current.values.foldl closeAll { p with shutDown := true }

def onSocket (p : Pool) (c : ConnectionId) (f : Socket → Pool) : Pool :=
  match p.sockets[c]? with
  | some s => f s
  | none => p

def step (p : Pool) (action : Action) : Pool :=
  match action with
  | .arrive address => p.arrive address
  | .listen a | .take a _ | .noneIdle a | .claim a | .connected a | .refused a _ | .wake a
  | .timeOut a | .release a | .abandon a => p.onAttempt a action
  | .queue c => p.onSocket c fun s =>
    if s.queued < writeQueueCapacity then p.modifySocket c fun s => { s with queued := s.queued + 1 }
    else p
  | .write c => p.modifySocket c fun s => { s with queued := s.queued - 1 }
  | .mark c => p.onSocket c fun s => if s.state = .opened then p.setState c .closing else p
  | .free c => p.onSocket c fun s =>
    if s.state = .closing then (p.setState c .closed).giveRoom s.pool else p
  | .warm w => p.onWarmUp w warm
  | .warmConnected w => p.onWarmUp w warmConnected
  | .warmRefused w => p.onWarmUp w warmRefused
  | .shutDown => p.beginShutDown
  | .prune => p.prune

def run (p : Pool) (actions : List Action) : Pool := actions.foldl step p

/-! ### Looking at it -/

def stats (p : Pool) (address : String) : Option PoolStats := do
  let k ← p.current.find? address
  let pool ← p.pools[k]?
  let idle := (pool.idle.filter fun c => !p.socketClosed c).length
  some ⟨pool.live, idle, pool.live - idle⟩

/-- The address that a connection leads to. -/
def addressOf (p : Pool) (c : ConnectionId) : String :=
  match p.sockets[c]? with
  | some s => ((p.pools[s.pool]?).map AddressPool.address).getD ""
  | none => ""

def state? (p : Pool) (c : ConnectionId) : Option SocketState := (p.sockets[c]?).map Socket.state

def phase? (p : Pool) (a : AttemptId) : Option AttemptPhase := (p.attempts[a]?).map Attempt.phase

/-- Whether an attempt has no connection that is open. -/
def leaseClosed (p : Pool) (a : AttemptId) : Bool :=
  match p.phase? a with
  | some (.leased c) => p.socketClosed c
  | _ => true

end RemoteCall.Transport.Pool
