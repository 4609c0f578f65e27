import RemoteCall.Config
import RemoteCall.Registry.TaskSet
import RemoteCall.Registry.Watch

/-! A client of the registry.

Instances are registered by putting their record into the store for a limited time; the
client remembers those it registered itself and renews them from a background task. A
record that is gone at its renewal is written back. Other background tasks sweep the
store and watch records. Every operation is told the time, and takes and returns the
store. -/
namespace RemoteCall.Registry

/-- A background task between two runs. -/
inductive Job where
  /-- Sweeps the store, next at the given time. -/
  | sweeper (period next : Nat)
  /-- Renews the client's own records. -/
  | heartbeat (period next ttl : Nat)
  | watch (w : Watch)
  deriving DecidableEq, Repr

structure Client where
  config : Option RegistryConfig := none
  /-- The instances that the client registered, by node key. -/
  own : Dict Instance := []
  tasks : TaskSet Job := {}

namespace Client

def sweeperTask : String := "sweeper"

def heartbeatTask : String := "heartbeat"

def watchTask (node : String) : String := "watch:" ++ node

/-! ### Records -/

/-- The record of an instance. -/
def recordOf (i : Instance) : String := Json.write Instance.shape i

def readRecord (key text : String) : Except RegistryError Instance :=
  let b := Utf8.encode text
  match Json.decode Instance.shape b with
  | .ok i => .ok i
  | .error fault => .error (.malformedRecord key (fault.report b))

/-- The records of all instances of a service have keys that begin with this. -/
def serviceRoot (service : String) : String := recordKey (service ++ "/")

/-! ### Operations -/

/-- Takes settings, unless there are some already, and starts to sweep. -/
def init (c : Client) (now : Nat) (config : RegistryConfig) : Client :=
  let config := c.config.getD config
  let period := config.sweepInterval.toNat
  { c with
    config := some config
    tasks := (c.tasks.spawnIfAbsent sweeperTask (.sweeper period now)).2 }

def register (c : Client) (s : Store) (now : Nat) (i : Instance) :
    Except RegistryError Unit × Store × Client :=
  match c.config with
  | none => (.error .notInitialized, s, c)
  | some config =>
    match s.put now (recordKey i.nodeKey) (recordOf i) config.ttl.toNat with
    | (.ok (), s) => (.ok (), s, { c with own := c.own.insert i.nodeKey i })
    | (.error e, s) => (.error e, s, c)

/-- Gives up an instance first and deletes its record then, so that a record which
cannot be deleted is at least not renewed. -/
def unregister (c : Client) (s : Store) (now : Nat) (i : Instance) :
    Except RegistryError Unit × Store × Client :=
  let c := { c with own := c.own.erase i.nodeKey }
  let (deleted, s) := s.delete now (recordKey i.nodeKey)
  (deleted.map fun _ => (), s, c)

/-- The instances of a service, in the order of their keys. -/
def discover (s : Store) (now : Nat) (service : String) :
    Except RegistryError (List Instance) × Store :=
  match s.scan now (serviceRoot service) with
  | (.ok found, s) => (found.mapM fun (key, text) => readRecord key text, s)
  | (.error e, s) => (.error e, s)

/-! ### Renewal -/

/-- Renews one record, or writes it back; says whether that worked. -/
def renewOne (s : Store) (now ttl : Nat) (node : String) (i : Instance) : Bool × Store :=
  match s.refresh now (recordKey node) ttl with
  | (.ok true, s) => (true, s)
  | (.ok false, s) =>
    let (written, s) := s.put now (recordKey node) (recordOf i) ttl
    (written.isOk, s)
  | (.error _, s) => (false, s)

/-- Renews records and counts those that worked. -/
def renewAll (s : Store) (now ttl : Nat) : Dict Instance → Nat × Store
  | [] => (0, s)
  | (node, i) :: rest =>
    let (done, s) := renewOne s now ttl node i
    let (n, s) := renewAll s now ttl rest
    (if done then n + 1 else n, s)

/-- Renews the client's own records at once. -/
def renew (c : Client) (s : Store) (now : Nat) : Except RegistryError Nat × Store :=
  match c.config with
  | none => (.error .notInitialized, s)
  | some config =>
    let (n, s) := renewAll s now config.ttl.toNat c.own
    (.ok n, s)

/-- Starts to renew the client's own records, unless that is under way. -/
def heartBeat (c : Client) (now : Nat) : Except RegistryError Unit × Client :=
  match c.config with
  | none => (.error .notInitialized, c)
  | some config =>
    let job := .heartbeat config.heartbeatInterval.toNat now config.ttl.toNat
    (.ok (), { c with tasks := (c.tasks.spawnIfAbsent heartbeatTask job).2 })

/-! ### Watching -/

/-- Watches a record unless it is watched already. If it is gone, the listener is called
at once; the call is handed to the caller. -/
def watch (c : Client) (s : Store) (now : Nat) (node : String) (listener : Listener) :
    Except RegistryError (Option Notice) × Store × Client :=
  if c.tasks.isRunning (watchTask node) then (.ok none, s, c)
  else
    let w : Watch := ⟨node, listener, s.events.length⟩
    match s.get now (recordKey node) with
    | (.error e, s) => (.error e, s, c)
    | (.ok none, s) => (.ok (some w.notice), s, c)
    | (.ok (some _), s) =>
      (.ok none, s, { c with tasks := (c.tasks.spawnIfAbsent (watchTask node) (.watch w)).2 })

/-- Stops all tasks and takes back all registrations as far as the store lets it. -/
def destroy (c : Client) (s : Store) (now : Nat) : Store × Client :=
  let s := c.own.keys.foldl (fun s node => (s.delete now (recordKey node)).2) s
  (s, { c with own := [], tasks := c.tasks.abortAll })

/-! ### Background tasks -/

/-- The first time after `now` at which a task with the given period is due again. -/
def nextDue (period next now : Nat) : Nat := next + ((now - next) / period + 1) * period

/-- When a task has to run by itself, if ever. A period of zero cannot be kept. -/
def due? : Job → Option Nat
  | .sweeper _ next => some next
  | .heartbeat _ next _ => some next
  | .watch _ => none

/-- A task that is due runs. It makes up for missed turns at once, and more than one
turn at the same moment is no more than one. -/
def runDue (c : Client) (s : Store) (now : Nat) (id : TaskId) (job : Job) : Store × Client :=
  match job with
  | .sweeper period next =>
    if now < next then (s, c)
    else if period = 0 then (s, { c with tasks := c.tasks.finish id })
    else ((s.sweep now).2,
      { c with tasks := c.tasks.update id (.sweeper period (nextDue period next now)) })
  | .heartbeat period next ttl =>
    if now < next then (s, c)
    else if period = 0 then (s, { c with tasks := c.tasks.finish id })
    else ((renewAll s now ttl c.own).2,
      { c with tasks := c.tasks.update id (.heartbeat period (nextDue period next now) ttl) })
  | .watch _ => (s, c)

/-- A watch goes on. -/
def goOn (c : Client) (id : TaskId) (w : Watch) : Watch.Next → Option Notice × Client
  | .wait => (none, c)
  | .listen w => (none, { c with tasks := c.tasks.update id (.watch w) })
  | .fire => (some w.notice, { c with tasks := c.tasks.finish id })

/-- A watch hears at most so many announcements. -/
def hear (c : Client) (s : Store) (id : TaskId) (count : Nat) (job : Job) :
    Option Notice × Client :=
  match job with
  | .watch w => c.goOn id w (w.listenAll s.events count)
  | _ => (none, c)

/-- A watch hears what was announced. -/
def runWatch (c : Client) (s : Store) (id : TaskId) (job : Job) : Option Notice × Client :=
  match job with
  | .watch w => c.goOn id w (w.run s.events)
  | _ => (none, c)

end Client
end RemoteCall.Registry
