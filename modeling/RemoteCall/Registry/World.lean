import RemoteCall.Registry.Cached

/-! Several registry clients over one store, in time.

Time stands still while any task can run, and goes on to the next moment at which one is
due. `settle` lets every task run that can: first those that are due, then the watches,
which hear what the others announced. -/
namespace RemoteCall.Registry

structure World where
  /-- Milliseconds since the beginning. -/
  now : Nat := 0
  store : Store := {}
  members : Dict CachedClient := []

namespace World

/-! ### Tasks -/

/-- The tasks of one client that are due run, in the order they were started. -/
def runDue (now : Nat) (s : Store) (c : CachedClient) : Store × CachedClient :=
  let (s, client) := c.client.tasks.active.foldl
    (fun (s, client) (id, job) => Client.runDue client s now id job) (s, c.client)
  (s, { c with client := client })

/-- The watches of one client hear what was announced. -/
def runWatches (s : Store) (c : CachedClient) : CachedClient :=
  c.client.tasks.active.foldl (fun c (id, job) =>
    let (notice, client) := c.client.runWatch s id job
    { c with client := client }.notify? notice) c

def runAllDue (now : Nat) (s : Store) : Dict CachedClient → Store × Dict CachedClient
  | [] => (s, [])
  | (name, c) :: rest =>
    let (s, c) := runDue now s c
    let (s, rest) := runAllDue now s rest
    (s, (name, c) :: rest)

def settle (w : World) : World :=
  let (store, members) := runAllDue w.now w.store w.members
  { w with store := store, members := members.map fun (name, c) => (name, runWatches store c) }

theorem settle_now (w : World) : w.settle.now = w.now := rfl

/-! ### Time -/

/-- The earliest of some moments. -/
def earliest : List Nat → Option Nat
  | [] => none
  | t :: ts => some (ts.foldl min t)

/-- When the next task is due. -/
def nextDue? (w : World) : Option Nat :=
  earliest (w.members.flatMap fun (_, c) =>
    c.client.tasks.active.filterMap fun (_, job) => Client.due? job)

/-- Time goes on at once; tasks that became due meanwhile run late. -/
def advance (w : World) (ms : Nat) : World := { w with now := w.now + ms }.settle

/-- Time goes on to `target` by way of every moment at which a task is due. -/
def sleepTo (w : World) (target : Nat) : World :=
  match w.nextDue? with
  | none => { w with now := target }.settle
  | some t =>
    if _h : w.now < t ∧ t ≤ target then sleepTo { w with now := t }.settle target
    else { w with now := target }.settle
termination_by target - w.now
decreasing_by
  simp only [settle_now]
  omega

def sleep (w : World) (ms : Nat) : World := w.sleepTo (w.now + ms)

/-! ### Clients -/

def member (w : World) (name : String) : CachedClient := (w.members.find? name).getD {}

/-- Puts a client back after it did something to the store. -/
def withMember (w : World) (name : String) (s : Store) (c : CachedClient) : World :=
  { w with store := s, members := w.members.insert name c }

/-- What was announced after the first `n` announcements. -/
def eventsSince (w : World) (n : Nat) : List Event := w.store.events.drop n

/-! ### What happens in a world -/

/-- Something that a client does, or that happens to the store or the clock. -/
inductive Action where
  | store (op : Store.Op)
  | advance (ms : Nat)
  | sleep (ms : Nat)
  | init (member : String) (config : RegistryConfig)
  | register (member : String) (i : Instance)
  | unregister (member : String) (i : Instance)
  | discover (member service : String)
  /-- Discovers past the cache. -/
  | ask (member service : String)
  | heartBeat (member : String)
  | renew (member : String)
  | watch (member node tag : String)
  | clearCache (member : String)
  | destroy (member : String)

inductive Reply where
  | stored (r : Store.Reply)
  | instances (found : List Instance)
  deriving DecidableEq, Repr

namespace Reply

def done : Reply := .stored .done

def count (n : Nat) : Reply := .stored (.count n)

end Reply

/-- Puts a client back and answers for it. -/
def afterwards (w : World) (name : String)
    (r : Except RegistryError Unit × Store × CachedClient) : Except RegistryError Reply × World :=
  (r.1.map fun () => .done, w.withMember name r.2.1 r.2.2)

/-- Something happens; the background tasks have not run since. -/
def perform (w : World) : Action → Except RegistryError Reply × World
  | .store op =>
    let (r, s) := w.store.apply w.now op
    (r.map .stored, { w with store := s })
  | .advance ms => (.ok .done, w.advance ms)
  | .sleep ms => (.ok .done, w.sleep ms)
  | .init name config => w.afterwards name (.ok (), w.store, (w.member name).init w.now config)
  | .register name i => w.afterwards name ((w.member name).register w.store w.now i)
  | .unregister name i => w.afterwards name ((w.member name).unregister w.store w.now i)
  | .discover name service =>
    let (r, s, c) := (w.member name).discover w.store w.now service
    (r.map .instances, w.withMember name s c)
  | .ask _ service =>
    let (r, s) := Client.discover w.store w.now service
    (r.map .instances, { w with store := s })
  | .heartBeat name =>
    let (r, c) := (w.member name).heartBeat w.now
    w.afterwards name (r, w.store, c)
  | .renew name =>
    let (r, s) := (w.member name).client.renew w.store w.now
    (r.map .count, { w with store := s })
  | .watch name node tag =>
    w.afterwards name ((w.member name).watch w.store w.now node (.outside tag))
  | .clearCache name =>
    let c := w.member name
    w.afterwards name (.ok (), w.store, { c with cache := c.cache.clear })
  | .destroy name =>
    let (s, c) := (w.member name).destroy w.store w.now
    w.afterwards name (.ok (), s, c)

end World
end RemoteCall.Registry
