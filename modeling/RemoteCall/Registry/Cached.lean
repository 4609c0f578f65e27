import RemoteCall.Registry.Client

/-! A registry client that remembers what it discovered.

A discovery that the cache cannot answer asks the store, watches every instance it
found, and then hands the list to the cache. Other things may happen between these
steps, so a discovery is a value (`Lookup`) with a `step`; `discover` takes all steps in
a row. Even between the two looks into the cache that come first there may be others
(`Lookup.look`). A watch is one step here; a `Search` takes it apart as well. -/
namespace RemoteCall.Registry

structure CachedClient where
  client : Client := {}
  cache : Cache := {}
  /-- Calls of listeners outside, latest last. -/
  notices : List Notice := []

namespace CachedClient

/-- A listener is called. -/
def notify (c : CachedClient) (n : Notice) : CachedClient :=
  match n.listener with
  | .cache => { c with cache := (c.cache.invalidateNode n.node).2 }
  | .outside _ => { c with notices := c.notices ++ [n] }

def notify? (c : CachedClient) : Option Notice → CachedClient
  | some n => c.notify n
  | none => c

/-- Watches a record for a listener. -/
def watch (c : CachedClient) (s : Store) (now : Nat) (node : String) (listener : Listener) :
    Except RegistryError Unit × Store × CachedClient :=
  match c.client.watch s now node listener with
  | (.ok notice, s, client) => (.ok (), s, { c with client := client }.notify? notice)
  | (.error e, s, client) => (.error e, s, { c with client := client })

def init (c : CachedClient) (now : Nat) (config : RegistryConfig) : CachedClient :=
  { c with client := c.client.init now config }

def register (c : CachedClient) (s : Store) (now : Nat) (i : Instance) :
    Except RegistryError Unit × Store × CachedClient :=
  let (r, s, client) := c.client.register s now i
  (r, s, { c with client := client })

/-- Forgets the service as well, once the record has been deleted. -/
def unregister (c : CachedClient) (s : Store) (now : Nat) (i : Instance) :
    Except RegistryError Unit × Store × CachedClient :=
  match c.client.unregister s now i with
  | (.ok (), s, client) =>
    (.ok (), s, { c with client := client, cache := (c.cache.invalidate i.serviceKey).2 })
  | (.error e, s, client) => (.error e, s, { c with client := client })

def heartBeat (c : CachedClient) (now : Nat) : Except RegistryError Unit × CachedClient :=
  let (r, client) := c.client.heartBeat now
  (r, { c with client := client })

def destroy (c : CachedClient) (s : Store) (now : Nat) : Store × CachedClient :=
  let (s, client) := c.client.destroy s now
  (s, { c with client := client, cache := c.cache.clear })

end CachedClient

/-! ### Discoveries -/

/-- A discovery under way. -/
inductive Lookup where
  | start (service : String)
  /-- The cache had no list. -/
  | missed (service : String)
  /-- The cache had no list, and after that this was the generation of the service. -/
  | asking (service : String) (generation : Nat)
  /-- The store gave `found`, and the instances in `left` are still to be watched. -/
  | watching (service : String) (generation : Nat) (found left : List Instance)
  | done (result : Except RegistryError (List Instance))

namespace Lookup

/-- Hands the list to the cache. An empty list is not kept, for there would be nothing
to watch. -/
def keep (c : CachedClient) (service : String) (generation : Nat) (found : List Instance) :
    CachedClient :=
  if found.isEmpty then c else { c with cache := (c.cache.fill service generation found).2 }

/-- Looks into the cache, once for a list and once more for the generation. -/
def look (c : CachedClient) : Lookup → Lookup
  | start service =>
    match c.cache.read service with
    | some instances => done (.ok instances)
    | none => missed service
  | missed service => asking service (c.cache.generation service)
  | l => l

def step (c : CachedClient) (s : Store) (now : Nat) : Lookup → Lookup × Store × CachedClient
  | start service => (look c (look c (start service)), s, c)
  | missed service => (look c (missed service), s, c)
  | asking service generation =>
    match Client.discover s now service with
    | (.ok found, s) => (watching service generation found found, s, c)
    | (.error e, s) => (done (.error e), s, c)
  | watching service generation found (i :: left) =>
    match c.watch s now i.nodeKey .cache with
    | (.ok (), s, c) => (watching service generation found left, s, c)
    | (.error e, s, c) => (done (.error e), s, c)
  | watching service generation found [] =>
    (done (.ok found), s, keep c service generation found)
  | done result => (done result, s, c)

/-- Watches what is left and ends the discovery. -/
def finish (c : CachedClient) (s : Store) (now : Nat) (service : String) (generation : Nat)
    (found : List Instance) :
    List Instance → Except RegistryError (List Instance) × Store × CachedClient
  | [] => (.ok found, s, keep c service generation found)
  | i :: left =>
    match c.watch s now i.nodeKey .cache with
    | (.ok (), s, c) => finish c s now service generation found left
    | (.error e, s, c) => (.error e, s, c)

/-- Takes all steps that are left. -/
def run (c : CachedClient) (s : Store) (now : Nat) :
    Lookup → Except RegistryError (List Instance) × Store × CachedClient
  | start service =>
    match c.cache.read service with
    | some instances => (.ok instances, s, c)
    | none =>
      match Client.discover s now service with
      | (.ok found, s) => finish c s now service (c.cache.generation service) found found
      | (.error e, s) => (.error e, s, c)
  | missed service =>
    match Client.discover s now service with
    | (.ok found, s) => finish c s now service (c.cache.generation service) found found
    | (.error e, s) => (.error e, s, c)
  | asking service generation =>
    match Client.discover s now service with
    | (.ok found, s) => finish c s now service generation found found
    | (.error e, s) => (.error e, s, c)
  | watching service generation found left => finish c s now service generation found left
  | done result => (result, s, c)

theorem finish_eq_run_step (c : CachedClient) (s : Store) (now : Nat) (service : String)
    (generation : Nat) (found left : List Instance) :
    finish c s now service generation found left =
      let (l, s, c) := step c s now (watching service generation found left)
      run c s now l := by
  cases left with
  | nil => rfl
  | cons i left =>
    simp only [finish, step]
    split <;> rfl

/-- Running is stepping to the end. -/
theorem run_step (c : CachedClient) (s : Store) (now : Nat) (l : Lookup) :
    run c s now l =
      let (l, s, c) := step c s now l
      run c s now l := by
  cases l with
  | start service =>
    simp only [run, step, look]
    cases c.cache.read service <;> rfl
  | missed service =>
    simp only [run, step, look]
  | asking service generation =>
    simp only [run, step]
    split <;> rfl
  | watching service generation found left =>
    exact finish_eq_run_step c s now service generation found left
  | done result => rfl

end Lookup

/-- The instances of a service, from the cache if it has them. -/
def CachedClient.discover (c : CachedClient) (s : Store) (now : Nat) (service : String) :
    Except RegistryError (List Instance) × Store × CachedClient :=
  Lookup.run c s now (.start service)

end RemoteCall.Registry
