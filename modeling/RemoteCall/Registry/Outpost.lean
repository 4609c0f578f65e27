import RemoteCall.Registry.Cached
import RemoteCall.Registry.Round
import RemoteCall.Registry.Sentry

/-! A client and what it has under way.

Here everything that a client does beside its caller is taken apart. A discovery asks for each of
its watches step by step (`Search`), a turn of the heartbeat renews one record after another
(`Round`), and a watch that has called its listener goes on to run until it comes to its end. What
the caller asks the client for otherwise is one action, and to the client all others are no more
than what they do to the store. -/
namespace RemoteCall.Registry

/-- A discovery under way, and how far it is with the watch that it asks for. -/
structure Search where
  lookup : Lookup
  /-- None before it has looked whether a watch of the node runs. -/
  call : Option WatchCall := none

structure Outpost where
  now : Nat := 0
  store : Store := {}
  member : CachedClient := {}
  /-- Every discovery that was begun, latest last. -/
  searches : List Search := []
  /-- Every renewal of all records that was begun, latest last. -/
  rounds : List Round := []
  /-- The watches that have called their listener and have not come to their end. -/
  called : List TaskId := []

namespace Outpost

/-! ### What may happen next -/

inductive Action where
  | elapse (ms : Nat)
  /-- Somebody does something to the store. -/
  | store (op : Store.Op)
  /-- Somebody writes the record of an instance. -/
  | record (i : Instance) (ttl : Nat)
  | init (config : RegistryConfig)
  | register (i : Instance)
  | unregister (i : Instance)
  | heartBeat
  | watch (node tag : String)
  | clearCache
  | destroy
  /-- The client begins to renew its records. -/
  | renew
  /-- A discovery begins. -/
  | discover (service : String)
  /-- A discovery takes its next step. -/
  | search (n : Nat)
  /-- A sweeper or a heartbeat has a turn if one is due. -/
  | tick (id : TaskId)
  /-- A renewal of all records takes its next step. -/
  | round (n : Nat)
  /-- A watch hears at most so many announcements, and calls its listener if it is over then. -/
  | hear (id : TaskId) (count : Nat)
  /-- A watch that has called its listener comes to its end. -/
  | conclude (id : TaskId)

/-! ### Steps -/

def tasks (o : Outpost) : TaskSet Job := o.member.client.tasks

/-- The state of a task that runs. -/
def job? (o : Outpost) (id : TaskId) : Option Job :=
  match o.tasks.phase? id with
  | some (.running job) => some job
  | _ => none

/-- Puts the client back after it did something to the store. -/
def withMember (o : Outpost) (s : Store) (c : CachedClient) : Outpost :=
  { o with store := s, member := c }

def withTasks (o : Outpost) (tasks : TaskSet Job) : Outpost :=
  { o with member := { o.member with client := { o.member.client with tasks := tasks } } }

/-- What somebody sees who asks for a watch. -/
def sentry (o : Outpost) : Sentry := { now := o.now, store := o.store, client := o.member.client }

/-- What comes of a step in asking for a watch. The listeners that were called have done their
part. -/
def after (o : Outpost) (x : Sentry) : Outpost :=
  o.withMember x.store (x.told.foldl CachedClient.notify { o.member with client := x.client })

/-- One step of a discovery. -/
def seek (o : Outpost) (q : Search) : Search × Outpost :=
  match q.lookup with
  | .start _ | .missed _ => (⟨q.lookup.look o.member, none⟩, o)
  | .watching service generation found (i :: left) =>
    let (call, x) := (q.call.getD (.asked i.nodeKey .cache)).step o.sentry
    match call with
    | .done (.ok ()) => (⟨.watching service generation found left, none⟩, o.after x)
    | .done (.error e) => (⟨.done (.error e), none⟩, o.after x)
    | call => (⟨q.lookup, some call⟩, o.after x)
  | l =>
    let (l, s, c) := l.step o.member o.store o.now
    (⟨l, none⟩, o.withMember s c)

def search (o : Outpost) (n : Nat) : Outpost :=
  match o.searches[n]? with
  | some q =>
    let (q, p) := o.seek q
    { p with searches := o.searches.set n q }
  | none => o

/-- Whether a turn of a heartbeat is under way. A heartbeat has its turns one after another. -/
def busy (o : Outpost) (id : TaskId) : Bool :=
  o.rounds.any fun r => r.isOf id && !r.left.isEmpty

/-- Every turn is due a period after the one before, however late that was. -/
def tick (o : Outpost) (id : TaskId) : Outpost :=
  match o.job? id with
  | some (.sweeper period next) =>
    if o.now < next then o
    else if period = 0 then o.withTasks (o.tasks.finish id)
    else { o.withTasks (o.tasks.update id (.sweeper period (next + period))) with
      store := (o.store.sweep o.now).2 }
  | some (.heartbeat period next ttl) =>
    if o.now < next || o.busy id then o
    else if period = 0 then o.withTasks (o.tasks.finish id)
    else { o.withTasks (o.tasks.update id (.heartbeat period (next + period) ttl)) with
      rounds := o.rounds ++ [{ beat := some ⟨id, next⟩, ttl := ttl, left := o.member.client.own }] }
  | _ => o

def round (o : Outpost) (n : Nat) : Outpost :=
  match o.rounds[n]? with
  | some r =>
    let (r, s) := r.step o.store o.now
    { o with store := s, rounds := o.rounds.set n r }
  | none => o

def hear (o : Outpost) (id : TaskId) (count : Nat) : Outpost :=
  match o.job? id with
  | some (.watch w) =>
    if id ∈ o.called then o
    else match w.listenAll o.store.events count with
      | .wait => o
      | .listen w => o.withTasks (o.tasks.update id (.watch w))
      | .fire => { o with member := o.member.notify w.notice, called := id :: o.called }
  | _ => o

def conclude (o : Outpost) (id : TaskId) : Outpost :=
  match o.job? id with
  | some (.watch _) =>
    if id ∈ o.called then { o.withTasks (o.tasks.finish id) with called := o.called.erase id }
    else o
  | _ => o

/-- The client begins to renew its records, if it has settings. -/
def renew (o : Outpost) : Outpost :=
  match o.member.client.config with
  | some config => { o with
      rounds := o.rounds ++ [{ ttl := config.ttl.toNat, left := o.member.client.own }] }
  | none => o

def step (o : Outpost) : Action → Outpost
  | .elapse ms => { o with now := o.now + ms }
  | .store op => { o with store := (o.store.apply o.now op).2 }
  | .record i ttl => { o with
      store := (o.store.put o.now (recordKey i.nodeKey) (Client.recordOf i) ttl).2 }
  | .init config => { o with member := o.member.init o.now config }
  | .register i =>
    let (_, s, c) := o.member.register o.store o.now i
    o.withMember s c
  | .unregister i =>
    let (_, s, c) := o.member.unregister o.store o.now i
    o.withMember s c
  | .heartBeat => { o with member := (o.member.heartBeat o.now).2 }
  | .watch node tag =>
    let (_, s, c) := o.member.watch o.store o.now node (.outside tag)
    o.withMember s c
  | .clearCache => { o with member := { o.member with cache := o.member.cache.clear } }
  | .destroy =>
    let (s, c) := o.member.destroy o.store o.now
    o.withMember s c
  | .renew => o.renew
  | .discover service => { o with searches := o.searches ++ [⟨.start service, none⟩] }
  | .search n => o.search n
  | .tick id => o.tick id
  | .round n => o.round n
  | .hear id count => o.hear id count
  | .conclude id => o.conclude id

def run (o : Outpost) : List Action → Outpost
  | [] => o
  | a :: rest => run (o.step a) rest

theorem run_append (o : Outpost) (before after : List Action) :
    o.run (before ++ after) = (o.run before).run after := by
  induction before generalizing o with
  | nil => rfl
  | cons a rest ih => exact ih (o.step a)

/-! ### What can be said of a run -/

/-- Whether something is so of every action of a run in the state in which it is done. -/
def always (such : Outpost → Action → Bool) (o : Outpost) : List Action → Bool
  | [] => true
  | a :: rest => such o a && always such (o.step a) rest

/-- What the latest action of a run has to say that has something to say. -/
def latest? {α : Type} (note : Outpost → Action → Option α) (o : Outpost) : List Action → Option α
  | [] => none
  | a :: rest => (latest? note (o.step a) rest).or (note o a)

/-- Whether the watches have heard everything. -/
def caughtUp (o : Outpost) : Bool :=
  o.tasks.active.all fun (id, job) =>
    match job with
    | .watch w => id ∈ o.called || w.step o.store.events = .wait
    | _ => true

/-- Whether an action sweeps the store. -/
def sweeps (o : Outpost) : Action → Bool
  | .store .sweep => true
  | .tick id =>
    match o.job? id with
    | some (.sweeper period next) => period ≠ 0 && next ≤ o.now
    | _ => false
  | _ => false

/-- For how long an action lets a record live that it writes or renews. -/
def term? (o : Outpost) : Action → Option Nat
  | .store (.put _ _ ttl) | .store (.refresh _ ttl) | .record _ ttl => some ttl
  | .register _ => o.member.client.config.map fun config => config.ttl.toNat
  | .round n => o.rounds[n]?.map Round.ttl
  | _ => none

/-- Whether an action lets no record live until a moment only. After the moment none does; at the
moment itself those do that let them live for no time at all. -/
def lasting (moment : Nat) (o : Outpost) (a : Action) : Bool :=
  o.term? a ≠ some 0 || moment < o.now

end Outpost
end RemoteCall.Registry
