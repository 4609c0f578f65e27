import RemoteCall.Registry.Client

/-! A client at its store.

To a client all others are no more than what they do to the store, one operation after another.
Each `Action` is done in one go, by the client, by one of its tasks, or by somebody at the store.
Asking for a watch is no such action: between finding that no watch of the node runs, beginning to
listen, looking for the record and starting the task anything may happen, so it is a value
(`WatchCall`) with a `step`. -/
namespace RemoteCall.Registry

structure Sentry where
  now : Nat := 0
  store : Store := {}
  client : Client := {}
  /-- The calls of listeners, latest last. -/
  told : List Notice := []

namespace Sentry

/-- A new client at a store. -/
def new (now : Nat) (store : Store) : Sentry := { now := now, store := store }

/-- A listener is called, if any. -/
def tell? (x : Sentry) (notice : Option Notice) : Sentry :=
  { x with told := x.told ++ notice.toList }

/-! ### What may happen next -/

inductive Action where
  | elapse (ms : Nat)
  /-- Somebody does something to the store. -/
  | store (op : Store.Op)
  | init (config : RegistryConfig)
  | register (i : Instance)
  | unregister (i : Instance)
  | heartBeat
  | renew
  /-- A watch is asked for, and nothing happens meanwhile. -/
  | watch (node : String) (listener : Listener)
  | destroy
  /-- A task runs if it is due. -/
  | due (id : TaskId)
  /-- A watch hears at most so many announcements. -/
  | hear (id : TaskId) (count : Nat)

/-- The state of a task that runs. -/
def job? (x : Sentry) (id : TaskId) : Option Job :=
  match x.client.tasks.phase? id with
  | some (.running job) => some job
  | _ => none

def watch (x : Sentry) (node : String) (listener : Listener) :
    Except RegistryError Unit × Sentry :=
  let (r, store, client) := x.client.watch x.store x.now node listener
  let x := { x with store := store, client := client }
  match r with
  | .ok notice => (.ok (), x.tell? notice)
  | .error e => (.error e, x)

def due (x : Sentry) (id : TaskId) : Sentry :=
  match x.job? id with
  | some job =>
    let (store, client) := x.client.runDue x.store x.now id job
    { x with store := store, client := client }
  | none => x

def hear (x : Sentry) (id : TaskId) (count : Nat) : Sentry :=
  match x.job? id with
  | some job =>
    let (notice, client) := x.client.hear x.store id count job
    { x with client := client }.tell? notice
  | none => x

def step (x : Sentry) : Action → Sentry
  | .elapse ms => { x with now := x.now + ms }
  | .store op => { x with store := (x.store.apply x.now op).2 }
  | .init config => { x with client := x.client.init x.now config }
  | .register i =>
    let (_, store, client) := x.client.register x.store x.now i
    { x with store := store, client := client }
  | .unregister i =>
    let (_, store, client) := x.client.unregister x.store x.now i
    { x with store := store, client := client }
  | .heartBeat => { x with client := (x.client.heartBeat x.now).2 }
  | .renew => { x with store := (x.client.renew x.store x.now).2 }
  | .watch node listener => (x.watch node listener).2
  | .destroy =>
    let (store, client) := x.client.destroy x.store x.now
    { x with store := store, client := client }
  | .due id => x.due id
  | .hear id count => x.hear id count

def run (x : Sentry) : List Action → Sentry
  | [] => x
  | a :: rest => run (x.step a) rest

/-! ### What can be said of a state -/

/-- The watches of a node that run for a listener. -/
def watches (x : Sentry) (node : String) (listener : Listener) : List Watch :=
  x.client.tasks.active.filterMap fun (_, job) =>
    match job with
    | .watch w => if w.node = node ∧ w.listener = listener then some w else none
    | _ => none

/-- How often a listener was called for a node. -/
def calls (x : Sentry) (node : String) (listener : Listener) : Nat :=
  x.told.count ⟨listener, node⟩

/-- Whether a watch has fallen so far behind that it has missed something. -/
def lags (x : Sentry) (w : Watch) : Bool := w.heard + eventCapacity < x.store.events.length

end Sentry

/-! ### Asking for a watch -/

/-- A watch that was asked for. -/
inductive WatchCall where
  | asked (node : String) (listener : Listener)
  /-- No watch of the node ran. -/
  | vacant (node : String) (listener : Listener)
  /-- It has begun to listen. -/
  | listening (w : Watch)
  /-- After that the record was there. -/
  | found (w : Watch)
  | done (result : Except RegistryError Unit)

namespace WatchCall
open Sentry

def step (x : Sentry) : WatchCall → WatchCall × Sentry
  | asked node listener =>
    if x.client.tasks.isRunning (Client.watchTask node) then (done (.ok ()), x)
    else (vacant node listener, x)
  | vacant node listener => (listening ⟨node, listener, x.store.events.length⟩, x)
  | listening w =>
    match x.store.get x.now (recordKey w.node) with
    | (.error e, s) => (done (.error e), { x with store := s })
    | (.ok none, s) => (done (.ok ()), { x with store := s }.tell? (some w.notice))
    | (.ok (some _), s) => (found w, { x with store := s })
  | found w =>
    let tasks := (x.client.tasks.spawnIfAbsent (Client.watchTask w.node) (.watch w)).2
    (done (.ok ()), { x with client := { x.client with tasks := tasks } })
  | done result => (done result, x)

/-- Takes one step for each list of actions, which are done behind it. -/
def run (x : Sentry) (call : WatchCall) : List (List Action) → WatchCall × Sentry
  | [] => (call, x)
  | meanwhile :: rest => run ((call.step x).2.run meanwhile) (call.step x).1 rest

section
variable {x : Sentry} {w : Watch} {s : Store}

theorem step_listening_error {e : RegistryError}
    (h : x.store.get x.now (recordKey w.node) = (.error e, s)) :
    step x (listening w) = (done (.error e), { x with store := s }) := by
  simp only [step, h]

theorem step_listening_none (h : x.store.get x.now (recordKey w.node) = (.ok none, s)) :
    step x (listening w) = (done (.ok ()), { x with store := s }.tell? (some w.notice)) := by
  simp only [step, h]

theorem step_listening_some {text : String}
    (h : x.store.get x.now (recordKey w.node) = (.ok (some text), s)) :
    step x (listening w) = (found w, { x with store := s }) := by
  simp only [step, h]

end

/-- Without anything in between it is one action. -/
theorem run_alone (x : Sentry) (node : String) (listener : Listener) :
    run x (asked node listener) [[], [], [], []] =
      (done (x.watch node listener).1, (x.watch node listener).2) := by
  by_cases hruns : x.client.tasks.isRunning (Client.watchTask node) = true
  · have hfirst : step x (asked node listener) = (done (.ok ()), x) := if_pos hruns
    have hwatch : x.watch node listener = (.ok (), x) := by
      simp [Sentry.watch, Client.watch, hruns, Sentry.tell?]
    rw [run, hfirst, hwatch]
    rfl
  · have hfirst : step x (asked node listener) = (vacant node listener, x) := if_neg hruns
    rw [run, hfirst]
    show run x (listening ⟨node, listener, x.store.events.length⟩) [[], []] = _
    rw [run]
    simp only [Sentry.watch, Client.watch, if_neg hruns]
    rcases hget : x.store.get x.now (recordKey node) with ⟨e | text | text, s⟩
    · rw [step_listening_error hget]
      rfl
    · rw [step_listening_none hget]
      rfl
    · rw [step_listening_some hget]
      simp [run, step, Sentry.run, Sentry.tell?]

end WatchCall
end RemoteCall.Registry
