import RemoteCall.Registry.World

/-! Several registry clients at once.

In a world every discovery runs to its end and every task that can run does so before
anything else happens. Here each of them goes on by itself: time passes without any task
running, a task runs when it is picked, a watch hears as many announcements as it is given
time for, and a discovery takes one step, which may be no more than a look into the cache,
while others do what they like before its next one.

What is one step here, the run of a watch, the turn of a heartbeat and the asking for a watch, is
taken apart for one client in an `Outpost`. -/
namespace RemoteCall.Registry

structure Traffic where
  world : World := {}
  /-- Every discovery that was begun with its client, latest last. -/
  lookups : List (String × Lookup) := []

namespace Traffic

/-! ### What may happen next -/

inductive Action where
  /-- Something that is done in one go. -/
  | world (a : World.Action)
  | elapse (ms : Nat)
  /-- A task of a client runs if it is due. -/
  | due (member : String) (id : TaskId)
  /-- A watch of a client hears at most so many announcements. -/
  | hear (member : String) (id : TaskId) (count : Nat)
  /-- A discovery begins. -/
  | discover (member service : String)
  /-- A discovery looks into the cache. -/
  | look (n : Nat)
  /-- A discovery takes its next step. -/
  | goOn (n : Nat)

/-- Whether something in a world is done in one go. -/
def inOneGo : World.Action → Bool
  | .advance _ | .sleep _ | .discover _ _ => false
  | _ => true

def member (x : Traffic) (name : String) : CachedClient := x.world.member name

/-- The state of a task that runs. -/
def job? (x : Traffic) (name : String) (id : TaskId) : Option Job :=
  match (x.member name).client.tasks.phase? id with
  | some (.running job) => some job
  | _ => none

def setLookup (x : Traffic) (n : Nat) (name : String) (l : Lookup) : Traffic :=
  { x with lookups := x.lookups.set n (name, l) }

def withMember (x : Traffic) (name : String) (s : Store) (c : CachedClient) : Traffic :=
  { x with world := x.world.withMember name s c }

/-! ### Steps -/

def due (x : Traffic) (name : String) (id : TaskId) : Traffic :=
  match x.job? name id with
  | some job =>
    let c := x.member name
    let (s, client) := c.client.runDue x.world.store x.world.now id job
    x.withMember name s { c with client := client }
  | none => x

def hear (x : Traffic) (name : String) (id : TaskId) (count : Nat) : Traffic :=
  match x.job? name id with
  | some job =>
    let c := x.member name
    let (notice, client) := c.client.hear x.world.store id count job
    x.withMember name x.world.store ({ c with client := client }.notify? notice)
  | none => x

def look (x : Traffic) (n : Nat) : Traffic :=
  match x.lookups[n]? with
  | some (name, l) => x.setLookup n name (l.look (x.member name))
  | none => x

def goOn (x : Traffic) (n : Nat) : Traffic :=
  match x.lookups[n]? with
  | some (name, l) =>
    let (l, s, c) := l.step (x.member name) x.world.store x.world.now
    (x.withMember name s c).setLookup n name l
  | none => x

def step (x : Traffic) : Action → Traffic
  | .world a => if inOneGo a then { x with world := (x.world.perform a).2 } else x
  | .elapse ms => { x with world := { x.world with now := x.world.now + ms } }
  | .due name id => x.due name id
  | .hear name id count => x.hear name id count
  | .discover name service => { x with lookups := x.lookups ++ [(name, .start service)] }
  | .look n => x.look n
  | .goOn n => x.goOn n

def run (x : Traffic) : List Action → Traffic
  | [] => x
  | a :: rest => run (x.step a) rest

end Traffic
end RemoteCall.Registry
