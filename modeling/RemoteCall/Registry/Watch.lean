import RemoteCall.Registry.Cache
import RemoteCall.Registry.Store

/-! Waiting for the removal of a record.

A watch listens to the announcements of the store from the moment it was set up. It
takes them one at a time and calls its listener at the first that names its key. A watch
that has fallen so far behind that announcements are lost calls its listener as well,
since its own may be among them. Either way it is over then. -/
namespace RemoteCall.Registry

/-- Root of the keys of all records. -/
def recordRoot : String := "/rpc/"

def recordKey (node : String) : String := recordRoot ++ node

/-- Whom a watch calls. -/
inductive Listener where
  /-- The cache, which forgets the service of the node. -/
  | cache
  /-- Somebody outside, known by a tag. -/
  | outside (tag : String)
  deriving DecidableEq, Repr

/-- A call of a listener. -/
structure Notice where
  listener : Listener
  node : String
  deriving DecidableEq, Repr

/-- The tag of the listener, if it has one, and the node. -/
def Notice.text (n : Notice) : String :=
  match n.listener with
  | .cache => n.node
  | .outside tag => s!"{tag} {n.node}"

structure Watch where
  node : String
  listener : Listener
  /-- How many announcements it has heard or was not there for. -/
  heard : Nat
  deriving DecidableEq, Repr

namespace Watch

def notice (w : Watch) : Notice := ⟨w.listener, w.node⟩

/-- How a watch goes on. -/
inductive Next where
  /-- There is nothing new. -/
  | wait
  | listen (w : Watch)
  | fire
  deriving DecidableEq, Repr

/-- Takes one announcement. -/
def step (w : Watch) (events : List Event) : Next :=
  if w.heard + eventCapacity < events.length then .fire
  else match events[w.heard]? with
    | none => .wait
    | some e => if e.key = recordKey w.node then .fire else .listen { w with heard := w.heard + 1 }

/-- Takes announcements until there are no more or the watch is over. -/
def listenAll (w : Watch) (events : List Event) : (fuel : Nat) → Next
  | 0 => .listen w
  | fuel + 1 =>
    match w.step events with
    | .wait => .listen w
    | .fire => .fire
    | .listen w => w.listenAll events fuel

/-- Takes all announcements there are. -/
def run (w : Watch) (events : List Event) : Next := w.listenAll events (events.length + 1)

end Watch
end RemoteCall.Registry
