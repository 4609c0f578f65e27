import RemoteCall.Balance.Balancer
import RemoteCall.Call.Process
import RemoteCall.Registry.World

/-! A consumer of services.

It carries out the steps of a process one after another: it discovers with its client of
the registry, selects with its balancer, and has requests sent in a way of its own.
While it waits time passes for everybody in its world. -/
namespace RemoteCall

/-- A way to send requests, with states `τ`: what comes of a request, and after how many
milliseconds. -/
abbrev Sender (τ : Type) : Type := Request → Instance → τ → (Outcome × Nat) × τ

structure Consumer (τ : Type) where
  world : Registry.World := {}
  /-- The consumer's name among the clients of the registry. -/
  name : String := "consumer"
  /-- Whether it asks its cache before it asks the store. -/
  caching : Bool := true
  balancer : Balancer
  transport : τ
  /-- The failed attempts that were reported, first to last. -/
  reports : List (Nat × CallError) := []

namespace Consumer
variable {τ : Type}

def discover (service : String) (c : Consumer τ) :
    Except RegistryError (List Instance) × Consumer τ :=
  let w := c.world
  if c.caching then
    let (r, s, client) := (w.member c.name).discover w.store w.now service
    (r, { c with world := w.withMember c.name s client })
  else
    let (r, s) := Registry.Client.discover w.store w.now service
    (r, { c with world := { w with store := s } })

def select (params : Dict String) (candidates : List Instance) (c : Consumer τ) :
    Option Instance × Consumer τ :=
  let (i, balancer) := c.balancer.select params candidates
  (i, { c with balancer := balancer })

def send (sender : Sender τ) (request : Request) (target : Instance) (c : Consumer τ) :
    Outcome × Consumer τ :=
  let ((outcome, ms), transport) := sender request target c.transport
  (outcome, { c with transport := transport, world := c.world.sleep ms })

/-- How a consumer carries out each step. -/
def handler (sender : Sender τ) : Process.Handler (Consumer τ) where
  discover := discover
  cleanup current c := { c with balancer := c.balancer.cleanup current }
  select := select
  send := send sender
  release target c := { c with balancer := c.balancer.release target }
  report attempt e c := { c with reports := c.reports ++ [(attempt, e)] }
  pause ms c := { c with world := c.world.sleep ms }

/-- Carries out a whole process. -/
def play {α : Type} (c : Consumer τ) (sender : Sender τ) (p : Process α) : α × Consumer τ :=
  p.run (handler sender) c

end Consumer
end RemoteCall
