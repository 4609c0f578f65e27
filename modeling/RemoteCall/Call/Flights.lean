import RemoteCall.Balance.Balancer
import RemoteCall.Call.Pipeline

/-! Calls under way at the same time.

The calls that one consumer makes share its balancer. While one of them waits for its instance
the others go on, so each `Action` is one step of one call, and whatever the registry and the
servers answer comes with the step that asks them. A step that is not possible changes
nothing.

Nobody waits while another call selects, or tells the balancer which instances there are. A
selection by counts reads the count of one candidate after another, and takes the instance only
then; a listing goes by the counters one after another too, in no certain order. -/
namespace RemoteCall

/-- A way to repeat attempts, and a way to deal with failure. -/
structure Strategies where
  retry : Process Outcome → Process Outcome
  tolerate : FailedCall → CallError → Process Outcome

/-- The ways of a pipeline. -/
def Pipeline.strategies (p : Pipeline) : Strategies := ⟨p.retry.run, p.tolerance.apply⟩

/-- A call that is under way. -/
structure Flight where
  /-- What it still has to do. -/
  rest : Process Outcome
  /-- The instance that it has selected and not released yet. -/
  holds : Option Instance := none
  /-- The counts that it has read so far for the selection that is next. -/
  seen : List Nat := []
  /-- The addresses whose counters the listing that is next has gone by so far. -/
  visited : List String := []

namespace Flight

/-- Whether it has selected an instance at an address and not released it yet. -/
def isTo (c : Flight) (address : String) : Bool :=
  c.holds.map Instance.address = some address

/-- How a balancer takes part in a step of a call, with the answers of everybody else. -/
def handler (c : Flight) (found : Except RegistryError (List Instance)) (outcome : Outcome) :
    Process.Handler Balancer where
  discover _ b := (found, b)
  cleanup current b := b.cleanupAt (fun address => !c.visited.contains address) current
  select params candidates b := b.selectBy c.seen params candidates
  send _ _ b := (outcome, b)
  release target b := b.release target
  report _ _ b := b
  pause _ b := b

/-- The instance that it holds behind its next step. -/
def heldAfter (c : Flight) (b : Balancer) : Option Instance :=
  match c.rest with
  | .select params candidates _ => (b.selectBy c.seen params candidates).1
  | .release _ _ => none
  | _ => c.holds

/-- The candidate whose count it reads next, if it has to choose and has not read all counts. -/
def reads? (c : Flight) (b : Balancer) : Option Instance :=
  match b, c.rest with
  | .leastActive _, .select _ candidates _ =>
    if candidates.length ≤ 1 then none else candidates[c.seen.length]?
  | _, _ => none

/-- The next step of a call. -/
def step (c : Flight) (b : Balancer) (found : Except RegistryError (List Instance))
    (outcome : Outcome) : Flight × Balancer :=
  match c.reads? b with
  | some i => ({ c with seen := c.seen ++ [b.active i.address] }, b)
  | none =>
    let (rest, after) := c.rest.step (c.handler found outcome) b
    ({ rest := rest, holds := c.heldAfter b }, after)

/-- Its listing goes by the counter of an address, once. -/
def visit (c : Flight) (b : Balancer) (address : String) : Flight × Balancer :=
  match c.rest with
  | .cleanup current _ =>
    if c.visited.contains address then (c, b)
    else ({ c with visited := address :: c.visited }, b.cleanupAt (fun a => a = address) current)
  | _ => (c, b)

end Flight

structure Flights where
  balancer : Balancer
  calls : List Flight := []

namespace Flights

inductive Action where
  /-- A request is made. -/
  | invoke (r : Request)
  /-- A call takes its next step. This is the answer if it asks for instances, and what comes of
  it if it sends. -/
  | step (n : Nat) (found : Except RegistryError (List Instance)) (outcome : Outcome)
  /-- The listing of a call goes by the counter of an address. The next step of the call is to go
  by all others. -/
  | visit (n : Nat) (address : String)

/-- A call has changed, and the balancer with it. -/
def put (f : Flights) (n : Nat) (change : Flight × Balancer) : Flights :=
  { balancer := change.2, calls := f.calls.modify n fun _ => change.1 }

def step (s : Strategies) (f : Flights) : Action → Flights
  | .invoke r => { f with calls := f.calls ++ [{ rest := Pipeline.invokeWith s.retry s.tolerate r }] }
  | .step n found outcome =>
    match f.calls[n]? with
    | some c => f.put n (c.step f.balancer found outcome)
    | none => f
  | .visit n address =>
    match f.calls[n]? with
    | some c => f.put n (c.visit f.balancer address)
    | none => f

def run (s : Strategies) (f : Flights) : List Action → Flights
  | [] => f
  | a :: rest => run s (f.step s a) rest

/-! ### What can be said of a state -/

/-- How many calls have selected an instance at an address and not released it yet. -/
def inFlight (f : Flights) (address : String) : Nat := f.calls.countP (·.isTo address)

/-- The listing with which an action goes by the counter of an address. -/
def current? (f : Flights) (address : String) (a : Action) : Option (List Instance) :=
  let listing (n : Nat) : Option (List Instance) :=
    match f.calls[n]? with
    | some ⟨.cleanup current _, _, _, visited⟩ =>
      if visited.contains address then none else some current
    | _ => none
  match a with
  | .step n _ _ => listing n
  | .visit n visited => if visited = address then listing n else none
  | .invoke _ => none

/-- The candidates among which a call is about to select, and the counts that it has read. -/
def selection? (f : Flights) (n : Nat) : Option (List Instance × List Nat) :=
  match f.calls[n]? with
  | some ⟨.select _ candidates _, _, seen, _⟩ => some (candidates, seen)
  | _ => none

/-- Whether an action that goes by the counter of an address does so with a listing that names the
address. -/
def Names (f : Flights) (address : String) (a : Action) : Prop :=
  ∀ current ∈ f.current? address a, address ∈ current.map Instance.address

instance (f : Flights) (address : String) (a : Action) : Decidable (f.Names address a) :=
  inferInstanceAs
    (Decidable (∀ current ∈ f.current? address a, address ∈ current.map Instance.address))

/-- Whether an address is named whenever a call to it is in flight. -/
def Listed (s : Strategies) (address : String) (f : Flights) : List Action → Prop
  | [] => True
  | a :: rest =>
    (f.inFlight address ≠ 0 → f.Names address a) ∧ Listed s address (f.step s a) rest

instance Listed.decidable (s : Strategies) (address : String) :
    (f : Flights) → (actions : List Action) → Decidable (Listed s address f actions)
  | _, [] => .isTrue trivial
  | f, a :: rest =>
    have := Listed.decidable s address (f.step s a) rest
    inferInstanceAs (Decidable (_ ∧ _))

/-- Whether there was a moment without a call to an address in flight since which the address
has been listed. -/
def Tracked (s : Strategies) (f : Flights) (actions : List Action) (address : String) : Prop :=
  ∃ early late, actions = early ++ late ∧ (f.run s early).inFlight address = 0 ∧
    Listed s address (f.run s early) late

end Flights
end RemoteCall
