import RemoteCall.Instance

/-! What discoveries have found, by service key.

Every invalidation of a service raises its generation. A discovery notes the generation
before it asks and hands it in with what it found; if an invalidation came in between,
the finding may be stale and is refused. -/
namespace RemoteCall.Registry

/-- What is kept for one service. -/
structure Slot where
  generation : Nat := 0
  instances : Option (List Instance) := none
  deriving DecidableEq, Repr

structure Cache where
  slots : Dict Slot := []
  deriving DecidableEq, Repr

namespace Cache

/-- A service that was never mentioned is in generation zero and has no list. -/
def slot (c : Cache) (service : String) : Slot := (c.slots.find? service).getD {}

def setSlot (c : Cache) (service : String) (s : Slot) : Cache := ⟨c.slots.insert service s⟩

def read (c : Cache) (service : String) : Option (List Instance) := (c.slot service).instances

def generation (c : Cache) (service : String) : Nat := (c.slot service).generation

/-- Keeps a list, whatever the generation. -/
def write (c : Cache) (service : String) (instances : List Instance) : Cache :=
  c.setSlot service { c.slot service with instances := some instances }

/-- Keeps a list unless the generation has changed; says whether. -/
def fill (c : Cache) (service : String) (generation : Nat) (instances : List Instance) :
    Bool × Cache :=
  if c.generation service = generation then (true, c.write service instances) else (false, c)

/-- Forgets the list of a service; says whether there was one. -/
def invalidate (c : Cache) (service : String) : Bool × Cache :=
  ((c.read service).isSome, c.setSlot service ⟨c.generation service + 1, none⟩)

/-- The service key of a node key: all before the first stroke. -/
def serviceOf? (node : String) : Option String :=
  match node.toList.dropWhile (· ≠ '/') with
  | [] => none
  | _ => some (String.ofList (node.toList.takeWhile (· ≠ '/')))

/-- Forgets the list of the service that a node belongs to. -/
def invalidateNode (c : Cache) (node : String) : Bool × Cache :=
  match serviceOf? node with
  | some service => c.invalidate service
  | none => (false, c)

/-- Forgets all lists. -/
def clear (c : Cache) : Cache :=
  ⟨c.slots.map fun (service, s) => (service, ⟨s.generation + 1, none⟩)⟩

end Cache
end RemoteCall.Registry
