import RemoteCall.Instance

/-! The instance with the fewest calls under way.

Calls are counted by address, from their selection to their release. An address that is
no longer listed loses its counter. -/
namespace RemoteCall.Balance

structure LeastActive where
  active : Dict Nat := []
  deriving DecidableEq, Repr

namespace LeastActive

/-- The calls counted for an address. -/
def count (l : LeastActive) (address : String) : Nat := (l.active.find? address).getD 0

/-- The first of some candidates, each with a count, that has the least count. -/
def least : List (Instance × Nat) → Option (Instance × Nat)
  | [] => none
  | x :: rest =>
    match least rest with
    | none => some x
    | some y => if x.2 ≤ y.2 then some x else some y

/-- The candidate to select by counts of the candidates. A single one is selected whatever its
count. -/
def choose (counts : List Nat) : List Instance → Option Instance
  | [] => none
  | [only] => some only
  | candidates => (least (candidates.zip counts)).map Prod.fst

def acquire (l : LeastActive) (i : Instance) : LeastActive :=
  ⟨l.active.insert i.address (l.count i.address + 1)⟩

/-- Selects by counts that were read before. -/
def selectBy (l : LeastActive) (counts : List Nat) (candidates : List Instance) :
    Option Instance × LeastActive :=
  match choose counts candidates with
  | some i => (some i, l.acquire i)
  | none => (none, l)

def select (l : LeastActive) (candidates : List Instance) : Option Instance × LeastActive :=
  l.selectBy (candidates.map fun i => l.count i.address) candidates

/-- One call less; a counter never falls below zero. -/
def release (l : LeastActive) (i : Instance) : LeastActive :=
  match l.active.find? i.address with
  | some n => ⟨l.active.insert i.address (n - 1)⟩
  | none => l

/-- Goes by the counters of some addresses, and forgets those of them that are not the addresses of
the given instances. -/
def cleanupAt (l : LeastActive) (visits : String → Bool) (current : List Instance) : LeastActive :=
  ⟨l.active.filter fun (address, _) =>
    !visits address || (current.map Instance.address).contains address⟩

/-- Forgets the counters of all addresses but those of the given instances. -/
def cleanup (l : LeastActive) (current : List Instance) : LeastActive :=
  l.cleanupAt (fun _ => true) current

end LeastActive
end RemoteCall.Balance
