import RemoteCall.Balance.LeastActive
import RemoteCall.Balance.Ring
import RemoteCall.Balance.RoundRobin
import RemoteCall.Config

/-! The ways to pick one of several instances, under one interface. -/
namespace RemoteCall

/-- A way to pick, with what it keeps in mind. -/
inductive Balancer where
  | roundRobin (r : Balance.RoundRobin)
  /-- Any candidate, by numbers drawn from a generator. -/
  | random (gen : StdGen)
  | leastActive (l : Balance.LeastActive)
  | consistentHash (virtualNodes : Nat)

namespace Balancer

/-- A fresh balancer; `seed` matters to the random one alone. -/
def ofKind (seed : Nat) : BalancerKind → Balancer
  | .roundRobin => roundRobin {}
  | .random => random (mkStdGen seed)
  | .leastActive => leastActive {}
  | .consistentHash => consistentHash Balance.Ring.defaultVirtualNodes

def select (b : Balancer) (params : Dict String) (candidates : List Instance) :
    Option Instance × Balancer :=
  match b with
  | roundRobin r =>
    let (i, r) := r.select candidates
    (i, roundRobin r)
  | random gen =>
    if candidates.length ≤ 1 then (candidates.head?, random gen)
    else
      let (n, gen) := randNat gen 0 (candidates.length - 1)
      (candidates[n % candidates.length]?, random gen)
  | leastActive l =>
    let (i, l) := l.select candidates
    (i, leastActive l)
  | consistentHash virtualNodes =>
    (Balance.Ring.select virtualNodes params candidates, consistentHash virtualNodes)

/-- Selects by counts that were read before, if the balancer goes by counts. -/
def selectBy (b : Balancer) (counts : List Nat) (params : Dict String)
    (candidates : List Instance) : Option Instance × Balancer :=
  match b with
  | leastActive l =>
    let (i, l) := l.selectBy counts candidates
    (i, leastActive l)
  | b => b.select params candidates

/-- A call to the instance is over. -/
def release (b : Balancer) (i : Instance) : Balancer :=
  match b with
  | leastActive l => leastActive (l.release i)
  | b => b

/-- The instances that there are now. -/
def cleanup (b : Balancer) (current : List Instance) : Balancer :=
  match b with
  | leastActive l => leastActive (l.cleanup current)
  | b => b

/-- The instances that there are now, as far as it concerns some addresses. -/
def cleanupAt (b : Balancer) (visits : String → Bool) (current : List Instance) : Balancer :=
  match b with
  | leastActive l => leastActive (l.cleanupAt visits current)
  | b => b.cleanup current

/-- The calls counted for an address; most balancers count none. -/
def active (b : Balancer) (address : String) : Nat :=
  match b with
  | leastActive l => l.count address
  | _ => 0

end Balancer
end RemoteCall
