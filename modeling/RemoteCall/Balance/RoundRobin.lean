import RemoteCall.Instance

/-! Instances in turn. -/
namespace RemoteCall.Balance

/-- Counts the selections, starting over behind the largest word. -/
structure RoundRobin where
  next : UInt64 := 0
  deriving DecidableEq, Repr

namespace RoundRobin

/-- The candidate whose turn it is. Without candidates no turn is used up. -/
def select (r : RoundRobin) (candidates : List Instance) : Option Instance × RoundRobin :=
  if candidates.isEmpty then (none, r)
  else (candidates[r.next.toNat % candidates.length]?, ⟨r.next + 1⟩)

end RoundRobin
end RemoteCall.Balance
